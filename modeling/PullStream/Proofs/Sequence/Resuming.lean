import Mathlib.Algebra.Ring.Nat
import PullStream.Proofs.Parallel.Draining
import PullStream.Proofs.Pulling
import PullStream.Proofs.ReadAhead.Draining
import PullStream.Proofs.Stage.Chaining
import PullStream.Proofs.Stage.Scores
import PullStream.Sequence

/-!
Pulls can be abandoned and resumed.

A pipeline keeps everything that it has begun in its state, and nothing in a pull: the batch in the
making, the step that is running, the wait that is under way, the attempt that is being made. So
what is received from it does not depend on how it is pulled. `Assembled` goes through the ways in
which pipelines are built, on sources that can be resumed themselves and with step functions whose
results depend on the element and its index only; each stage has its own reason, and the induction
puts them together.

* `Assembled` — the pipelines.
* `assembled_resumable` — they can be resumed.
* `abandoned_pulls_resume` — what two ways of pulling have in common, and what an ordered parallel
  stage makes of its source.
-/

namespace PullStream.Sequence

/-! ### Step functions as workers -/

/-- A step function that runs as a worker: whether it panics, and else its result, depends on the
element and its index only. -/
def RiskyStep.Settles {ω α ρ : Type} (f : RiskyStep ω α ρ)
    (g : α → Nat → Except Payload (Except Failure ρ)) : Prop :=
  ∀ a i now w, match (f a i now w).1 with
    | .started d => ∀ now w, (d.finish now w).1 = g a i
    | .panicked payload => g a i = .error payload

/-- The outcome of a step function that runs as a worker. -/
def RiskyStep.outcome {ρ β : Type} (settled : ρ → Outcome β) :
    Except Payload (Except Failure ρ) → Outcome β
  | .ok (.ok r) => settled r
  | .ok (.error e) => .failed e
  | .error payload => .panicked payload

theorem RiskyStep.worker_settles {ω α β ρ : Type} {f : RiskyStep ω α ρ}
    {g : α → Nat → Except Payload (Except Failure ρ)} (settles : f.Settles g)
    (outcome : α → ρ → Outcome β) :
    (RiskyStep.worker f outcome).Yields fun a i =>
      (RiskyStep.outcome (outcome a) (g a i)).result i := by
  intro a i now w
  have settled := settles a i now w
  rcases asked : f a i now w with ⟨launch, w'⟩
  rw [asked] at settled
  rw [RiskyStep.worker, asked]
  cases launch with
  | panicked payload =>
    have same : g a i = .error payload := settled
    dsimp only
    rw [same]
    rfl
  | started d =>
    intro now w
    have finished : (d.finish now w).1 = g a i := settled now w
    dsimp only
    rw [← finished]
    rcases d.finish now w with ⟨(payload | (e | r)), w'⟩ <;> rfl

/-! ### Sources -/

section Sources

variable {ω α : Type}

theorem ofResults_resumable (items : List (Except Failure α)) :
    (Machine.ofResults (ω := ω) items).Resumable :=
  (Machine.ofResults_delivers items).resumable

theorem range_resumable (first last : Int64) :
    (range (ω := ω) first last).machine.Resumable := by
  refine @Machine.resumable_of_plain _ _ (range (ω := ω) first last).machine Int (fun n => n)
    (fun n => if n ≤ last.toInt then .item (Int64.ofInt n) else .done)
    (fun n => if n ≤ last.toInt then n + 1 else n) ?_ fun _ _ _ => rfl
  intro (n : Int) now w
  simp only [range, Machine.immediate]
  split
  · exact ⟨rfl, rfl⟩
  · exact ⟨rfl, rfl⟩

/-- The background work of the sequence that has been emptied does not touch the list. -/
theorem emptiedInto_resumable (s : Sequence ω α) (state : s.machine.State) (items : List α) :
    (s.emptiedInto state items).machine.Resumable := by
  refine @Machine.resumable_of_plain _ _ (s.emptiedInto state items).machine (List α) Prod.fst
    (fun | [] => .done | a :: _ => .item a) List.tail ?_ fun _ _ _ => rfl
  rintro ⟨_ | ⟨a, rest⟩, r⟩ now w
  · exact ⟨rfl, rfl⟩
  · exact ⟨rfl, rfl⟩

end Sources

/-! ### Pipelines -/

/-- The pipelines on sources that can be resumed, with step functions whose results depend on the
element and its index only, and judges whose decisions depend on these and the failure. Workers may
panic, if that depends on the element and its index only. -/
inductive Assembled : {ω α : Type} → Sequence ω α → Prop where
  -- sources
  | source {ω α : Type} (mode : Mode) {m : Machine ω α} : m.Resumable → Assembled ⟨mode, m⟩
  | ofList {ω α : Type} (items : List α) : Assembled (ω := ω) (ofList items)
  | ofResults {ω α : Type} (items : List (Except Failure α)) : Assembled (ω := ω) (ofResults items)
  | ofMachine {ω α : Type} {m : Machine ω α} : m.Resumable → Assembled (ofMachine m)
  | ofWaiting {ω α : Type} {m : Machine ω α} : m.Resumable → Assembled (ofWaiting m)
  | empty {ω α : Type} : Assembled (ω := ω) (α := α) empty
  | range {ω : Type} (first last : Int64) : Assembled (ω := ω) (range first last)
  | delayed {ω α : Type} (items : List α) (delay : Time) : Assembled (ω := ω) (delayed items delay)
  | emptiedInto {ω α : Type} (s : Sequence ω α) (state : s.machine.State) (items : List α) :
      Assembled (s.emptiedInto state items)
  -- stages that keep the mode
  | map {ω α β : Type} {s : Sequence ω α} {f : Step ω α β} {g} :
      Assembled s → f.Gives g → Assembled (s.map f)
  | filter {ω α : Type} {s : Sequence ω α} {p : Step ω α Bool} {g} :
      Assembled s → p.Gives g → Assembled (s.filter p)
  | intercept {ω α : Type} {s : Sequence ω α} {f : Step ω α Unit} {g} :
      Assembled s → f.Gives g → Assembled (s.intercept f)
  | assert {ω α : Type} {s : Sequence ω α} {p : Step ω α Bool} {g} :
      Assembled s → p.Gives g → Assembled (s.assert p)
  | distinct {ω α κ : Type} [DecidableEq κ] {s : Sequence ω α} (key : α → κ) :
      Assembled s → Assembled (s.distinct key)
  | pairwise {ω α : Type} {s : Sequence ω α} : Assembled s → Assembled s.pairwise
  | skip {ω α : Type} {s : Sequence ω α} (count : Nat) : Assembled s → Assembled (s.skip count)
  | take {ω α : Type} {s : Sequence ω α} (count : Nat) : Assembled s → Assembled (s.take count)
  | takeWhile {ω α : Type} {s : Sequence ω α} {p : Step ω α Bool} {g} :
      Assembled s → p.Gives g → Assembled (s.takeWhile p)
  | flatMap {ω α β : Type} {s : Sequence ω α} {f : Step ω α (List β)} {g} :
      Assembled s → f.Gives g → Assembled (s.flatMap f)
  | defaultIfEmpty {ω α : Type} {s : Sequence ω α} (value : α) :
      Assembled s → Assembled (s.defaultIfEmpty value)
  | sort {ω α : Type} {s : Sequence ω α} (notAfter : α → α → Bool) :
      Assembled s → Assembled (s.sort notAfter)
  | retry {ω α β : Type} {s : Sequence ω α} (failing : Bool) {judge : Judge ω α} {f : Step ω α β}
      {g d} : Assembled s → f.Gives g → judge.Gives d → Assembled (s.retry failing judge f)
  | batch {ω α : Type} {s : Sequence ω α} {t : Sequence ω (List α)} {size width : Nat} :
      Assembled s → s.batch size width = .ok t → Assembled t
  | append {ω α : Type} {s t : Sequence ω α} :
      Assembled s → Assembled t → Assembled (s.append t)
  -- stages that may wait
  | mapAsync {ω α β : Type} {s : Sequence ω α} {f : SlowStep ω α β} {g} :
      Assembled s → f.Gives g → Assembled (s.mapAsync f)
  | filterAsync {ω α : Type} {s : Sequence ω α} {p : SlowStep ω α Bool} {g} :
      Assembled s → p.Gives g → Assembled (s.filterAsync p)
  | interceptAsync {ω α : Type} {s : Sequence ω α} {f : SlowStep ω α Unit} {g} :
      Assembled s → f.Gives g → Assembled (s.interceptAsync f)
  | flatMapAsync {ω α β ι : Type} {s : Sequence ω α} {inner : ι → Sequence ω β}
      {f : SlowStep ω α ι} {g} : Assembled s → (∀ i, Assembled (inner i)) → f.Gives g →
      Assembled (s.flatMapAsync inner f)
  | retryAsync {ω α β : Type} {s : Sequence ω α} (failing : Bool) {judge : SlowJudge ω α}
      {f : SlowStep ω α β} {g d} : Assembled s → f.Gives g → judge.Gives d →
      Assembled (s.retryAsync failing judge f)
  | throttle {ω α : Type} {s : Sequence ω α} (pause : Pause ω) :
      Assembled s → Assembled (s.throttle pause)
  | interruptEvery {ω α : Type} {s t : Sequence ω α} {count : Nat} :
      Assembled s → s.interruptEvery count = .ok t → Assembled t
  | interruptPerSecond {ω α : Type} {s t : Sequence ω α} {times : Nat} {created : Time} :
      Assembled s → s.interruptPerSecond times created = .ok t → Assembled t
  | buffer {ω α : Type} {s t : Sequence ω α} {size : Nat} :
      Assembled s → s.buffer size = .ok t → Assembled t
  | parallel {ω α β : Type} {s : Sequence ω α} {t : Sequence ω β} {concurrency : Nat}
      {work : Worker ω α β} {result} : Assembled s → work.Yields result →
      s.parallel concurrency true work = .ok t → Assembled t
  -- conversions
  | toWaiting {ω α : Type} {s : Sequence ω α} : Assembled s → Assembled s.toWaiting
  | walked {ω α : Type} {s : Sequence ω α} {m : Machine ω α} :
      Assembled s → s.tryWalk = .ok m → Assembled (Sequence.ofMachine m)

theorem buffer_resumable {ω α : Type} {s t : Sequence ω α} {size : Nat}
    (resumable : s.machine.Resumable) (built : s.buffer size = .ok t) : t.machine.Resumable := by
  unfold buffer at built
  split at built
  · cases built
  · split at built
    · cases built
      exact resumable
    · cases built
      exact (Machine.readAhead_resumable resumable size).guarded

theorem assembled_resumable {ω α : Type} {s : Sequence ω α} (assembled : s.Assembled) :
    s.machine.Resumable := by
  induction assembled with
  | source mode resumable => exact resumable
  | ofList items => exact ofResults_resumable _
  | ofResults items => exact (ofResults_resumable items).guarded
  | ofMachine resumable => exact resumable.guarded
  | ofWaiting resumable => exact resumable.guarded
  | empty => exact ofResults_resumable _
  | range first last => exact range_resumable first last
  | delayed items delay =>
    exact (Transducer.arriving_renders _).via_resumable (ofResults_resumable _)
  | emptiedInto s state items => exact emptiedInto_resumable s state items
  | map _ gives ih => exact ((Transducer.map_timeless gives).via_resumable ih).guarded
  | filter _ gives ih => exact ((Transducer.filter_timeless gives).via_resumable ih).guarded
  | intercept _ gives ih => exact ((Transducer.intercept_timeless gives).via_resumable ih).guarded
  | assert _ gives ih => exact ((Transducer.assert_timeless gives).via_resumable ih).guarded
  | distinct key _ ih => exact ((Transducer.distinct_timeless key).via_resumable ih).guarded
  | pairwise _ ih => exact (Transducer.pairwise_timeless.via_resumable ih).guarded
  | skip count _ ih => exact ((Transducer.skipFirst_timeless count).via_resumable ih).guarded
  | take count _ ih => exact ((Transducer.takeFirst_timeless _ count).via_resumable ih).guarded
  | takeWhile _ gives ih =>
    exact ((Transducer.takeWhile_timeless _ gives).via_resumable ih).guarded
  | flatMap _ gives ih => exact ((Transducer.flatMap_timeless _ gives).via_resumable ih).guarded
  | defaultIfEmpty value _ ih =>
    exact ((Transducer.defaultIfEmpty_timeless value).via_resumable ih).guarded
  | sort notAfter _ ih => exact ((Transducer.sort_timeless notAfter).via_resumable ih).guarded
  | retry failing _ operates judges ih =>
    exact ((Transducer.retry_timeless failing operates judges).via_resumable ih).guarded
  | batch _ built ih =>
    unfold Sequence.batch at built
    split at built <;> cases built
    exact ((Transducer.batch_timeless _ _).via_resumable ih).guarded
  | append _ _ ih ih' => exact (Machine.append_resumable ih ih').guarded
  | mapAsync _ gives ih => exact ((Transducer.mapAsync_renders gives).via_resumable ih).guarded
  | filterAsync _ gives ih =>
    exact ((Transducer.filterAsync_renders gives).via_resumable ih).guarded
  | interceptAsync _ gives ih =>
    exact ((Transducer.interceptAsync_renders gives).via_resumable ih).guarded
  | flatMapAsync _ _ gives ih inside =>
    exact (Machine.flatMapAsync_resumable ih inside gives).guarded
  | retryAsync failing _ operates judges ih =>
    exact ((Transducer.retryAsync_renders failing operates judges).via_resumable ih).guarded
  | throttle pause _ ih => exact ((Transducer.throttle_renders pause).via_resumable ih).guarded
  | interruptEvery _ built ih =>
    unfold Sequence.interruptEvery at built
    split at built <;> cases built
    exact ((Transducer.interruptEvery_timeless _).via_resumable ih).guarded
  | interruptPerSecond _ built ih =>
    unfold Sequence.interruptPerSecond at built
    split at built <;> cases built
    exact ((Transducer.interruptPerSecond_renders _ _).via_resumable ih).guarded
  | buffer _ built ih => exact buffer_resumable ih built
  | parallel _ yields built ih =>
    unfold Sequence.parallel at built
    split at built <;> cases built
    exact (Parallel.parallel_resumable ih yields _).guarded
  | toWaiting _ ih => exact ih
  | walked _ walked ih =>
    unfold tryWalk at walked
    split at walked <;> cases walked
    exact ih.guarded

/-- Pulls can be abandoned and resumed without an effect on what is received: two drainings of a
pipeline agree, and so do two sessions of pulls on a clock. Between two looks at its workers an
ordered parallel stage abandons a pull of its source, too; nevertheless, it makes of its source what
the source comes to by itself, with each element once and at its position, and as long as it goes on
what has come from the source is what it has taken. -/
theorem abandoned_pulls_resume {ω α : Type} {s : Sequence ω α} (assembled : s.Assembled) :
    (∀ {t t' as as'}, s.machine.Draining t as → s.machine.Draining t' as' → Agree as as') ∧
    (∀ {u u' as as'}, Setting.Session s.machine u as → Setting.Session s.machine u' as' →
      Agree as as') ∧
    ∀ {β : Type} {work : Worker ω α β} {result} (concurrency : Nat), work.Yields result →
      (∀ {p t as u xs fault}, s.parallel concurrency true work = .ok p → p.machine.Draining t as →
        s.machine.Draining u (xs.map .item ++ [.ending fault]) →
        as <+: (inOrder (resultsOf result xs fault)).map .ofResult ++ [.ended]) ∧
      ∀ {t as}, (s.machine.parallel concurrency true work).Draining t as →
        t.1.dispatcher.phase ≠ .stopped → t.1.dispatcher.exhausted = false →
        Parallel.Accounted s.machine t.1 := by
  have resumable := assembled_resumable assembled
  refine ⟨fun draining draining' => resumable.agree draining draining', ?_, ?_⟩
  · intro u u' as as' session session'
    exact resumable.agree session.draining session'.draining
  · intro β work result concurrency yields
    constructor
    · intro p t as u xs fault built draining alone
      unfold Sequence.parallel at built
      split at built <;> cases built
      exact Parallel.parallel_whole resumable yields draining.guarded.1 alone
    · intro t as draining going more
      exact Parallel.parallel_accounted resumable yields draining going more

/-- Batches of two, each added up by a worker. Whoever has little patience gives up first while a
step function is running and then while the worker is, and receives the sum with the third pull. One
session, pulled with patience, tells what comes of all that are not broken off. -/
theorem abandoned_pulls_resume_impatient :
    let slow : SlowStep Unit Nat Nat := fun a _ _ w =>
      ({ delay := 5, finish := fun _ w => (.ok (10 * a), w) }, w)
    let total : RiskyStep Unit (List Nat) Nat := fun as _ _ w =>
      (.started { delay := 5, finish := fun _ w => (.ok (.ok as.sum), w) }, w)
    ∃ batches stage, ((delayed [1, 2] 5).mapAsync slow).batch 2 8 = .ok batches ∧
      batches.parallelMap 2 true total = .ok stage ∧ stage.Assembled ∧
      let start := Setting.initially stage.machine.hub 0 ()
      let once := (start.pull 0 7).2
      let twice := (once.pull 0 15).2
      (start.pull 0 7).1 = .timedOut ∧ (once.pull 0 15).1 = .timedOut ∧
      (twice.pull 0 15).1 = .finished [.item 30] ∧
      (∃ u, Setting.Session stage.machine u [.item 30, .ended]) ∧
      ∀ {u as}, Setting.Session stage.machine u as → ¬ Unended as → as = [.item 30, .ended] := by
  intro slow total
  have tenfold : slow.Gives fun a _ => .ok (10 * a) := fun _ _ _ _ _ _ => rfl
  have sums : total.Settles fun as _ => .ok (.ok as.sum) := fun _ _ _ _ _ _ => rfl
  have cut : ((delayed [1, 2] 5).mapAsync slow).batch 2 8 = .ok _ := rfl
  have batches := Assembled.batch (.mapAsync (.delayed [1, 2] 5) tenfold) cut
  have yields := RiskyStep.worker_settles sums fun _ b => .value b
  have assembled := @Assembled.parallel _ _ _ _ _ 2 _ _ batches yields rfl
  refine ⟨_, _, cut, rfl, assembled, ?_⟩
  intro start once twice
  have first : (start.pull 0 100).1 = .finished [.item 30] := by decide +kernel
  have second : ((start.pull 0 100).2.pull 0 100).1 = .finished [.ended] := by decide +kernel
  have begun : Setting.Session _ start [] := .start 0 ()
  have item := begun.pull .nil 0 100
  rw [first] at item
  have ended := item.pull (by simp [Ending.results, Unended, Arrival.isLast]) 0 100
  rw [second] at ended
  refine ⟨by decide +kernel, by decide +kernel, by decide +kernel, ⟨_, ended⟩, ?_⟩
  intro u as session finished
  have agrees := (abandoned_pulls_resume assembled).2.1 session ended
  exact agrees.2 finished (by simp [Ending.results, Unended, Arrival.isLast])

end PullStream.Sequence
