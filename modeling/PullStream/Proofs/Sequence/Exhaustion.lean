import PullStream.Proofs.Fanout
import PullStream.Proofs.Machine.Exhaustion
import PullStream.Proofs.ReadAhead
import PullStream.Proofs.Stage.Settling

/-!
Which sequences stay at their end.

`Lasting` goes through sources and stages one by one, with what each needs of the
sequence it stands on. `Fragile` does the same for the stages that must not be polled after
their end, and for what rests on them. The taking of an immediate sequence while something
holds is neither: it goes on behind the element that ended it.

* `lasting_permanent` — lasting sequences report their end for ever.
* `fragile_brittle` — fragile sequences break behind their end.
* `takeWhile_answers` — what an immediate sequence answers that is taken while
  something holds.
* `exhaustion` — where the end is permanent, and what becomes of it elsewhere.
-/

namespace PullStream.Sequence

/-- Sequences whose end is permanent by the way they are made. -/
inductive Lasting : {ω α : Type} → Sequence ω α → Prop where
  -- sources
  | ofList {ω α : Type} (items : List α) : Lasting (ω := ω) (ofList items)
  | ofResults {ω α : Type} (items : List (Except Failure α)) : Lasting (ω := ω) (ofResults items)
  | ofMachine {ω α : Type} {m : Machine ω α} : m.Permanent → Lasting (ofMachine m)
  | ofWaiting {ω α : Type} {m : Machine ω α} : m.Permanent → Lasting (ofWaiting m)
  | empty {ω α : Type} : Lasting (ω := ω) (α := α) empty
  | range {ω : Type} (first last : Int64) : Lasting (ω := ω) (range first last)
  | delayed {ω α : Type} (items : List α) (delay : Time) : Lasting (ω := ω) (delayed items delay)
  | consumed {α : Type} : Lasting (Sequence.ofWaiting (Machine.ofFeed (α := α)))
  | output {ω α : Type} (s : Sequence ω α) {count buffer : Nat} {hub : Hub ω α} (k : Nat) :
      s.multiplex count buffer = .ok hub → Lasting (Sequence.ofWaiting (hub.output k))
  -- stages that rest behind their input
  | map {ω α β : Type} {s : Sequence ω α} (f : Step ω α β) : Lasting s → Lasting (s.map f)
  | filter {ω α : Type} {s : Sequence ω α} (p : Step ω α Bool) : Lasting s → Lasting (s.filter p)
  | intercept {ω α : Type} {s : Sequence ω α} (f : Step ω α Unit) :
      Lasting s → Lasting (s.intercept f)
  | assert {ω α : Type} {s : Sequence ω α} (p : Step ω α Bool) : Lasting s → Lasting (s.assert p)
  | distinct {ω α κ : Type} [DecidableEq κ] {s : Sequence ω α} (key : α → κ) :
      Lasting s → Lasting (s.distinct key)
  | pairwise {ω α : Type} {s : Sequence ω α} : Lasting s → Lasting s.pairwise
  | skip {ω α : Type} {s : Sequence ω α} (count : Nat) : Lasting s → Lasting (s.skip count)
  | retry {ω α β : Type} {s : Sequence ω α} (failing : Bool) (judge : Judge ω α)
      (f : Step ω α β) : Lasting s → Lasting (s.retry failing judge f)
  | mapAsync {ω α β : Type} {s : Sequence ω α} (f : SlowStep ω α β) :
      Lasting s → Lasting (s.mapAsync f)
  | filterAsync {ω α : Type} {s : Sequence ω α} (p : SlowStep ω α Bool) :
      Lasting s → Lasting (s.filterAsync p)
  | interceptAsync {ω α : Type} {s : Sequence ω α} (f : SlowStep ω α Unit) :
      Lasting s → Lasting (s.interceptAsync f)
  | flatMapAsync {ω α β ι : Type} {s : Sequence ω α} (inner : ι → Sequence ω β)
      (f : SlowStep ω α ι) : Lasting s → Lasting (s.flatMapAsync inner f)
  | append {ω α : Type} (s : Sequence ω α) {t : Sequence ω α} : Lasting t → Lasting (s.append t)
  | toWaiting {ω α : Type} {s : Sequence ω α} : Lasting s → Lasting s.toWaiting
  | walked {ω α : Type} {s : Sequence ω α} {m : Machine ω α} :
      Lasting s → s.tryWalk = .ok m → Lasting (Sequence.ofMachine m)
  -- stages that rest in one mode and shut in the other
  | take {ω α : Type} {s : Sequence ω α} (count : Nat) : Lasting s → Lasting (s.take count)
  | takeWaiting {ω α : Type} {s : Sequence ω α} (count : Nat) :
      s.mode = .waiting → Lasting (s.take count)
  | flatMap {ω α β : Type} {s : Sequence ω α} (f : Step ω α (List β)) :
      Lasting s → Lasting (s.flatMap f)
  | flatMapImmediate {ω α β : Type} {s : Sequence ω α} (f : Step ω α (List β)) :
      s.mode = .immediate → Lasting (s.flatMap f)
  | takeWhile {ω α : Type} {s : Sequence ω α} (p : Step ω α Bool) :
      s.mode = .waiting → Lasting s → Lasting (s.takeWhile p)
  | buffer {ω α : Type} {s t : Sequence ω α} {size : Nat} :
      Lasting s → s.buffer size = .ok t → Lasting t
  | bufferWaiting {ω α : Type} {s t : Sequence ω α} {size : Nat} :
      s.mode = .waiting → s.buffer size = .ok t → Lasting t
  -- stages that shut behind any input
  | defaultIfEmpty {ω α : Type} (s : Sequence ω α) (value : α) : Lasting (s.defaultIfEmpty value)
  | sort {ω α : Type} (s : Sequence ω α) (notAfter : α → α → Bool) : Lasting (s.sort notAfter)
  | batch {ω α : Type} {s : Sequence ω α} {t : Sequence ω (List α)} {size width : Nat} :
      s.batch size width = .ok t → Lasting t
  | parallel {ω α β : Type} {s : Sequence ω α} {t : Sequence ω β} {concurrency : Nat}
      {keepOrder : Bool} {work : Worker ω α β} :
      s.parallel concurrency keepOrder work = .ok t → Lasting t
  | emptiedInto {ω α : Type} (s : Sequence ω α) (state : s.machine.State) (items : List α) :
      Lasting (s.emptiedInto state items)

/-- Sequences that break when they are asked again behind their end: the pacing stages, the
waiting form of retrying, the consumers of job queues, and stages that rest on such. -/
inductive Fragile : {ω α : Type} → Sequence ω α → Prop where
  -- stages and sources that break
  | throttle {ω α : Type} (s : Sequence ω α) (pause : Pause ω) : Fragile (s.throttle pause)
  | interruptEvery {ω α : Type} {s t : Sequence ω α} {count : Nat} :
      s.interruptEvery count = .ok t → Fragile t
  | interruptPerSecond {ω α : Type} {s t : Sequence ω α} {times : Nat} {created : Time} :
      s.interruptPerSecond times created = .ok t → Fragile t
  | retryAsync {ω α β : Type} (s : Sequence ω α) (failing : Bool) (judge : SlowJudge ω α)
      (f : SlowStep ω α β) : Fragile (s.retryAsync failing judge f)
  | consumer {settings : Settings.Backoff} {m : Machine JobQueue.Workplace Job} :
      JobQueue.consumer settings = .ok m → Fragile (Sequence.ofWaiting m)
  | batchConsumer {size : Nat} {settings : Settings.Backoff}
      {m : Machine JobQueue.Workplace (List Job)} :
      JobQueue.batchConsumer size settings = .ok m → Fragile (Sequence.ofWaiting m)
  -- stages that rest behind their input
  | map {ω α β : Type} {s : Sequence ω α} (f : Step ω α β) : Fragile s → Fragile (s.map f)
  | filter {ω α : Type} {s : Sequence ω α} (p : Step ω α Bool) : Fragile s → Fragile (s.filter p)
  | intercept {ω α : Type} {s : Sequence ω α} (f : Step ω α Unit) :
      Fragile s → Fragile (s.intercept f)
  | assert {ω α : Type} {s : Sequence ω α} (p : Step ω α Bool) : Fragile s → Fragile (s.assert p)
  | distinct {ω α κ : Type} [DecidableEq κ] {s : Sequence ω α} (key : α → κ) :
      Fragile s → Fragile (s.distinct key)
  | pairwise {ω α : Type} {s : Sequence ω α} : Fragile s → Fragile s.pairwise
  | skip {ω α : Type} {s : Sequence ω α} (count : Nat) : Fragile s → Fragile (s.skip count)
  | retry {ω α β : Type} {s : Sequence ω α} (failing : Bool) (judge : Judge ω α)
      (f : Step ω α β) : Fragile s → Fragile (s.retry failing judge f)
  | mapAsync {ω α β : Type} {s : Sequence ω α} (f : SlowStep ω α β) :
      Fragile s → Fragile (s.mapAsync f)
  | filterAsync {ω α : Type} {s : Sequence ω α} (p : SlowStep ω α Bool) :
      Fragile s → Fragile (s.filterAsync p)
  | interceptAsync {ω α : Type} {s : Sequence ω α} (f : SlowStep ω α Unit) :
      Fragile s → Fragile (s.interceptAsync f)
  | flatMap {ω α β : Type} {s : Sequence ω α} (f : Step ω α (List β)) :
      s.mode = .waiting → Fragile s → Fragile (s.flatMap f)
  | flatMapAsync {ω α β ι : Type} {s : Sequence ω α} (inner : ι → Sequence ω β)
      (f : SlowStep ω α ι) : Fragile s → Fragile (s.flatMapAsync inner f)
  | append {ω α : Type} (s : Sequence ω α) {t : Sequence ω α} : Fragile t → Fragile (s.append t)
  | toWaiting {ω α : Type} {s : Sequence ω α} : Fragile s → Fragile s.toWaiting

/-! ### Lasting ends -/

theorem buffer_permanent {ω α : Type} {s t : Sequence ω α} {size : Nat}
    (either : s.mode = .waiting ∨ s.machine.Permanent) (built : s.buffer size = .ok t) :
    t.machine.Permanent := by
  unfold buffer at built
  split at built
  · cases built
  · split at built
    · rename_i immediate
      cases built
      exact either.resolve_left (by simp [immediate])
    · cases built
      exact Machine.guarded_permanent (s.machine.readAhead_permanent size)

theorem lasting_permanent {ω α : Type} {s : Sequence ω α} (lasting : s.Lasting) :
    s.machine.Permanent := by
  induction lasting with
  | ofList items => exact Machine.ofResults_permanent _
  | ofResults items => exact Machine.guarded_permanent (Machine.ofResults_permanent _)
  | ofMachine permanent => exact Machine.guarded_permanent permanent
  | ofWaiting permanent => exact Machine.guarded_permanent permanent
  | empty => exact Machine.ofResults_permanent _
  | range first last => exact Machine.range_permanent first last
  | delayed items delay =>
    exact Machine.via_permanent (Transducer.arriving_settles _)
      (.inl (Machine.ofResults_permanent _))
  | consumed => exact Machine.guarded_permanent Machine.ofFeed_permanent
  | output s k built =>
    unfold multiplex at built
    split at built
    · cases built
    · cases built
      exact Machine.guarded_permanent (s.machine.fanout_output_permanent _ _ k)
  | map f _ ih =>
    exact Machine.guarded_permanent (Machine.via_permanent (Transducer.map_settles f) (.inl ih))
  | filter p _ ih =>
    exact Machine.guarded_permanent (Machine.via_permanent (Transducer.filter_settles p) (.inl ih))
  | intercept f _ ih =>
    exact Machine.guarded_permanent (Machine.via_permanent (Transducer.map_settles _) (.inl ih))
  | assert p _ ih =>
    exact Machine.guarded_permanent (Machine.via_permanent (Transducer.map_settles _) (.inl ih))
  | distinct key _ ih =>
    exact Machine.guarded_permanent
      (Machine.via_permanent (Transducer.distinct_settles key) (.inl ih))
  | pairwise _ ih =>
    exact Machine.guarded_permanent (Machine.via_permanent Transducer.pairwise_settles (.inl ih))
  | skip count _ ih =>
    exact Machine.guarded_permanent
      (Machine.via_permanent (Transducer.skipFirst_settles count) (.inl ih))
  | retry failing judge f _ ih =>
    exact Machine.guarded_permanent
      (Machine.via_permanent (Transducer.retry_settles failing judge f) (.inl ih))
  | mapAsync f _ ih =>
    exact Machine.guarded_permanent (Machine.via_permanent
      (Transducer.deferring_settles (Transducer.mapAsync_proper f)) (.inl ih))
  | filterAsync p _ ih =>
    exact Machine.guarded_permanent (Machine.via_permanent
      (Transducer.deferring_settles (Transducer.filterAsync_proper p)) (.inl ih))
  | interceptAsync f _ ih =>
    exact Machine.guarded_permanent (Machine.via_permanent
      (Transducer.deferring_settles (Transducer.mapAsync_proper _)) (.inl ih))
  | flatMapAsync inner f _ ih =>
    exact Machine.guarded_permanent (Machine.flatMapAsync_permanent _ f ih)
  | append s _ ih => exact Machine.guarded_permanent (Machine.append_permanent _ ih)
  | toWaiting _ ih => exact ih
  | walked _ built ih =>
    unfold tryWalk at built
    split at built <;> cases built
    exact Machine.guarded_permanent ih
  | take count _ ih =>
    exact Machine.guarded_permanent
      (Machine.via_permanent (Transducer.takeFirst_settles _ count) (.inl ih))
  | takeWaiting count waiting =>
    refine Machine.guarded_permanent
      (Machine.via_permanent (Transducer.takeFirst_settles _ count) (.inr fun _ rest => ?_))
    have plain : (_ == Mode.waiting) = false := rest
    simp [waiting] at plain
  | flatMap f _ ih =>
    exact Machine.guarded_permanent
      (Machine.via_permanent (Transducer.flatMap_settles _ f) (.inl ih))
  | flatMapImmediate f immediate =>
    refine Machine.guarded_permanent
      (Machine.via_permanent (Transducer.flatMap_settles _ f) (.inr fun _ rest => ?_))
    have plain : (_ == Mode.immediate) = false := rest.2
    simp [immediate] at plain
  | takeWhile p waiting _ ih =>
    refine Machine.guarded_permanent ?_
    simp only [waiting, beq_self_eq_true]
    exact Machine.via_permanent (Transducer.takeWhile_settles p) (.inl ih)
  | buffer _ built ih => exact buffer_permanent (.inr ih) built
  | bufferWaiting waiting built => exact buffer_permanent (.inl waiting) built
  | defaultIfEmpty s value =>
    exact Machine.guarded_permanent
      (Machine.via_permanent (Transducer.defaultIfEmpty_settles value) (.inr fun _ => id))
  | sort s notAfter =>
    exact Machine.guarded_permanent
      (Machine.via_permanent (Transducer.sort_settles notAfter) (.inr fun _ => id))
  | batch built =>
    unfold batch at built
    split at built <;> cases built
    exact Machine.guarded_permanent
      (Machine.via_permanent (Transducer.batch_settles _ _) (.inr fun _ => id))
  | parallel built =>
    unfold parallel at built
    split at built <;> cases built
    exact Machine.guarded_permanent (Machine.parallel_permanent _ _ _ _)
  | emptiedInto s state items => exact Machine.ofListAfter_permanent _ _ _

/-! ### Ends that break -/

theorem consumer_brittle {settings : Settings.Backoff} {m : Machine JobQueue.Workplace Job}
    (built : JobQueue.consumer settings = .ok m) : m.Brittle := by
  unfold JobQueue.consumer at built
  cases created : Polling.Generator.create settings with
  | error e => simp [created, Except.map] at built
  | ok g =>
    simp only [created, Except.map, Except.ok.injEq] at built
    subst built
    exact Machine.consumerWith_brittle g _

theorem batchConsumer_brittle {size : Nat} {settings : Settings.Backoff}
    {m : Machine JobQueue.Workplace (List Job)}
    (built : JobQueue.batchConsumer size settings = .ok m) : m.Brittle := by
  unfold JobQueue.batchConsumer at built
  split at built
  · cases built
  · cases created : Polling.Generator.create settings with
    | error e => simp [created, Except.map] at built
    | ok g =>
      simp only [created, Except.map, Except.ok.injEq] at built
      subst built
      exact Machine.consumerWith_brittle g _

theorem fragile_brittle {ω α : Type} {s : Sequence ω α} (fragile : s.Fragile) :
    s.machine.Brittle := by
  induction fragile with
  | throttle s pause =>
    exact Machine.guarded_brittle (Machine.via_brittle (Transducer.throttle_breaks pause))
  | interruptEvery built =>
    unfold interruptEvery at built
    split at built <;> cases built
    exact Machine.guarded_brittle (Machine.via_brittle (Transducer.interruptEvery_breaks _))
  | interruptPerSecond built =>
    unfold interruptPerSecond at built
    split at built <;> cases built
    exact Machine.guarded_brittle (Machine.via_brittle (Transducer.interruptPerSecond_breaks _ _))
  | retryAsync s failing judge f =>
    exact Machine.guarded_brittle
      (Machine.via_brittle (Transducer.retryAsync_breaks failing judge f))
  | consumer built => exact Machine.guarded_brittle (consumer_brittle built)
  | batchConsumer built => exact Machine.guarded_brittle (batchConsumer_brittle built)
  | map f _ ih => exact Machine.guarded_brittle (Machine.via_relayed (Transducer.map_relays f) ih)
  | filter p _ ih =>
    exact Machine.guarded_brittle (Machine.via_relayed (Transducer.filter_relays p) ih)
  | intercept f _ ih =>
    exact Machine.guarded_brittle (Machine.via_relayed (Transducer.map_relays _) ih)
  | assert p _ ih =>
    exact Machine.guarded_brittle (Machine.via_relayed (Transducer.map_relays _) ih)
  | distinct key _ ih =>
    exact Machine.guarded_brittle (Machine.via_relayed (Transducer.distinct_relays key) ih)
  | pairwise _ ih =>
    exact Machine.guarded_brittle (Machine.via_relayed Transducer.pairwise_relays ih)
  | skip count _ ih =>
    exact Machine.guarded_brittle (Machine.via_relayed (Transducer.skipFirst_relays count) ih)
  | retry failing judge f _ ih =>
    exact Machine.guarded_brittle
      (Machine.via_relayed (Transducer.retry_relays failing judge f) ih)
  | mapAsync f _ ih =>
    exact Machine.guarded_brittle (Machine.via_relayed
      (Transducer.deferring_relays (Transducer.mapAsync_proper f)) ih)
  | filterAsync p _ ih =>
    exact Machine.guarded_brittle (Machine.via_relayed
      (Transducer.deferring_relays (Transducer.filterAsync_proper p)) ih)
  | interceptAsync f _ ih =>
    exact Machine.guarded_brittle (Machine.via_relayed
      (Transducer.deferring_relays (Transducer.mapAsync_proper _)) ih)
  | flatMap f waiting _ ih =>
    refine Machine.guarded_brittle ?_
    simp only [waiting]
    exact Machine.via_relayed (Transducer.flatMap_relays f) ih
  | flatMapAsync inner f _ ih =>
    exact Machine.guarded_brittle (Machine.flatMapAsync_brittle _ f ih)
  | append s _ ih => exact Machine.guarded_brittle (Machine.append_brittle _ ih)
  | toWaiting _ ih => exact ih

/-! ### Ends that are passed -/

/-- What taking while something holds makes of the answers of its input, `i` elements in: each
element is handed out, is an end or fails; everything else is passed on. -/
def judged {α : Type} (p : α → Nat → Except Failure Bool) :
    Nat → List (Answer α) → List (Answer α)
  | _, [] => []
  | i, .item a :: rest => Transducer.taken a (p a i) :: judged p (i + 1) rest
  | i, .signal g :: rest => .signal g :: judged p i rest

/-- How many elements are among answers. -/
def elements {α : Type} (answers : List (Answer α)) : Nat :=
  (itemsOf (outputs answers)).length

theorem elements_snoc_item {α : Type} (answers : List (Answer α)) (a : α) :
    elements (answers ++ [.item a]) = elements answers + 1 := by
  rw [elements, outputs_append, itemsOf_append, List.length_append]
  rfl

theorem elements_snoc_signal {α : Type} (answers : List (Answer α)) (g : Signal) :
    elements (answers ++ [.signal g]) = elements answers := by
  rw [elements, outputs_append, itemsOf_append, List.length_append]
  cases g <;> rfl

theorem judged_append {α : Type} (p : α → Nat → Except Failure Bool)
    (answers more : List (Answer α)) (i : Nat) :
    judged p i (answers ++ more) = judged p i answers ++ judged p (i + elements answers) more := by
  induction answers generalizing i with
  | nil => rfl
  | cons b answers ih =>
    cases b with
    | item a =>
      have count : i + elements (.item a :: answers) = i + 1 + elements answers := by
        have one : elements (.item a :: answers) = elements answers + 1 := rfl
        omega
      rw [count]
      exact congrArg (Transducer.taken a (p a i) :: ·) (ih (i + 1))
    | signal g =>
      have count : elements (.signal g :: answers) = elements answers := by
        cases g <;> rfl
      rw [count]
      exact congrArg (.signal g :: ·) (ih i)

/-- The plain form of taking while something holds judges each answer of its input by itself. -/
theorem takeWhile_judges {ω α : Type} {m : Machine ω α} {f : Step ω α Bool}
    {p : α → Nat → Except Failure Bool} (gives : f.Gives p)
    {s : (m.via (.takeWhile false f)).State} {answers : List (Answer α)}
    (reached : (m.via (.takeWhile false f)).Reach s answers) :
    ∃ asked, m.Reach s.1 asked ∧ answers = judged p 0 asked ∧
      s.2 = ({ index := elements asked, ended := false } : Transducer.Taking) := by
  induction reached with
  | start => exact ⟨[], .start, rfl, rfl⟩
  | @tick s answers _ now w ih =>
    obtain ⟨asked, reached, same, memory⟩ := ih
    exact ⟨asked, reached.tick now w, same, memory⟩
  | @poll s answers _ now w ih =>
    obtain ⟨asked, reached, rfl, memory⟩ := ih
    obtain ⟨r, index, ended⟩ := s
    cases memory
    have next := reached.poll now w
    have step := Machine.via_poll m (.takeWhile false f) (r, ⟨elements asked, false⟩) now w
    generalize (m.via (.takeWhile false f)).poll (r, ⟨elements asked, false⟩) now w = result at step
    cases step with
    | before own => cases own
    | @item a q own answer =>
      have answer : m.poll r now w = (.item a, q) := answer
      rw [answer] at next
      refine ⟨_, next, ?_, ?_⟩
      · rw [judged_append, Nat.zero_add]
        exact congrArg (fun x => _ ++ [Transducer.taken a x]) (gives _ _ _ _)
      · rw [elements_snoc_item]
        rfl
    | @fail e q own answer =>
      have answer : m.poll r now w = (.fail e, q) := answer
      rw [answer] at next
      refine ⟨_, next, ?_, ?_⟩
      · rw [judged_append]
        rfl
      · rw [elements_snoc_signal]
        rfl
    | @done q own answer =>
      have answer : m.poll r now w = (.done, q) := answer
      rw [answer] at next
      refine ⟨_, next, ?_, ?_⟩
      · rw [judged_append]
        rfl
      · rw [elements_snoc_signal]
        rfl
    | @pass g q own answer notFail notDone =>
      have answer : m.poll r now w = (.signal g, q) := answer
      rw [answer] at next
      refine ⟨_, next, ?_, ?_⟩
      · rw [judged_append]
        rfl
      · rw [elements_snoc_signal]

/-- An immediate sequence that is taken while something holds judges each answer by itself, up
to the first failure: behind an element that has ended it, it goes on with the next that is
accepted. -/
theorem takeWhile_answers {ω α : Type} {s : Sequence ω α} (immediate : s.mode = .immediate)
    {f : Step ω α Bool} {p : α → Nat → Except Failure Bool} (gives : f.Gives p)
    {t : (s.takeWhile f).machine.State} {answers : List (Answer α)}
    (reached : (s.takeWhile f).machine.Reach t answers) :
    ∃ r asked n, s.machine.Reach r asked ∧
      answers = judged p 0 asked ++ List.replicate n .done ∧
      (n = 0 ∨ ∃ e, .fail e ∈ judged p 0 asked) := by
  obtain ⟨mode, m⟩ := s
  cases immediate
  cases Machine.Reach.guarded reached with
  | going below _ =>
    obtain ⟨asked, reached, same, -⟩ := takeWhile_judges gives below
    exact ⟨_, asked, 0, reached, by simpa using same, .inl rfl⟩
  | @failed s taken e n below _ =>
    obtain ⟨asked, reached, same, -⟩ := takeWhile_judges gives below
    refine ⟨_, asked, n, reached, by rw [same], .inr ⟨e, ?_⟩⟩
    rw [← same]
    exact List.mem_append_right _ (List.mem_singleton.mpr rfl)

example : judged (fun a _ => .ok (decide (a < 5))) 0 [.item 1, .item 9, .item 2, .done] =
    [.item 1, .done, .item 2, .done] :=
  rfl

/-! ### Exhaustion -/

/-- Where the end of a sequence is permanent, and what becomes of it elsewhere: fragile
sequences break when they are asked again, and an immediate sequence that is taken while
something holds is asked on, element by element, behind its end. -/
theorem exhaustion {ω α : Type} :
    (∀ s : Sequence ω α, s.Lasting → s.machine.Permanent) ∧
    (∀ s : Sequence ω α, s.Fragile → s.machine.Brittle) ∧
    (∀ (s : Sequence ω α) (f : Step ω α Bool) p, s.mode = .immediate → f.Gives p →
      ∀ t answers, (s.takeWhile f).machine.Reach t answers →
      ∃ r asked n, s.machine.Reach r asked ∧
        answers = judged p 0 asked ++ List.replicate n .done ∧
        (n = 0 ∨ ∃ e, .fail e ∈ judged p 0 asked)) := by
  refine ⟨?_, ?_, ?_⟩
  · intro s lasting
    exact lasting_permanent lasting
  · intro s fragile
    exact fragile_brittle fragile
  · intro s f p immediate gives t answers reached
    exact takeWhile_answers immediate gives reached

end PullStream.Sequence
