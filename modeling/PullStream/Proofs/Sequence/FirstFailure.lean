import PullStream.Proofs.Fanout
import PullStream.Proofs.Machine.Exhaustion
import PullStream.Proofs.Stage.Via

/-!
Sequences end at their first failure.

A guarded machine stops by itself, whatever is behind it (`guarded_endsAtFailure`), and most stages
are guarded. Besides them there are sources that hand out elements only, the consumer of a feed,
which has a mark of its own, and the conversions, which take over what they are given. `Made` goes
through all ways in which a sequence can be made.

* `Machine.EndsAtFailure` — there is one failure at most, and nothing moves behind it.
* `made_endsAtFailure` — the sequences that can be made end so.
* `first_failure` — the same of the machine that an immediate sequence is walked by.
-/

namespace PullStream

namespace Machine

variable {ω α : Type} {m : Machine ω α}

/-- A failure is the only one. All later polls report the end at once, and leave the machine and the
world as they are: neither a source nor a step function has been asked. -/
def EndsAtFailure (m : Machine ω α) : Prop :=
  ∀ s answers, m.Reach s answers → ∀ e, .fail e ∈ answers →
    (∃ before n, (∀ e', .fail e' ∉ before) ∧
      answers = before ++ .fail e :: List.replicate n .done) ∧
    ∀ now w, m.poll s now w = (.done, s, w)

/-- No use of the machine meets with a failure. -/
def Unfailing (m : Machine ω α) : Prop :=
  ∀ s answers, m.Reach s answers → ∀ e, .fail e ∉ answers

theorem Unfailing.endsAtFailure (unfailing : m.Unfailing) : m.EndsAtFailure := by
  intro s answers reached e member
  exact absurd member (unfailing s answers reached e)

/-- What is kept and excludes failures. -/
theorem unfailing_of_kept (kept : m.State → Prop) (start : kept m.start)
    (polled : ∀ s now w, kept s →
      (∀ e, (m.poll s now w).1 ≠ .fail e) ∧ kept (m.poll s now w).2.1)
    (ticked : ∀ s now w, kept s → kept (m.tick s now w).2.1) : m.Unfailing := by
  intro s answers reached
  have both : kept s ∧ ∀ e, .fail e ∉ answers := by
    induction reached with
    | start => exact ⟨start, fun _ => List.not_mem_nil⟩
    | @poll s answers _ now w ih =>
      obtain ⟨unfailed, next⟩ := polled s now w ih.1
      refine ⟨next, ?_⟩
      intro e member
      rcases List.mem_append.mp member with old | new
      · exact ih.2 e old
      · exact unfailed e (List.mem_singleton.mp new).symm
    | tick _ now w ih => exact ⟨ticked _ now w ih.1, ih.2⟩
  exact both.2

/-- A machine that knows when it has failed, and then only reports the end. -/
theorem endsAtFailure_of_over (isOver : m.State → Prop)
    (fails : ∀ s now w e, (m.poll s now w).1 = .fail e → isOver (m.poll s now w).2.1)
    (stays : ∀ s now w, isOver s → m.poll s now w = (.done, s, w))
    (ticked : ∀ s now w, isOver s → isOver (m.tick s now w).2.1) : m.EndsAtFailure := by
  intro s answers reached
  -- By the uses so far: there has been no failure, or one, and ends ever since.
  have far : (∀ e, .fail e ∉ answers) ∨ isOver s ∧ ∃ before e n, (∀ e', .fail e' ∉ before) ∧
      answers = before ++ .fail e :: List.replicate n .done := by
    induction reached with
    | start => exact .inl fun _ => List.not_mem_nil
    | @poll s answers _ now w ih =>
      rcases ih with clean | ⟨failed, before, e, n, clean, rfl⟩
      · cases failed : (m.poll s now w).1.isFailure with
        | true =>
          obtain ⟨e, same⟩ := Answer.isFailure_iff.mp failed
          exact .inr ⟨fails s now w e same, answers, e, 0, clean, by rw [same]; rfl⟩
        | false =>
          refine .inl fun e member => ?_
          rcases List.mem_append.mp member with old | new
          · exact clean e old
          · rw [Answer.isFailure_iff.mpr ⟨e, (List.mem_singleton.mp new).symm⟩] at failed
            cases failed
      · rw [stays s now w failed]
        refine .inr ⟨failed, before, e, n + 1, clean, ?_⟩
        rw [List.append_assoc, List.cons_append, ← List.replicate_succ']
    | @tick s answers _ now w ih =>
      rcases ih with clean | ⟨failed, rest⟩
      · exact .inl clean
      · exact .inr ⟨ticked s now w failed, rest⟩
  intro e member
  rcases far with clean | ⟨failed, before, e', n, clean, rfl⟩
  · exact absurd member (clean e)
  · have same : e = e' := by
      rcases List.mem_append.mp member with early | late
      · exact absurd early (clean e)
      · simpa using late
    subst same
    exact ⟨⟨before, n, clean, rfl⟩, fun now w => stays s now w failed⟩

/-- Guarding makes every machine end so, however often what is behind it fails. -/
theorem guarded_endsAtFailure (m : Machine ω α) : m.guarded.EndsAtFailure := by
  refine @endsAtFailure_of_over _ _ m.guarded (fun s => s.2 = true) ?_ ?_ ?_
  · rintro ⟨s, _ | _⟩ now w e failed
    · rw [guarded_poll_going] at failed ⊢
      exact Answer.isFailure_iff.mpr ⟨e, failed⟩
    · rfl
  · rintro ⟨s, failed⟩ now w rfl
    exact guarded_poll_failed s now w
  · rintro ⟨s, failed⟩ now w rfl
    rfl

/-- The consumer of a feed marks itself as finished. -/
theorem ofFeed_endsAtFailure : (ofFeed (α := α)).EndsAtFailure := by
  refine @endsAtFailure_of_over _ _ ofFeed (fun f => f.finished = true) ?_ ?_ ?_
  · intro f now call e failed
    exact Feed.finished_of_poll_fail failed
  · intro f now call finished
    simp only [ofFeed, Feed.poll_of_finished finished]
  · intro f now call finished
    exact (produce_produced f call).finished.trans finished

/-! ### Sources without failures -/

theorem ofList_unfailing (items : List α) : (ofList (ω := ω) items).Unfailing := by
  refine @unfailing_of_kept _ _ (ofList (ω := ω) items)
    (fun s : List (Except Failure α) => ∀ r ∈ s, ∃ a, r = .ok a) ?_ ?_ fun _ _ _ kept => kept
  · intro r member
    obtain ⟨a, -, rfl⟩ := List.mem_map.mp member
    exact ⟨a, rfl⟩
  · rintro (_ | ⟨r, rest⟩) now w kept
    · exact ⟨fun _ => nofun, kept⟩
    · obtain ⟨a, rfl⟩ := kept r List.mem_cons_self
      exact ⟨fun _ => nofun, fun r member => kept r (List.mem_cons_of_mem _ member)⟩

theorem ofListAfter_unfailing (m : Machine ω α) (state : m.State) (items : List α) :
    (ofListAfter m state items).Unfailing := by
  refine @unfailing_of_kept _ _ (ofListAfter m state items) (fun _ => True) trivial ?_
    fun _ _ _ _ => trivial
  rintro ⟨_ | ⟨a, rest⟩, r⟩ now w -
  · exact ⟨fun _ => nofun, trivial⟩
  · exact ⟨fun _ => nofun, trivial⟩

theorem range_unfailing (first last : Int64) :
    (Sequence.range (ω := ω) first last).machine.Unfailing := by
  refine @unfailing_of_kept _ _ (Sequence.range (ω := ω) first last).machine (fun _ => True)
    trivial ?_ fun _ _ _ _ => trivial
  intro n now w _
  refine ⟨?_, trivial⟩
  intro e failed
  simp only [Sequence.range, immediate] at failed
  split at failed
  · cases failed
  · cases failed

/-- Elements that take a while to arrive are elements. -/
theorem arriving_unfailing (unfailing : m.Unfailing) (delay : Nat → Time) :
    (m.via (.arriving delay)).Unfailing := by
  intro s answers reached
  have far : (∃ asked, m.Reach s.1 asked) ∧ (∀ e, .fail e ∉ answers) ∧
      ∀ due e, s.2.pending ≠ some (due, .fail e) := by
    induction reached with
    | start => exact ⟨⟨[], .start⟩, fun _ => List.not_mem_nil, fun _ _ => nofun⟩
    | tick _ now w ih =>
      obtain ⟨⟨asked, below⟩, clean, waiting⟩ := ih
      exact ⟨⟨asked, below.tick now w⟩, clean, waiting⟩
    | @poll s answers _ now w ih =>
      obtain ⟨⟨asked, below⟩, clean, waiting⟩ := ih
      have next := below.poll now w
      have more : ∀ {a : Answer α}, (∀ e, a ≠ .fail e) → ∀ e, .fail e ∉ answers ++ [a] := by
        intro a other e member
        rcases List.mem_append.mp member with old | new
        · exact clean e old
        · exact other e (List.mem_singleton.mp new).symm
      have step := via_poll m (.arriving delay) s now w
      generalize (m.via (.arriving delay)).poll s now w = result at step
      cases step with
      | @before r own =>
        obtain ⟨⟨due, a⟩, pending, answer⟩ := Option.map_eq_some_iff.mp own
        have plain : ∀ e, a ≠ .fail e := by
          rintro e rfl
          exact waiting due e pending
        dsimp only at answer
        split at answer
        · subst answer
          exact ⟨⟨asked, below⟩, more fun _ => nofun, waiting⟩
        · subst answer
          exact ⟨⟨asked, below⟩, more plain, fun _ _ => nofun⟩
      | @item a p own answer =>
        rw [answer] at next
        exact ⟨⟨_, next⟩, more fun _ => nofun, fun _ _ => nofun⟩
      | @fail e p own answer =>
        rw [answer] at next
        exact absurd (List.mem_append_right _ (List.mem_singleton_self _)) (unfailing _ _ next e)
      | @done p own answer =>
        rw [answer] at next
        exact ⟨⟨_, next⟩, more fun _ => nofun, waiting⟩
      | @pass g p own answer notFail notDone =>
        rw [answer] at next
        refine ⟨⟨_, next⟩, more fun e same => ?_, waiting⟩
        exact notFail e (Answer.signal.inj same)
  exact far.2.1

end Machine

namespace Sequence

/-- The sequences that can be made. Sources may fail as often as they like, with elements behind
each failure; a source that is not guarded has none. Stages that stop by themselves stand on any
sequence at all, the conversions on one that has been made. -/
inductive Made : {ω α : Type} → Sequence ω α → Prop where
  -- sources
  | ofList {ω α : Type} (items : List α) : Made (ω := ω) (ofList items)
  | ofResults {ω α : Type} (items : List (Except Failure α)) : Made (ω := ω) (ofResults items)
  | unfailing {ω α : Type} (mode : Mode) {m : Machine ω α} : m.Unfailing → Made ⟨mode, m⟩
  | ofMachine {ω α : Type} (m : Machine ω α) : Made (ofMachine m)
  | ofWaiting {ω α : Type} (m : Machine ω α) : Made (ofWaiting m)
  | empty {ω α : Type} : Made (ω := ω) (α := α) empty
  | range {ω : Type} (first last : Int64) : Made (ω := ω) (range first last)
  | delayed {ω α : Type} (items : List α) (delay : Time) : Made (ω := ω) (delayed items delay)
  | consumed {α : Type} : Made ⟨.waiting, Machine.ofFeed (α := α)⟩
  | consumer {settings : Settings.Backoff} {m : Machine JobQueue.Workplace Job} :
      JobQueue.consumer settings = .ok m → Made (Sequence.ofWaiting m)
  | batchConsumer {size : Nat} {settings : Settings.Backoff}
      {m : Machine JobQueue.Workplace (List Job)} :
      JobQueue.batchConsumer size settings = .ok m → Made (Sequence.ofWaiting m)
  -- stages that keep the mode
  | map {ω α β : Type} (s : Sequence ω α) (f : Step ω α β) : Made (s.map f)
  | filter {ω α : Type} (s : Sequence ω α) (p : Step ω α Bool) : Made (s.filter p)
  | intercept {ω α : Type} (s : Sequence ω α) (f : Step ω α Unit) : Made (s.intercept f)
  | assert {ω α : Type} (s : Sequence ω α) (p : Step ω α Bool) : Made (s.assert p)
  | distinct {ω α κ : Type} [DecidableEq κ] (s : Sequence ω α) (key : α → κ) :
      Made (s.distinct key)
  | pairwise {ω α : Type} (s : Sequence ω α) : Made s.pairwise
  | skip {ω α : Type} (s : Sequence ω α) (count : Nat) : Made (s.skip count)
  | take {ω α : Type} (s : Sequence ω α) (count : Nat) : Made (s.take count)
  | takeWhile {ω α : Type} (s : Sequence ω α) (p : Step ω α Bool) : Made (s.takeWhile p)
  | flatMap {ω α β : Type} (s : Sequence ω α) (f : Step ω α (List β)) : Made (s.flatMap f)
  | defaultIfEmpty {ω α : Type} (s : Sequence ω α) (value : α) : Made (s.defaultIfEmpty value)
  | sort {ω α : Type} (s : Sequence ω α) (notAfter : α → α → Bool) : Made (s.sort notAfter)
  | retry {ω α β : Type} (s : Sequence ω α) (failing : Bool) (judge : Judge ω α)
      (f : Step ω α β) : Made (s.retry failing judge f)
  | batch {ω α : Type} {s : Sequence ω α} {t : Sequence ω (List α)} {size width : Nat} :
      s.batch size width = .ok t → Made t
  | append {ω α : Type} (s t : Sequence ω α) : Made (s.append t)
  -- stages that may wait
  | mapAsync {ω α β : Type} (s : Sequence ω α) (f : SlowStep ω α β) : Made (s.mapAsync f)
  | filterAsync {ω α : Type} (s : Sequence ω α) (p : SlowStep ω α Bool) : Made (s.filterAsync p)
  | interceptAsync {ω α : Type} (s : Sequence ω α) (f : SlowStep ω α Unit) :
      Made (s.interceptAsync f)
  | flatMapAsync {ω α β ι : Type} (s : Sequence ω α) (inner : ι → Sequence ω β)
      (f : SlowStep ω α ι) : Made (s.flatMapAsync inner f)
  | retryAsync {ω α β : Type} (s : Sequence ω α) (failing : Bool) (judge : SlowJudge ω α)
      (f : SlowStep ω α β) : Made (s.retryAsync failing judge f)
  | throttle {ω α : Type} (s : Sequence ω α) (pause : Pause ω) : Made (s.throttle pause)
  | interruptEvery {ω α : Type} {s t : Sequence ω α} {count : Nat} :
      s.interruptEvery count = .ok t → Made t
  | interruptPerSecond {ω α : Type} {s t : Sequence ω α} {times : Nat} {created : Time} :
      s.interruptPerSecond times created = .ok t → Made t
  | parallel {ω α β : Type} {s : Sequence ω α} {t : Sequence ω β} {concurrency : Nat}
      {keepOrder : Bool} {work : Worker ω α β} :
      s.parallel concurrency keepOrder work = .ok t → Made t
  -- outputs and conversions
  | buffer {ω α : Type} {s t : Sequence ω α} {size : Nat} : Made s → s.buffer size = .ok t → Made t
  | output {ω α : Type} (s : Sequence ω α) {count buffer : Nat} {hub : Hub ω α} (k : Nat) :
      s.multiplex count buffer = .ok hub → Made (Sequence.ofWaiting (hub.output k))
  | toWaiting {ω α : Type} {s : Sequence ω α} : Made s → Made s.toWaiting
  | walked {ω α : Type} {s : Sequence ω α} {m : Machine ω α} :
      Made s → s.tryWalk = .ok m → Made (Sequence.ofMachine m)
  | emptiedInto {ω α : Type} (s : Sequence ω α) (state : s.machine.State) (items : List α) :
      Made (s.emptiedInto state items)

theorem buffer_endsAtFailure {ω α : Type} {s t : Sequence ω α} {size : Nat}
    (ends : s.machine.EndsAtFailure) (built : s.buffer size = .ok t) :
    t.machine.EndsAtFailure := by
  unfold buffer at built
  split at built
  · cases built
  · split at built
    · cases built
      exact ends
    · cases built
      exact Machine.guarded_endsAtFailure _

theorem made_endsAtFailure {ω α : Type} {s : Sequence ω α} (made : s.Made) :
    s.machine.EndsAtFailure := by
  induction made with
  | ofList items => exact (Machine.ofList_unfailing items).endsAtFailure
  | unfailing mode unfailing => exact unfailing.endsAtFailure
  | empty => exact (Machine.ofList_unfailing _).endsAtFailure
  | range first last => exact (Machine.range_unfailing first last).endsAtFailure
  | delayed items delay =>
    exact (Machine.arriving_unfailing (Machine.ofList_unfailing items) _).endsAtFailure
  | consumed => exact Machine.ofFeed_endsAtFailure
  | emptiedInto s state items => exact (Machine.ofListAfter_unfailing _ _ _).endsAtFailure
  | buffer _ built ih => exact buffer_endsAtFailure ih built
  | toWaiting _ ih => exact ih
  | batch built =>
    unfold Sequence.batch at built
    split at built <;> cases built
    exact Machine.guarded_endsAtFailure _
  | interruptEvery built =>
    unfold Sequence.interruptEvery at built
    split at built <;> cases built
    exact Machine.guarded_endsAtFailure _
  | interruptPerSecond built =>
    unfold Sequence.interruptPerSecond at built
    split at built <;> cases built
    exact Machine.guarded_endsAtFailure _
  | parallel built =>
    unfold Sequence.parallel at built
    split at built <;> cases built
    exact Machine.guarded_endsAtFailure _
  | _ => exact Machine.guarded_endsAtFailure _

/-- A sequence that can be made ends at its first failure, and so does the machine by which an
immediate one is walked: there is one failure at most, and every later poll reports the end without
anything behind the sequence being asked. -/
theorem first_failure {ω α : Type} {s : Sequence ω α} (made : s.Made) :
    s.machine.EndsAtFailure ∧ ∀ m, s.tryWalk = .ok m → m.EndsAtFailure := by
  have ends := made_endsAtFailure made
  refine ⟨ends, ?_⟩
  intro m walked
  unfold tryWalk at walked
  split at walked
  · cases walked
    exact ends
  · cases walked

/-- A source that fails twice, with elements in between, behind a stage and as a sequence that may
wait: its second element and its second failure are never met. -/
theorem first_failure_twice :
    let s := ((ofResults (ω := Unit) [.ok 1, .error .zeroBatch, .ok 2, .error .zeroBuffer]).map
      (Step.pure fun a _ => .ok (a + 1))).toWaiting
    (s.machine.EndsAtFailure ∧ ∀ m, s.tryWalk = .ok m → m.EndsAtFailure) ∧
      ∃ t, s.machine.Reach t [.item 2, .fail .zeroBatch, .done, .done] := by
  intro s
  have element : s.machine.Reach _ [.item 2] := .poll .start 0 ()
  have failed : s.machine.Reach _ [.item 2, .fail .zeroBatch] := element.poll 0 ()
  have ended : s.machine.Reach _ [.item 2, .fail .zeroBatch, .done, .done] :=
    (failed.poll 0 ()).poll 0 ()
  exact ⟨first_failure (.toWaiting (.map _ _)), _, ended⟩

end Sequence
end PullStream
