import PullStream.Proofs.Feed.Counter
import PullStream.Proofs.Parallel.Ordered

/-!
The course of a dispatcher, in either order.

A course is a dispatcher at work, with its books, under every schedule: which worker ends
next, whether the source is asked before, what the source says, when the consumer asks and
when it goes are all left open. Nobody waits for anybody: between two looks of the dispatcher
at its feed the consumer may come, also at the head of the loop (the waiter is made first,
then the consumer is looked for, then the backlog is) and between two results of one release.
What may come from outside is a parameter, so that a course may be one over a given list or
one over anything at all.

* `Course.Works`, `Course.Meets`, `Course.Step` — what may happen.
* `Course.Step.within` — what may happen in wider surroundings.
* `Course.Reaches.surveyed`, `Course.Reaches.gotten` — with nobody in between, the steps of
  a call are the dispatcher's own function.
-/

namespace PullStream.Dispatcher

variable {τ α β : Type}

/-! ### What comes from outside -/

/-- What may come from outside, by position. -/
structure Surroundings (β : Type) where
  /-- The source may have an element here. -/
  element : Nat → Prop
  /-- The source may fail here. -/
  failure : Nat → Failure → Prop
  /-- The source may end here. -/
  finish : Nat → Prop
  /-- The source may break down. -/
  breaks : Prop
  /-- The worker of the element here may come to this result. -/
  result : Nat → Except Failure (Option β) → Prop

/-- A source with the elements `xs` and `fault` behind them, and workers with the results of
their elements. It does not break down, or nothing is said about it. -/
def Surroundings.of (result : α → Nat → Except Failure (Option β)) (xs : List α)
    (fault : Option Failure) (breaks : Prop) : Surroundings β where
  element n := n < xs.length
  failure n e := n = xs.length ∧ fault = some e
  finish n := n = xs.length ∧ fault = none
  breaks := breaks
  result n r := ∃ a, xs[n]? = some a ∧ result a n = r

/-- Any source and any workers. -/
def Surroundings.any : Surroundings β where
  element _ := True
  failure _ _ := True
  finish _ := True
  breaks := True
  result _ _ := True

/-- What may come from these surroundings may come from others. -/
structure Surroundings.Within (near far : Surroundings β) : Prop where
  element : ∀ {n}, near.element n → far.element n
  failure : ∀ {n e}, near.failure n e → far.failure n e
  finish : ∀ {n}, near.finish n → far.finish n
  breaks : near.breaks → far.breaks
  result : ∀ {n r}, near.result n r → far.result n r

/-- What ends a round, with the position it is about. -/
inductive Event (β : Type) where
  /-- A worker has ended. -/
  | joined (index : Nat) (outcome : Outcome β)
  /-- The source had an element, and its worker has been started. -/
  | started (index : Nat)
  /-- The source had an element, and its worker panicked while it was started. -/
  | panicked (index : Nat) (payload : Payload)
  /-- The source has failed. -/
  | failed (index : Nat) (failure : Failure)
  /-- The source has ended. -/
  | ended
  /-- An item has been read, or the consumer has gone. -/
  | read

/-- The result that an event brings, with its position. -/
def Event.result? : Event β → Option (Nat × Except Failure (Option β))
  | .joined index outcome => some (index, outcome.result index)
  | .panicked index payload => some (index, (Outcome.panicked payload).result index)
  | .failed index e => some (index, .error e)
  | _ => none

/-- The position of the element that an event hands to a worker. -/
def Event.handed? : Event β → Option Nat
  | .started index | .panicked index _ => some index
  | _ => none

/-- Whether an event takes the next position. -/
def Event.takes : Event β → Bool
  | .started _ | .panicked _ _ | .failed _ _ => true
  | _ => false

/-- Where a dispatcher stands within a call. -/
inductive Stage where
  /-- Between two calls. -/
  | resting
  /-- At the head of the loop, with its waiter made. -/
  | registered (read : Feed.Waiter)
  /-- At the head of the loop, having seen that the consumer is there. -/
  | attended (read : Feed.Waiter)
  /-- In the middle of a release. -/
  | releasing

/-- A dispatcher at work, with its books. -/
structure Course (τ β : Type) where
  dispatcher : Dispatcher τ β
  stage : Stage := .resting
  /-- How often the head of the loop has been passed. -/
  rounds : Nat := 0
  events : List (Event β) := []
  answers : List (Answer β) := []

namespace Course

/-- The results that the dispatcher has got, in the order in which it got them, with their
positions. -/
def observed (s : Course τ β) : List (Nat × Except Failure (Option β)) :=
  s.events.filterMap Event.result?

/-- How many positions have been taken; a failure of the source takes one. -/
def taken (s : Course τ β) : Nat :=
  s.events.countP Event.takes

/-! ### Steps -/

/-- The dispatcher, moved on to `d`, has got a result by an event. In order it is parked, to
be released; else it goes into the feed at once. -/
def got (s : Course τ β) (d : Dispatcher τ β) (index : Nat) (r : Except Failure (Option β))
    (event : Event β) : Course τ β :=
  if d.keepOrder then
    { s with dispatcher := d.park index r, stage := .releasing, events := s.events ++ [event] }
  else { s with dispatcher := d.complete index r, events := s.events ++ [event] }

/-- What a dispatcher does by itself. -/
inductive Works (s : Course τ β) : Course τ β → Prop where
  /-- At the head of the loop it makes a waiter first. -/
  | register : s.stage = .resting → s.dispatcher.phase = .surveying →
      Works s { s with
        stage := .registered (s.dispatcher.feed.waiter .read)
        rounds := s.rounds + 1 }
  /-- It sees that nobody consumes. -/
  | leave {read} : s.stage = .registered read → s.dispatcher.feed.abandoned = true →
      Works s { s with dispatcher := s.dispatcher.stop, stage := .resting }
  /-- It sees that the consumer is there. -/
  | stay {read} : s.stage = .registered read → s.dispatcher.feed.abandoned = false →
      Works s { s with stage := .attended read }
  /-- All is done, and it ends. -/
  | close {read} : s.stage = .attended read → s.dispatcher.exhausted = true →
      s.dispatcher.workers = [] →
      Works s { s with
        dispatcher := { s.dispatcher.stop with feed := s.dispatcher.feed.close }
        stage := .resting }
  /-- It looks at its backlog and starts to select. -/
  | select {read} : s.stage = .attended read →
      ¬ (s.dispatcher.exhausted = true ∧ s.dispatcher.workers = []) →
      Works s { s with
        dispatcher := { s.dispatcher with phase := .selecting s.dispatcher.mayPull read }
        stage := .resting }
  /-- The waiter has been woken. -/
  | notice {mayPull read} : s.stage = .resting → s.dispatcher.phase = .selecting mayPull read →
      read.resolved s.dispatcher.feed = true →
      Works s { s with
        dispatcher := s.dispatcher.noticedRead
        events := s.events ++ [.read] }
  /-- A result whose turn it is goes into the feed. -/
  | deliver {r b} : s.stage = .releasing → s.dispatcher.reorder.popReady = some (r, b) →
      (Dispatcher.deliver s.dispatcher.feed r).2 = true →
      Works s { s with dispatcher := s.dispatcher.delivered b r }
  /-- So does a failure, and the dispatcher stops. -/
  | stop {r b} : s.stage = .releasing → s.dispatcher.reorder.popReady = some (r, b) →
      (Dispatcher.deliver s.dispatcher.feed r).2 = false →
      Works s { s with dispatcher := (s.dispatcher.delivered b r).stop, stage := .resting }
  /-- Nothing more is ready. -/
  | settle : s.stage = .releasing → s.dispatcher.reorder.popReady = none →
      Works s { s with dispatcher := s.dispatcher.next true, stage := .resting }

/-- What a dispatcher meets with while it selects. -/
inductive Meets (around : Surroundings β) (s : Course τ β) : Course τ β → Prop where
  /-- Any of the workers has ended. -/
  | join {mayPull read index outcome} : s.stage = .resting →
      s.dispatcher.phase = .selecting mayPull read →
      index ∈ s.dispatcher.workers.map Prod.fst → around.result index (outcome.result index) →
      Meets around s (s.got
        { s.dispatcher with workers := s.dispatcher.workers.filter (·.1 != index) } index
        (outcome.result index) (.joined index outcome))
  /-- The source has an element, and its worker is started. -/
  | start {read worker} : s.stage = .resting → s.dispatcher.phase = .selecting true read →
      around.element s.dispatcher.dispatched →
      Meets around s { s with
        dispatcher := s.dispatcher.pulled (.started worker)
        events := s.events ++ [.started s.dispatcher.dispatched] }
  /-- The source has an element, and its worker panics while it is started. -/
  | panic {read payload} : s.stage = .resting → s.dispatcher.phase = .selecting true read →
      around.element s.dispatcher.dispatched →
      around.result s.dispatcher.dispatched
        ((Outcome.panicked payload).result s.dispatcher.dispatched) →
      Meets around s (s.got
        { s.dispatcher with dispatched := s.dispatcher.dispatched + 1 } s.dispatcher.dispatched
        ((Outcome.panicked payload).result s.dispatcher.dispatched)
        (.panicked s.dispatcher.dispatched payload))
  /-- The source fails. -/
  | fail {read e} : s.stage = .resting → s.dispatcher.phase = .selecting true read →
      around.failure s.dispatcher.dispatched e →
      Meets around s (s.got { s.dispatcher with exhausted := true } s.dispatcher.dispatched
        (.error e) (.failed s.dispatcher.dispatched e))
  /-- The source ends. -/
  | finish {read} : s.stage = .resting → s.dispatcher.phase = .selecting true read →
      around.finish s.dispatcher.dispatched →
      Meets around s { s with
        dispatcher := s.dispatcher.pulledEnd
        events := s.events ++ [.ended] }
  /-- The source breaks down, and the dispatcher with it. -/
  | broke {read} : s.stage = .resting → s.dispatcher.phase = .selecting true read →
      around.breaks →
      Meets around s { s with dispatcher := { s.dispatcher with phase := .stopped, workers := [] } }

/-- One thing that may happen. -/
inductive Step (around : Surroundings β) (s : Course τ β) : Course τ β → Prop where
  | works {s'} : Works s s' → Step around s s'
  | meets {s'} : Meets around s s' → Step around s s'
  /-- The workers are at work, and one that nobody will join may end. -/
  | stir {workers detached} : workers.map Prod.fst = s.dispatcher.workers.map Prod.fst →
      List.Sublist detached s.dispatcher.detached →
      Step around s { s with dispatcher := { s.dispatcher with workers, detached } }
  /-- The consumer takes the shared buffer of the feed. -/
  | refill : Step around s { s with
      dispatcher := { s.dispatcher with feed := s.dispatcher.feed.refill } }
  /-- The consumer asks for an item. -/
  | poll : s.dispatcher.feed.abandoned = false →
      Step around s { s with
        dispatcher := s.dispatcher.poll.2
        answers := s.answers ++ [s.dispatcher.poll.1] }
  /-- The consumer goes. -/
  | drop : s.dispatcher.feed.abandoned = false →
      Step around s { s with dispatcher := s.dispatcher.drop }

/-- What courses lead to, from a dispatcher that has not been asked for anything. -/
inductive Reaches (around : Surroundings β) (concurrency : Nat) (keepOrder : Bool) :
    Course τ β → Prop where
  | start : Reaches around concurrency keepOrder { dispatcher := { concurrency, keepOrder } }
  | step {s s' : Course τ β} : Reaches around concurrency keepOrder s → Step around s s' →
      Reaches around concurrency keepOrder s'

variable {around : Surroundings β} {s s' : Course τ β} {concurrency : Nat} {keepOrder : Bool}

theorem Meets.within {near far : Surroundings β} (inside : near.Within far)
    (meets : Meets near s s') : Meets far s s' := by
  cases meets with
  | join resting phase member comes => exact .join resting phase member (inside.result comes)
  | start resting phase more => exact .start resting phase (inside.element more)
  | panic resting phase more comes =>
    exact .panic resting phase (inside.element more) (inside.result comes)
  | fail resting phase fails => exact .fail resting phase (inside.failure fails)
  | finish resting phase ends => exact .finish resting phase (inside.finish ends)
  | broke resting phase breaks => exact .broke resting phase (inside.breaks breaks)

/-- What may happen in these surroundings may happen in wider ones. -/
theorem Step.within {near far : Surroundings β} (inside : near.Within far)
    (step : Step near s s') : Step far s s' := by
  cases step with
  | works works => exact .works works
  | meets meets => exact .meets (meets.within inside)
  | stir same detached => exact .stir same detached
  | refill => exact .refill
  | poll present => exact .poll present
  | drop present => exact .drop present

theorem got_ordered {d : Dispatcher τ β} (ordered : d.keepOrder = true) (index : Nat)
    (r : Except Failure (Option β)) (event : Event β) :
    s.got d index r event =
      { s with dispatcher := d.park index r, stage := .releasing, events := s.events ++ [event] } :=
  if_pos ordered

theorem got_unordered {d : Dispatcher τ β} (unordered : d.keepOrder = false) (index : Nat)
    (r : Except Failure (Option β)) (event : Event β) :
    s.got d index r event =
      { s with
        dispatcher := (d.delivered d.reorder r).next (Dispatcher.deliver d.feed r).2
        events := s.events ++ [event] } := by
  have own : ¬ d.keepOrder = true := by simp [unordered]
  rw [got, if_neg own, complete, if_neg own]
  rfl

/-! ### Calls without anybody in between -/

theorem Reaches.works (reached : Reaches around concurrency keepOrder s) (works : Works s s') :
    Reaches around concurrency keepOrder s' :=
  reached.step (.works works)

/-- The steps at the head of the loop are the survey. -/
theorem Reaches.surveyed (reached : Reaches around concurrency keepOrder s)
    (resting : s.stage = .resting) (phase : s.dispatcher.phase = .surveying) :
    Reaches around concurrency keepOrder
      { s with dispatcher := s.dispatcher.survey, rounds := s.rounds + 1 } := by
  have registered := reached.works (.register resting phase)
  unfold survey
  cases present : s.dispatcher.feed.abandoned with
  | true =>
    rw [if_pos rfl]
    have left := registered.works (.leave rfl present)
    rwa [← resting] at left
  | false =>
    rw [if_neg Bool.false_ne_true]
    have attended := registered.works (.stay rfl present)
    split
    · rename_i isOver
      obtain ⟨exhausted, workers⟩ := Bool.and_eq_true_iff.mp isOver
      have closed := attended.works (.close rfl exhausted (List.isEmpty_iff.mp workers))
      rwa [← resting] at closed
    · rename_i goesOn
      have goesOn : ¬ (s.dispatcher.exhausted = true ∧ s.dispatcher.workers = []) := by
        simpa [List.isEmpty_iff] using goesOn
      have selected := attended.works (.select rfl goesOn)
      rwa [← resting] at selected

/-- The steps of a release are the release. -/
theorem Reaches.released (reached : Reaches around concurrency keepOrder s)
    (releasing : s.stage = .releasing) :
    Reaches around concurrency keepOrder
      { s with dispatcher := s.dispatcher.releaseAll, stage := .resting } := by
  obtain ⟨d, stage, rounds, events, answers⟩ := s
  cases releasing
  induction d using Dispatcher.releaseAll_induct with
  | none d ready =>
    rw [Dispatcher.releaseAll_none ready]
    exact reached.works (.settle rfl ready)
  | some d r b ready ih =>
    rw [Dispatcher.releaseAll_some ready]
    split
    · rename_i goOn
      exact ih goOn (reached.works (.deliver rfl ready goOn))
    · rename_i stops
      exact reached.works (.stop rfl ready (by simpa using stops))

/-- A result that has been got, with all that it releases, is a completed result. -/
theorem Reaches.gotten {d : Dispatcher τ β} {index : Nat} {r : Except Failure (Option β)}
    {event : Event β} (reached : Reaches around concurrency keepOrder (s.got d index r event))
    (resting : s.stage = .resting) :
    Reaches around concurrency keepOrder
      { s with dispatcher := d.complete index r, events := s.events ++ [event] } := by
  cases ordered : d.keepOrder with
  | true =>
    rw [got_ordered ordered] at reached
    have released := reached.released rfl
    rw [complete_eq ordered]
    rwa [← resting] at released
  | false =>
    rwa [got, ordered] at reached

/-! ### What never changes -/

theorem Works.constant (works : Works s s') :
    s'.dispatcher.concurrency = s.dispatcher.concurrency ∧
      s'.dispatcher.keepOrder = s.dispatcher.keepOrder := by
  cases works <;> exact ⟨rfl, rfl⟩

theorem got_constant (s : Course τ β) (d : Dispatcher τ β) (index : Nat)
    (r : Except Failure (Option β)) (event : Event β) :
    (s.got d index r event).dispatcher.concurrency = d.concurrency ∧
      (s.got d index r event).dispatcher.keepOrder = d.keepOrder := by
  unfold got
  split
  · exact ⟨rfl, rfl⟩
  · have goes := complete_goes d index r
    exact ⟨goes.concurrency, goes.keepOrder⟩

theorem Step.constant (step : Step around s s') :
    s'.dispatcher.concurrency = s.dispatcher.concurrency ∧
      s'.dispatcher.keepOrder = s.dispatcher.keepOrder := by
  cases step with
  | works works => exact works.constant
  | meets meets =>
    cases meets with
    | join => exact got_constant _ _ _ _ _
    | start => exact ⟨rfl, rfl⟩
    | panic => exact got_constant _ _ _ _ _
    | fail => exact got_constant _ _ _ _ _
    | finish => exact ⟨rfl, rfl⟩
    | broke => exact ⟨rfl, rfl⟩
  | stir => exact ⟨rfl, rfl⟩
  | refill => exact ⟨rfl, rfl⟩
  | poll =>
    unfold Dispatcher.poll
    split <;> exact ⟨rfl, rfl⟩
  | drop =>
    unfold Dispatcher.drop
    split <;> exact ⟨rfl, rfl⟩

theorem Reaches.constant (reached : Reaches around concurrency keepOrder s) :
    s.dispatcher.concurrency = concurrency ∧ s.dispatcher.keepOrder = keepOrder := by
  induction reached with
  | start => exact ⟨rfl, rfl⟩
  | step _ step ih =>
    obtain ⟨same, order⟩ := step.constant
    exact ⟨same.trans ih.1, order.trans ih.2⟩

end Course
end PullStream.Dispatcher
