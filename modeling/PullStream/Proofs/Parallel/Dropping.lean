import PullStream.Proofs.Parallel.Failing
import PullStream.Proofs.Task

/-!
What a dispatcher does when its consumer has gone.

The waiter that it made at the head of its loop tells it of the drop, at whatever point the
drop comes (`Watching`), and so it always goes on by itself: it does not wait for its source.
With the consumer gone it never again sees that anybody is there, and so it never selects again
unless it was just about to. What it still has to do is the release it is in and a round
(`remaining`). The workers that run are left alone, those that it has joined apart.

* `Course.task` — a dispatcher as a task.
* `Course.Reaches.watching` — what its waiter tells it.
* `Course.Works.crew`, `Course.Meets.crew` — the workers that run.
* `Course.Reaches.letGo` — the dispatcher is let go.
-/

namespace PullStream.Dispatcher

open Feed (Alerted)

variable {τ β : Type}

/-- All workers that may run, joined later or not. -/
def crew (d : Dispatcher τ β) : List (Nat × τ) :=
  d.workers ++ d.detached

theorem mem_crew_stop {d : Dispatcher τ β} {x : Nat × τ} : x ∈ d.stop.crew ↔ x ∈ d.crew := by
  simp [crew, stop, or_comm]

theorem mem_crew_next {d : Dispatcher τ β} (goOn : Bool) {x : Nat × τ} :
    x ∈ (d.next goOn).crew ↔ x ∈ d.crew := by
  unfold next
  split
  · rfl
  · exact mem_crew_stop

/-- The workers other than the one that is joined run on. -/
theorem mem_crew_without {d : Dispatcher τ β} {index : Nat} {x : Nat × τ} (running : x ∈ d.crew)
    (other : x.1 ≠ index) :
    x ∈ { d with workers := d.workers.filter (·.1 != index) }.crew := by
  rcases List.mem_append.mp running with worker | detached
  · exact List.mem_append_left _ (List.mem_filter.mpr ⟨worker, by simpa using other⟩)
  · exact List.mem_append_right _ detached

theorem mem_crew_complete {d : Dispatcher τ β} {index : Nat} {r : Except Failure (Option β)}
    {x : Nat × τ} : x ∈ (d.complete index r).crew ↔ x ∈ d.crew := by
  unfold complete
  split
  · exact mem_crew_next _
  · exact mem_crew_next _

theorem mem_crew_pulled {d : Dispatcher τ β} {launch : Launch τ} {x : Nat × τ}
    (running : x ∈ d.crew) : x ∈ (d.pulled launch).crew := by
  cases launch with
  | started worker =>
    rcases List.mem_append.mp running with worker | detached
    · exact List.mem_append_left _ (List.mem_append_left _ worker)
    · exact List.mem_append_right _ detached
  | panicked payload =>
    rw [pulled, mem_crew_complete]
    exact running

namespace Course

variable {around : Surroundings β} {s s' : Course τ β} {concurrency : Nat} {keepOrder : Bool}

/-- A dispatcher as a task: what it has taken is the elements that it has handed to workers. -/
def task (around : Surroundings β) : Task (Course τ β) where
  works := Works
  meets := Meets around
  steps := Step around
  asks := Asks
  looked s := ∃ read, s.stage = .attended read
  holds _ := False
  taken s := s.dispatcher.dispatched
  isOver s := s.dispatcher.phase = .stopped

/-! ### The waiter -/

/-- What a dispatcher has seen of its consumer holds until its waiter tells it otherwise. -/
structure Watching (s : Course τ β) : Prop where
  attended : ∀ {read}, s.stage = .attended read → Alerted read s.dispatcher.feed
  selecting : s.stage = .resting → ∀ {mayPull read}, s.dispatcher.phase = .selecting mayPull read →
    Alerted read s.dispatcher.feed

namespace Watching

/-- A dispatcher that neither is about to select nor selects has seen nothing. -/
theorem of_apart (attended : ∀ {read}, s.stage ≠ .attended read)
    (selecting : s.stage = .resting → ∀ {mayPull read},
      s.dispatcher.phase ≠ .selecting mayPull read) : Watching s where
  attended stage := absurd stage attended
  selecting resting := fun phase => absurd phase (selecting resting)

/-- What has been seen holds, whatever the consumer does. -/
theorem later (w : Watching s) (stage : s'.stage = s.stage)
    (phase : s'.dispatcher.phase = s.dispatcher.phase)
    (consumed : Feed.Consumed s.dispatcher.feed s'.dispatcher.feed) : Watching s' where
  attended now := (w.attended (stage ▸ now)).later consumed
  selecting now := fun selects => (w.selecting (stage ▸ now) (phase ▸ selects)).later consumed

end Watching

theorem got_not_attended (resting : s.stage = .resting) (d : Dispatcher τ β) (index : Nat)
    (r : Except Failure (Option β)) (event : Event β) {read : Feed.Waiter} :
    (s.got d index r event).stage ≠ .attended read := by
  cases ordered : d.keepOrder with
  | true =>
    rw [got_ordered ordered]
    simp
  | false =>
    rw [got_unordered ordered]
    simp [resting]

theorem Works.watching (works : Works s s') (a : Afoot s) (w : Watching s) : Watching s' := by
  have poised := a.poised
  cases works with
  | register => exact .of_apart (by simp) (by simp)
  | leave => exact .of_apart (by simp) (by simp [Dispatcher.stop])
  | stay stage present =>
    rw [stage] at poised
    refine ⟨?_, by simp⟩
    intro read' attended
    cases attended
    exact .of_present poised.registered.2 present
  | close => exact .of_apart (by simp) (by simp [Dispatcher.stop])
  | select stage =>
    refine ⟨by simp, ?_⟩
    intro _ mayPull read' selects
    cases selects
    exact w.attended stage
  | notice => exact .of_apart (by simp_all) (by simp [noticedRead, next])
  | deliver stage => exact .of_apart (by simp [stage]) (by simp [stage])
  | stop => exact .of_apart (by simp) (by simp [Dispatcher.stop])
  | settle => exact .of_apart (by simp) (by simp [next])

theorem Meets.watching (meets : Meets around s s') : Watching s' := by
  cases meets with
  | join resting => exact .of_apart (got_not_attended resting _ _ _ _) (got_stage _ _ _ _ _)
  | start resting => exact .of_apart (by simp [resting]) (by simp [pulled, next])
  | panic resting => exact .of_apart (got_not_attended resting _ _ _ _) (got_stage _ _ _ _ _)
  | fail resting => exact .of_apart (got_not_attended resting _ _ _ _) (got_stage _ _ _ _ _)
  | finish resting => exact .of_apart (by simp [resting]) (by simp [pulledEnd, next])
  | broke resting => exact .of_apart (by simp [resting]) (by simp)

theorem Step.watching (step : Step around s s') (a : Afoot s) (w : Watching s) : Watching s' := by
  have poised := a.poised
  cases step with
  | works works => exact works.watching a w
  | meets meets => exact meets.watching
  | stir => exact w.later rfl rfl (.refl _)
  | refill => exact w.later rfl rfl (Feed.refill_consumed _)
  | poll present =>
    unfold Dispatcher.poll
    split
    · rename_i idle
      rw [idle] at poised
      exact .of_apart (by simp [poised.resting_of_idle]) (by simp)
    · exact w.later rfl rfl (Feed.poll_consumed a.counted present)
  | drop =>
    unfold Dispatcher.drop
    split
    · rename_i idle
      rw [idle] at poised
      exact .of_apart (by simp [poised.resting_of_idle]) (by simp [Dispatcher.stop])
    · exact w.later rfl rfl (Feed.drop_consumed _)

theorem Reaches.watching (reached : Reaches around concurrency keepOrder s) : Watching s := by
  induction reached with
  | start => exact .of_apart (by simp) (by simp)
  | step reached step ih => exact step.watching reached.afoot ih

/-! ### The workers -/

theorem mem_crew_got (s : Course τ β) (d : Dispatcher τ β) (index : Nat)
    (r : Except Failure (Option β)) (event : Event β) {x : Nat × τ} :
    x ∈ (s.got d index r event).dispatcher.crew ↔ x ∈ d.crew := by
  cases ordered : d.keepOrder with
  | true =>
    rw [got_ordered ordered]
    rfl
  | false =>
    rw [got_unordered ordered]
    exact mem_crew_next _

/-- What a dispatcher does by itself leaves all workers alone. -/
theorem Works.crew (works : Works s s') {x : Nat × τ} :
    x ∈ s'.dispatcher.crew ↔ x ∈ s.dispatcher.crew := by
  cases works with
  | leave => exact mem_crew_stop
  | close => exact mem_crew_stop
  | stop => exact mem_crew_stop
  | _ => rfl

/-- A worker runs on whatever the dispatcher meets with, unless it is this one that has ended.
Only a source that breaks down takes the workers with it. -/
theorem Meets.crew (meets : Meets around s s') (sturdy : ¬ around.breaks) {x : Nat × τ}
    (running : x ∈ s.dispatcher.crew) :
    x ∈ s'.dispatcher.crew ∨ ∃ outcome, s'.events = s.events ++ [.joined x.1 outcome] := by
  cases meets with
  | @join mayPull read index outcome =>
    rw [got_events, mem_crew_got]
    by_cases same : x.1 = index
    · exact .inr ⟨outcome, by rw [same]⟩
    · exact .inl (mem_crew_without running same)
  | start => exact .inl (mem_crew_pulled running)
  | panic =>
    rw [mem_crew_got]
    exact .inl running
  | fail =>
    rw [mem_crew_got]
    exact .inl running
  | finish => exact .inl running
  | broke _ _ breaks => exact absurd breaks sturdy

/-! ### The drop -/

/-- Nobody consumes from a dispatcher that has been started, or will never be. -/
structure Gone (s : Course τ β) : Prop where
  abandoned : s.dispatcher.feed.abandoned = true
  started : s.dispatcher.phase ≠ .idle

/-- The consumer has gone. -/
def dropped (s : Course τ β) : Course τ β :=
  { s with dispatcher := s.dispatcher.drop }

theorem dropped_gone (s : Course τ β) : Gone s.dropped :=
  ⟨rfl, drop_started _⟩

/-- The drop takes nothing from the dispatcher but the start that it has not had. -/
theorem dropped_asks : s.dropped.Asks ↔ s.Asks := by
  unfold dropped Asks Dispatcher.drop
  split
  · rename_i idle
    simp [Dispatcher.stop, idle]
  · rfl

theorem mem_crew_drop {d : Dispatcher τ β} {x : Nat × τ} : x ∈ d.drop.crew ↔ x ∈ d.crew := by
  unfold Dispatcher.drop
  split
  · exact mem_crew_stop
  · rfl

theorem got_gone (gone : Gone s) {d : Dispatcher τ β} (feed : d.feed = s.dispatcher.feed)
    (started : d.phase ≠ .idle) (index : Nat) (r : Except Failure (Option β))
    (event : Event β) : Gone (s.got d index r event) := by
  cases ordered : d.keepOrder with
  | true =>
    rw [got_ordered ordered]
    exact ⟨feed ▸ gone.abandoned, started⟩
  | false =>
    have goes := next_goes (d.delivered d.reorder r) (Dispatcher.deliver d.feed r).2
    rw [got_unordered ordered]
    refine ⟨?_, goes.started⟩
    have same := (deliver_produced d.feed r).abandoned
    exact goes.feed.abandoned.trans (same.trans (feed ▸ gone.abandoned))

theorem Works.gone (works : Works s s') (gone : Gone s) : Gone s' := by
  obtain ⟨abandoned, started⟩ := gone
  have put : ∀ r, (Dispatcher.deliver s.dispatcher.feed r).1.abandoned = true := fun r =>
    (deliver_produced s.dispatcher.feed r).abandoned.trans abandoned
  cases works with
  | leave => exact ⟨abandoned, by simp [Dispatcher.stop]⟩
  | close => exact ⟨abandoned, by simp [Dispatcher.stop]⟩
  | select => exact ⟨abandoned, by simp⟩
  | notice => exact ⟨abandoned, by simp [noticedRead, next]⟩
  | deliver => exact ⟨put _, started⟩
  | stop => exact ⟨put _, by simp [Dispatcher.stop]⟩
  | settle => exact ⟨abandoned, by simp [next]⟩
  | _ => exact ⟨abandoned, started⟩

theorem Meets.gone (meets : Meets around s s') (gone : Gone s) : Gone s' := by
  cases meets with
  | join =>
    apply got_gone gone
    · rfl
    · exact gone.started
  | start => exact ⟨gone.abandoned, by simp [pulled, next]⟩
  | panic =>
    apply got_gone gone
    · rfl
    · exact gone.started
  | fail =>
    apply got_gone gone
    · rfl
    · exact gone.started
  | finish => exact ⟨gone.abandoned, by simp [pulledEnd, next]⟩
  | broke => exact ⟨gone.abandoned, by simp⟩

/-- There is no consumer to come back. -/
theorem Step.gone (step : Step around s s') (gone : Gone s) : Gone s' := by
  cases step with
  | works works => exact works.gone gone
  | meets meets => exact meets.gone gone
  | stir => exact ⟨gone.abandoned, gone.started⟩
  | refill =>
    have same := s.dispatcher.feed.refill_untouched.abandoned
    exact ⟨same.trans gone.abandoned, gone.started⟩
  | poll present => cases present.symm.trans gone.abandoned
  | drop present => cases present.symm.trans gone.abandoned

/-! ### What is left to do -/

/-- How many steps a dispatcher without a consumer still takes at most. -/
def remaining (s : Course τ β) : Nat :=
  match s.stage, s.dispatcher.phase with
  | .attended _, _ => s.dispatcher.parked + 6
  | .registered _, _ => 1
  | .releasing, _ => s.dispatcher.parked + 3
  | .resting, .selecting _ _ => s.dispatcher.parked + 5
  | .resting, .surveying => 2
  | .resting, _ => 0

theorem remaining_le (s : Course τ β) : s.remaining ≤ s.dispatcher.parked + 6 := by
  unfold remaining
  split <;> omega

theorem Works.remaining_lt (works : Works s s') (gone : s.dispatcher.feed.abandoned = true) :
    s'.remaining < s.remaining := by
  cases works with
  | register resting phase => simp [remaining, resting, phase]
  | leave stage => simp [remaining, stage, Dispatcher.stop]
  | stay _ present => cases present.symm.trans gone
  | close stage => simp [remaining, stage, Dispatcher.stop]
  | select stage => simp [remaining, stage, parked]
  | notice resting phase => simp [remaining, resting, phase, noticedRead, next]
  | deliver stage ready =>
    have smaller := Reorder.size_lt_of_popReady ready
    simpa [remaining, stage, parked, delivered] using smaller
  | stop stage => simp [remaining, stage, Dispatcher.stop]
  | settle stage => simp [remaining, stage, next]

theorem got_remaining_le (resting : s.stage = .resting) (d : Dispatcher τ β) (index : Nat)
    (r : Except Failure (Option β)) (event : Event β) :
    (s.got d index r event).remaining ≤ d.parked + 4 := by
  cases ordered : d.keepOrder with
  | true =>
    have size := insert_size_le d.reorder index r
    rw [got_ordered ordered]
    simp only [remaining, park, parked]
    omega
  | false =>
    rw [got_unordered ordered]
    cases (Dispatcher.deliver d.feed r).2 with
    | true => simp [remaining, resting, next]
    | false => simp [remaining, resting, next, Dispatcher.stop]

theorem Meets.remaining_lt (meets : Meets around s s') : s'.remaining < s.remaining := by
  have selects : s.stage = .resting → ∀ {mayPull read},
      s.dispatcher.phase = .selecting mayPull read → s.remaining = s.dispatcher.parked + 5 := by
    intro resting mayPull read phase
    simp [remaining, resting, phase]
  cases meets with
  | join resting phase =>
    rw [selects resting phase]
    exact Nat.lt_succ_of_le (got_remaining_le resting _ _ _ _)
  | start resting phase =>
    rw [selects resting phase]
    simp [remaining, resting, pulled, next]
  | panic resting phase =>
    rw [selects resting phase]
    exact Nat.lt_succ_of_le (got_remaining_le resting _ _ _ _)
  | fail resting phase =>
    rw [selects resting phase]
    exact Nat.lt_succ_of_le (got_remaining_le resting _ _ _ _)
  | finish resting phase =>
    rw [selects resting phase]
    simp [remaining, resting, pulledEnd, next]
  | broke resting phase =>
    rw [selects resting phase]
    simp [remaining, resting]

/-! ### Pulls -/

/-- A dispatcher without a consumer sees nobody, and selects only if it had seen somebody. -/
theorem Works.turns (works : Works s s') (gone : s.dispatcher.feed.abandoned = true) :
    (¬ ∃ read, s'.stage = .attended read) ∧ (s'.Asks → ∃ read, s.stage = .attended read) := by
  cases works with
  | register => simp [Asks]
  | leave => simp [Asks, Dispatcher.stop]
  | stay _ present => cases present.symm.trans gone
  | close => simp [Asks, Dispatcher.stop]
  | select stage => simp [stage]
  | notice resting => simp [Asks, resting, noticedRead, next]
  | deliver stage => simp [Asks, stage]
  | stop => simp [Asks, Dispatcher.stop]
  | settle => simp [Asks, next]

/-- What a dispatcher meets with is the end of its round. -/
theorem Meets.turns (meets : Meets around s s') :
    (¬ ∃ read, s'.stage = .attended read) ∧ ¬ s'.Asks := by
  have got : s.stage = .resting → ∀ (d : Dispatcher τ β) index r event,
      (¬ ∃ read, (s.got d index r event).stage = .attended read) ∧
        ¬ (s.got d index r event).Asks := by
    intro resting d index r event
    refine ⟨fun ⟨read, stage⟩ => got_not_attended resting d index r event stage, ?_⟩
    rintro ⟨rests, read, selects⟩
    exact got_stage s d index r event rests selects
  cases meets with
  | join resting => exact got resting _ _ _ _
  | start resting => simp [Asks, resting, pulled, next]
  | panic resting => exact got resting _ _ _ _
  | fail resting => exact got resting _ _ _ _
  | finish resting => simp [Asks, resting, pulledEnd, next]
  | broke resting => simp [Asks, resting]

/-- An element is taken by a dispatcher that asks for it, and one at a time. -/
theorem Meets.takes (meets : Meets around s s') :
    s'.dispatcher.dispatched = s.dispatcher.dispatched ∨
      s'.dispatcher.dispatched = s.dispatcher.dispatched + 1 ∧ s.Asks := by
  cases meets with
  | join => exact .inl (got_next _ _ _ _ _).2
  | start resting phase => exact .inr ⟨rfl, resting, _, phase⟩
  | panic resting phase => exact .inr ⟨(got_next _ _ _ _ _).2, resting, _, phase⟩
  | fail => exact .inl (got_next _ _ _ _ _).2
  | finish => exact .inl rfl
  | broke => exact .inl rfl

/-- A dispatcher without a consumer goes on by itself until it has stopped. -/
theorem Reaches.goes_on (reached : Reaches around concurrency keepOrder s) (gone : Gone s) :
    s.dispatcher.phase = .stopped ∨ ∃ s', Works s s' := by
  obtain ⟨abandoned, started⟩ := gone
  cases stage : s.stage with
  | registered read => exact .inr ⟨_, .leave stage abandoned⟩
  | attended read =>
    by_cases isOver : s.dispatcher.exhausted = true ∧ s.dispatcher.workers = []
    · exact .inr ⟨_, .close stage isOver.1 isOver.2⟩
    · exact .inr ⟨_, .select stage isOver⟩
  | releasing =>
    cases ready : s.dispatcher.reorder.popReady with
    | none => exact .inr ⟨_, .settle stage ready⟩
    | some entry =>
      obtain ⟨r, b⟩ := entry
      cases goOn : (Dispatcher.deliver s.dispatcher.feed r).2 with
      | true => exact .inr ⟨_, .deliver stage ready goOn⟩
      | false => exact .inr ⟨_, .stop stage ready goOn⟩
  | resting =>
    cases phase : s.dispatcher.phase with
    | idle => exact absurd phase started
    | stopped => exact .inl rfl
    | surveying => exact .inr ⟨_, .register stage phase⟩
    | selecting mayPull read =>
      have woken := (reached.watching.selecting stage phase).resolved abandoned
      exact .inr ⟨_, .notice stage phase woken⟩

theorem task_leaving :
    (task around).Leaving
      (fun s : Course τ β => Reaches around concurrency keepOrder s ∧ Gone s) remaining where
  stays kept step := ⟨kept.1.step step, step.gone kept.2⟩
  own own := own.elim .works .meets
  nearer kept own := by
    rcases own with works | meets
    · exact works.remaining_lt kept.2.abandoned
    · exact meets.remaining_lt
  takes _ own := by
    rcases own with works | meets
    · exact .inl works.next_le.2
    · exact meets.takes
  turns kept own := by
    rcases own with works | meets
    · exact works.turns kept.2.abandoned
    · exact ⟨meets.turns.1, fun asks => absurd asks meets.turns.2⟩
  apart := by
    rintro s - ⟨resting, -⟩ ⟨read, stage⟩
    cases resting.symm.trans stage
  others kept step others := by
    cases step with
    | works works => exact absurd (.inl works) others
    | meets meets => exact absurd (.inr meets) others
    | stir => exact ⟨Nat.le_refl _, rfl, id, id⟩
    | refill => exact ⟨Nat.le_refl _, rfl, id, id⟩
    | poll present => cases present.symm.trans kept.2.abandoned
    | drop present => cases present.symm.trans kept.2.abandoned
  goes kept := (kept.1.goes_on kept.2).imp_right .inr
  returned kept stopped own := by
    rcases own with works | meets
    · exact works.going kept.1.afoot stopped
    · exact meets.going stopped

/-- From the drop of its consumer on, a dispatcher is let go. -/
theorem Reaches.letGo (positive : 0 < concurrency)
    (reached : Reaches around concurrency keepOrder s)
    (present : s.dispatcher.feed.abandoned = false) :
    (task around).LetGo (concurrency + 6) s.dropped := by
  have after : Reaches around concurrency keepOrder s.dropped := reached.step (.drop present)
  have bound := (after.paced positive).inFlight
  have most := s.dropped.remaining_le
  refine task_leaving.letGo ⟨after, dropped_gone s⟩ ?_
  omega

end Course
end PullStream.Dispatcher
