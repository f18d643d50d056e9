import PullStream.Proofs.Machine.LastPull
import PullStream.Proofs.Parallel.Clocked
import PullStream.Proofs.Parallel.Dropping

/-!
What a parallel stage does when its consumer has gone.

The stage runs its dispatcher over a machine and on a clock, step by step (`Closing`). From the
drop on each step brings the dispatcher nearer to its return, unless its source goes first in a
pull that was pending; and what the source is asked is the rest of that pull. Workers on the
clock run on until they are due.

* `Parallel.dispatch_crew` — the workers that run.
* `Parallel.dropped_winding` — what a stage asks its source, and what it takes.
* `Parallel.Winding.nearer` — its dispatcher returns.
-/

namespace PullStream

namespace Dispatcher

variable {τ β : Type}

/-! ### Rounds -/

/-- How many steps a dispatcher at rest without a consumer still takes at most. -/
def remaining (d : Dispatcher τ β) : Nat :=
  Course.remaining { dispatcher := d }

/-- Between two rounds, or out of the loop. -/
def Between (d : Dispatcher τ β) : Prop :=
  d.phase = .surveying ∨ d.phase = .stopped

theorem next_between (d : Dispatcher τ β) (goOn : Bool) : (d.next goOn).Between := by
  unfold next
  split
  · exact .inl rfl
  · exact .inr rfl

theorem complete_between (d : Dispatcher τ β) (index : Nat) (r : Except Failure (Option β)) :
    (d.complete index r).Between := by
  unfold complete
  split
  · exact next_between _ _
  · exact next_between _ _

theorem pulled_between (d : Dispatcher τ β) (launch : Launch τ) : (d.pulled launch).Between := by
  cases launch with
  | started worker => exact next_between _ _
  | panicked payload => exact complete_between _ _ _

theorem Between.not_selecting {d : Dispatcher τ β} (b : d.Between) {mayPull : Bool}
    {read : Feed.Waiter} : d.phase ≠ .selecting mayPull read := by
  rcases b with goesOn | stopped
  · simp [goesOn]
  · simp [stopped]

/-- The end of a round is nearer to the return than the selecting before it. -/
theorem Between.remaining_lt {d d' : Dispatcher τ β} (b : d'.Between) {mayPull : Bool}
    {read : Feed.Waiter} (phase : d.phase = .selecting mayPull read) :
    d'.remaining < d.remaining := by
  rcases b with goesOn | stopped
  · simp [remaining, Course.remaining, phase, goesOn]
  · simp [remaining, Course.remaining, phase, stopped]

theorem mem_crew_survey {d : Dispatcher τ β} {x : Nat × τ} : x ∈ d.survey.crew ↔ x ∈ d.crew := by
  unfold survey
  split
  · exact mem_crew_stop
  · split
    · exact mem_crew_stop
    · rfl

/-- A worker runs on when a result is got, unless it is the one that has ended. -/
theorem mem_crew_joined {d : Dispatcher τ β} {index : Nat} {outcome : Outcome β} {x : Nat × τ}
    (running : x ∈ d.crew) (other : x.1 ≠ index) : x ∈ (d.joined index outcome).crew := by
  rw [joined, mem_crew_complete]
  exact mem_crew_without running other

end Dispatcher

/-! ### The stage -/

namespace Parallel

open Dispatcher (Between Course Goes remaining)

variable {ω α β : Type} {source : Machine ω α} {work : Worker ω α β} {concurrency : Nat}
  {keepOrder : Bool} {answers : List (Answer β)}

/-- A worker runs on whatever the dispatcher does, unless it is the one that has ended. Only a
source that breaks down when it is asked takes the workers with it. -/
theorem dispatch_crew {s : State ω source.State β} {x : Nat × Running ω β}
    (running : x ∈ s.dispatcher.crew) (now : Time) (w : ω) :
    x ∈ (dispatch source work s now w).2.1.dispatcher.crew ∨
      (∃ outcome rest, s.outcomes = (x.1, outcome) :: rest) ∨
      (∃ read, s.dispatcher.phase = .selecting true read) ∧
        ∃ message, (source.poll s.source now w).1 = .crash message := by
  have step := dispatch_cases source work s now w
  generalize (dispatch source work s now w).2.1 = s' at step
  cases step with
  | idle => exact .inl running
  | surveyed => exact .inl (Dispatcher.mem_crew_survey.mpr running)
  | @joined _ _ index outcome rest _ first =>
    by_cases same : x.1 = index
    · exact .inr (.inl ⟨outcome, rest, by rw [first, same]⟩)
    · exact .inl (Dispatcher.mem_crew_joined running same)
  | pulled => exact .inl (Dispatcher.mem_crew_pulled running)
  | failed => exact .inl (Dispatcher.mem_crew_complete.mpr running)
  | ended => exact .inl running
  | broke phase _ answered => exact .inr (.inr ⟨⟨_, phase⟩, _, by rw [answered]⟩)
  | asked => exact .inl running
  | noticed => exact .inl running

/-- A step of a dispatcher without a consumer that has not stopped. -/
inductive Closing (source : Machine ω α) (s : State ω source.State β) (now : Time) (w : ω) :
    State ω source.State β → Prop where
  /-- It goes on without its source. -/
  | settled {d outcomes} : Between d → Goes s.dispatcher d →
      d.dispatched = s.dispatcher.dispatched → remaining d < remaining s.dispatcher →
      Closing source s now w (settle source s.source outcomes s.dispatcher d)
  /-- Its source has been asked, and the round is over. -/
  | answered {read a r w' d} : s.dispatcher.phase = .selecting true read →
      source.poll s.source now w = (a, r, w') → Between d → Goes s.dispatcher d →
      d.dispatched = s.dispatcher.dispatched + (itemsOf (outputs [a])).length →
      Closing source s now w (settle source r [] s.dispatcher d)
  /-- Its source has been asked, and goes first. -/
  | pending {read a r w'} : s.dispatcher.phase = .selecting true read →
      source.poll s.source now w = (a, r, w') → a = .skip ∨ a = .pause →
      Closing source s now w { s with source := r }

/-- The dispatcher goes on from `d` to `d'`, and begins no pull by it. -/
theorem settle_last {pending asks : Prop} {below r : source.State} {asked : List (Answer α)}
    (l : source.LastPull pending asks below asked r) (outcomes : List (Nat × Outcome β))
    (d : Dispatcher (Running ω β) β) {d' : Dispatcher (Running ω β) β} (between : Between d') :
    source.LastPull pending
      (∃ read, (settle source r outcomes d d').dispatcher.phase = .selecting true read) below asked
      (settle source r outcomes d d').source :=
  (l.settled _).mono fun ⟨_, selects⟩ => absurd selects between.not_selecting

/-- The dispatcher of a stage whose consumer has gone, when its source was at `below` and `taken`
elements had been taken: what it has asked since is the rest of one pull. -/
structure Winding (source : Machine ω α) (pending : Prop) (below : source.State) (taken : Nat)
    (s : State ω source.State β) : Prop where
  gone : s.dispatcher.feed.abandoned = true
  started : s.dispatcher.phase ≠ .idle
  woken : ∀ {mayPull read}, s.dispatcher.phase = .selecting mayPull read →
    read.resolved s.dispatcher.feed = true
  last : ∃ asked,
    source.LastPull pending (∃ read, s.dispatcher.phase = .selecting true read) below asked
      s.source ∧
    s.dispatcher.dispatched = taken + (itemsOf (outputs asked)).length

namespace Winding

variable {pending : Prop} {below : source.State} {taken : Nat} {s : State ω source.State β}

theorem closing (v : Winding source pending below taken s)
    (going : s.dispatcher.phase ≠ .stopped) (now : Time) (w : ω) :
    Closing source s now w (Parallel.dispatch source work s now w).2.1 := by
  obtain ⟨gone, started, woken, -⟩ := v
  obtain ⟨r, d, outcomes, waited⟩ := s
  dsimp only at gone started woken going
  unfold Parallel.dispatch
  dsimp only
  cases phase : d.phase with
  | idle => exact absurd phase started
  | stopped => exact absurd phase going
  | surveying =>
    have stops : d.survey.phase = .stopped := by simp [Dispatcher.survey, gone, Dispatcher.stop]
    refine .settled (.inr stops) (Dispatcher.survey_goes d) d.survey_stays.dispatched ?_
    simp [remaining, Course.remaining, stops, phase]
  | selecting mayPull read =>
    have woken := woken phase
    cases outcomes with
    | cons first rest =>
      have between : Between (d.joined first.1 first.2) := Dispatcher.complete_between _ _ _
      exact .settled between (Dispatcher.joined_goes _ _ _)
        (Dispatcher.complete_stays _ _ _).dispatched (between.remaining_lt phase)
    | nil =>
      have between : Between d.noticedRead := Dispatcher.next_between _ _
      cases mayPull with
      | false =>
        simp only [Bool.false_eq_true, if_false, woken, if_true]
        exact .settled between (Dispatcher.noticedRead_goes d) rfl (between.remaining_lt phase)
      | true =>
        simp only [if_true]
        rcases answered : source.poll r now w with ⟨a | g, r', w'⟩
        · exact .answered phase answered (Dispatcher.pulled_between _ _)
            (Dispatcher.pulled_goes _ _) (Dispatcher.pulled_dispatched _ _)
        · cases g with
          | fail e =>
            exact .answered phase answered (Dispatcher.complete_between _ _ _)
              (Dispatcher.pulledFailure_goes _ _) (Dispatcher.complete_stays _ _ _).dispatched
          | done =>
            exact .answered phase answered (Dispatcher.next_between _ _)
              (Dispatcher.pulledEnd_goes _) rfl
          | crash message =>
            exact .answered phase answered (.inr rfl) ⟨by simp, .refl _, rfl, rfl⟩ rfl
          | wait =>
            simp only [woken, if_true]
            exact .answered phase answered between (Dispatcher.noticedRead_goes d) rfl
          | skip => exact .pending phase answered (.inl rfl)
          | pause => exact .pending phase answered (.inr rfl)

/-- A step brings the dispatcher nearer to its return, unless its source goes first. -/
theorem nearer (v : Winding source pending below taken s) (now : Time) (w : ω) :
    s.dispatcher.phase = .stopped ∨
      remaining (Parallel.dispatch source work s now w).2.1.dispatcher < remaining s.dispatcher ∨
      (∃ read, s.dispatcher.phase = .selecting true read) ∧
        ((source.poll s.source now w).1 = .skip ∨ (source.poll s.source now w).1 = .pause) := by
  by_cases stopped : s.dispatcher.phase = .stopped
  · exact .inl stopped
  have step : Closing source s now w (Parallel.dispatch source work s now w).2.1 :=
    v.closing stopped now w
  generalize (Parallel.dispatch source work s now w).2.1 = s' at step
  cases step with
  | settled _ _ _ nearer => exact .inr (.inl nearer)
  | answered phase _ between => exact .inr (.inl (between.remaining_lt phase))
  | pending phase answered goesFirst =>
    refine .inr (.inr ⟨⟨_, phase⟩, ?_⟩)
    rw [answered]
    exact goesFirst

theorem dispatch (v : Winding source pending below taken s) (now : Time) (w : ω) :
    Winding source pending below taken (Parallel.dispatch source work s now w).2.1 := by
  by_cases stopped : s.dispatcher.phase = .stopped
  · have still : (Parallel.dispatch source work s now w).2.1 = s := by
      simp [Parallel.dispatch, stopped]
    rwa [still]
  have step : Closing source s now w (Parallel.dispatch source work s now w).2.1 :=
    v.closing stopped now w
  obtain ⟨gone, started, woken, asked, last, count⟩ := v
  generalize (Parallel.dispatch source work s now w).2.1 = s' at step
  cases step with
  | @settled d outcomes between goes same =>
    refine ⟨goes.feed.abandoned.trans gone, goes.started,
      fun selects => absurd selects between.not_selecting, asked, ?_, same.trans count⟩
    exact settle_last last outcomes _ between
  | @answered read a r w' d phase answered between goes more =>
    have pulled : source.LastPull pending False below (asked ++ [a]) r :=
      last.poll ⟨read, phase⟩ answered False.elim
    refine ⟨goes.feed.abandoned.trans gone, goes.started,
      fun selects => absurd selects between.not_selecting, asked ++ [a],
      settle_last pulled [] _ between, ?_⟩
    rw [outputs_append, itemsOf_append, List.length_append, ← Nat.add_assoc, ← count]
    exact more
  | @pending read a r w' phase answered goesFirst =>
    have pends : a.isPending = true := by rcases goesFirst with rfl | rfl <;> rfl
    refine ⟨gone, started, woken, asked ++ [a], last.poll ⟨read, phase⟩ answered fun _ => pends,
      ?_⟩
    have none : outputs [a] = [] := outputs_of_isPending (by simpa using pends)
    rw [outputs_append, none, List.append_nil]
    exact count

/-- Workers that finish are of no concern. -/
theorem finishWorker (v : Winding source pending below taken s) (now : Time) (w : ω) :
    Winding source pending below taken (Parallel.finishWorker s now w).2.1 := by
  have step := finishWorker_cases s now w
  generalize (Parallel.finishWorker s now w).2.1 = s' at step
  cases step <;> exact ⟨v.gone, v.started, v.woken, v.last⟩

end Winding

/-- From the drop of its consumer on, what a stage asks its source is the rest of one pull at
most, and the elements that it takes are those that the pull brings. -/
theorem dropped_winding {t u : (source.parallel concurrency keepOrder work).State}
    (reached : (source.parallel concurrency keepOrder work).Reach t answers)
    (ticked : Ticked (source.parallel concurrency keepOrder work).tick
      ((source.parallel concurrency keepOrder work).drop t) u) :
    Winding source (∃ read, t.1.dispatcher.phase = .selecting true read) t.1.source
      t.1.dispatcher.dispatched u.1 := by
  have follows := reach_follows (supplies_any source work) reached
  obtain ⟨rounds, events, course⟩ := follows.course
  have dropped := course.step (.drop follows.present)
  refine ticked.kept (fun u => Winding source (∃ read, t.1.dispatcher.phase = .selecting true read)
    t.1.source t.1.dispatcher.dispatched u.1) (fun u now w v => ?_) ⟨rfl, ?_, ?_, [], ?_, ?_⟩
  · refine tick_preserves _ (fun s w v => ?_) (fun s w v => v.dispatch now w)
      (fun s w v => v.finishWorker now w) (fun s b v => ⟨v.gone, v.started, v.woken, v.last⟩) u w v
    obtain ⟨gone, started, woken, asked, last, count⟩ := v
    exact ⟨gone, started, woken, asked, last.tick now w, count⟩
  · exact Dispatcher.drop_started _
  · exact fun selects => (dropped.watching.selecting rfl selects).resolved rfl
  · refine (Machine.LastPull.start fun ⟨read, selects⟩ => ?_).settled _
    exact (Course.dropped_asks (s := ⟨t.1.dispatcher, .resting, 0, [], []⟩)).mp
      ⟨rfl, read, selects⟩ |>.2
  · exact (Dispatcher.drop_stays _).dispatched

end Parallel
end PullStream
