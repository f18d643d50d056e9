import PullStream.Proofs.Parallel.Bounds

/-!
What a dispatcher waits for, and how it leaves its loop.

What a dispatcher has seen at the head of its loop stays true while it selects (`Chosen`): the
workers and the reorder buffer are as they were, and an item that leaves the feed is counted as
a read. So while its waiter has not been woken, some worker runs, or it may take an element, or
the feed is full. It acts on an open feed only; what closes the feed is the last it does.

* `Course.Reaches.waits` — what a dispatcher waits for.
* `Course.Leaves`, `Course.Step.leaves` — how it leaves its loop.
* `Course.Works.going`, `Course.Meets.going` — it acts before it has stopped.
* `Course.Placed.got_fresh` — what it parks is new.
-/

namespace PullStream.Dispatcher.Course

variable {τ β : Type} {around : Surroundings β} {s s' : Course τ β} {concurrency : Nat}
  {keepOrder : Bool}

/-! ### Waiting -/

/-- What a dispatcher has seen when it started to select. -/
structure Chosen (concurrency : Nat) (s : Course τ β) : Prop where
  more : s.stage = .resting → ∀ {mayPull read}, s.dispatcher.phase = .selecting mayPull read →
    ¬ (s.dispatcher.exhausted = true ∧ s.dispatcher.workers = [])
  full : s.stage = .resting → ∀ {read}, s.dispatcher.phase = .selecting false read →
    s.dispatcher.exhausted = true ∨ concurrency ≤ s.dispatcher.inFlight ∨
      concurrency + read.seen ≤ s.dispatcher.undelivered + s.dispatcher.feed.reads

namespace Chosen

/-- A dispatcher that does not select has nothing in mind. -/
theorem of_apart (apart : s.stage = .resting → ∀ {mayPull read},
    s.dispatcher.phase ≠ .selecting mayPull read) : Chosen concurrency s where
  more resting := fun selecting => absurd selecting (apart resting)
  full resting := fun selecting => absurd selecting (apart resting)

/-- Where workers and buffer stay, an item may leave the feed if it is counted. -/
theorem kept (c : Chosen concurrency s) (stage : s'.stage = s.stage)
    (phase : s'.dispatcher.phase = s.dispatcher.phase)
    (workers : s'.dispatcher.workers.length = s.dispatcher.workers.length)
    (reorder : s'.dispatcher.reorder = s.dispatcher.reorder)
    (exhausted : s'.dispatcher.exhausted = s.dispatcher.exhausted)
    (counts : s.dispatcher.undelivered + s.dispatcher.feed.reads ≤
      s'.dispatcher.undelivered + s'.dispatcher.feed.reads) : Chosen concurrency s' := by
  obtain ⟨more, full⟩ := c
  constructor
  · intro resting mayPull read selecting
    rintro ⟨isOver, none⟩
    refine more (stage ▸ resting) (phase ▸ selecting) ⟨exhausted ▸ isOver, ?_⟩
    rw [none] at workers
    exact List.length_eq_zero_iff.mp workers.symm
  · intro resting read selecting
    rw [exhausted, Dispatcher.inFlight, workers, reorder]
    rcases full (stage ▸ resting) (phase ▸ selecting) with isOver | busy | backlog
    · exact .inl isOver
    · exact .inr (.inl busy)
    · exact .inr (.inr (Nat.le_trans backlog counts))

end Chosen

theorem Works.chosen (works : Works s s') (constant : s.dispatcher.concurrency = concurrency)
    (a : Afoot s) : Chosen concurrency s' := by
  have poised := a.poised
  cases works with
  | register => exact .of_apart (by simp)
  | leave => exact .of_apart (by simp [Dispatcher.stop])
  | stay => exact .of_apart (by simp)
  | close => exact .of_apart (by simp [Dispatcher.stop])
  | select stage goesOn =>
    rw [stage] at poised
    obtain ⟨-, -, seen⟩ := poised.attended
    constructor
    · exact fun _ _ _ _ => goesOn
    · intro _ read' selecting
      injection selecting with leave same
      subst same
      simp only [mayPull, constant, Bool.and_eq_false_iff, Bool.not_eq_false',
        decide_eq_false_iff_not, Nat.not_lt] at leave
      rcases leave with (isOver | backlog) | busy
      · exact .inl isOver
      · exact .inr (.inr (Nat.add_le_add backlog seen))
      · exact .inr (.inl busy)
  | notice => exact .of_apart (by simp [noticedRead, next])
  | deliver stage =>
    apply Chosen.of_apart
    intro resting
    cases stage.symm.trans resting
  | stop => exact .of_apart (by simp [Dispatcher.stop])
  | settle => exact .of_apart (by simp [next])

theorem Meets.chosen (meets : Meets around s s') : Chosen concurrency s' := by
  cases meets with
  | join => exact .of_apart (got_stage _ _ _ _ _)
  | start => exact .of_apart (by simp [pulled, next])
  | panic => exact .of_apart (got_stage _ _ _ _ _)
  | fail => exact .of_apart (got_stage _ _ _ _ _)
  | finish => exact .of_apart (by simp [pulledEnd, next])
  | broke => exact .of_apart (by simp)

theorem Step.chosen (step : Step around s s') (constant : s.dispatcher.concurrency = concurrency)
    (a : Afoot s) (c : Chosen concurrency s) : Chosen concurrency s' := by
  cases step with
  | works works => exact works.chosen constant a
  | meets meets => exact meets.chosen
  | @stir workers detached same _ =>
    have length : workers.length = s.dispatcher.workers.length := by
      simpa using congrArg List.length same
    exact c.kept rfl rfl length rfl rfl (Nat.le_refl _)
  | refill =>
    have counts : s.dispatcher.feed.refill.pending + s.dispatcher.feed.refill.reads =
        s.dispatcher.undelivered + s.dispatcher.feed.reads := by
      rw [Feed.refill_pending, Feed.refill_reads]
      rfl
    exact c.kept rfl rfl rfl rfl rfl (Nat.le_of_eq counts.symm)
  | poll present =>
    unfold Dispatcher.poll
    split
    · exact .of_apart (by simp)
    · exact c.kept rfl rfl rfl rfl rfl (Nat.le_of_eq (Feed.poll_counts a.counted present).symm)
  | drop _ =>
    unfold Dispatcher.drop
    split
    · exact .of_apart (by simp [Dispatcher.stop])
    · exact c.kept rfl rfl rfl rfl rfl (Nat.le_succ _)

theorem Reaches.chosen (reached : Reaches around concurrency keepOrder s) :
    Chosen concurrency s := by
  induction reached with
  | start => exact .of_apart (by simp)
  | step reached step ih => exact step.chosen reached.constant.1 reached.afoot ih

/-- Nothing is parked but behind a worker with a lower position, unless a release is under
way. -/
theorem Placed.parked_behind (p : Placed s) (going : s.dispatcher.phase ≠ .stopped)
    (settled : s.stage ≠ .releasing) (some : s.dispatcher.reorder.parked ≠ []) :
    ∃ i ∈ s.dispatcher.workers.map Prod.fst,
      ∀ j ∈ s.dispatcher.reorder.parked.map Prod.fst, i < j := by
  cases ordered : s.dispatcher.keepOrder with
  | true => exact ⟨_, p.next_running ordered going settled some⟩
  | false => exact absurd (p.free ordered) some

/-- A dispatcher that waits for its waiter has a worker that runs, or may take an element, or
its feed is full. -/
theorem Reaches.waits (positive : 0 < concurrency)
    (reached : Reaches around concurrency keepOrder s) {mayPull : Bool} {read : Feed.Waiter}
    (resting : s.stage = .resting) (phase : s.dispatcher.phase = .selecting mayPull read)
    (unresolved : read.resolved s.dispatcher.feed = false) :
    s.dispatcher.workers ≠ [] ∨ mayPull = true ∨ concurrency ≤ s.dispatcher.undelivered := by
  have chosen := reached.chosen
  have poised := reached.afoot.poised
  have going : s.dispatcher.phase ≠ .stopped := by simp [phase]
  rw [resting, phase] at poised
  by_cases busy : s.dispatcher.workers = []
  · right
    cases mayPull with
    | true => exact .inl rfl
    | false =>
      right
      rcases chosen.full resting phase with isOver | held | backlog
      · exact absurd ⟨isOver, busy⟩ (chosen.more resting phase)
      · -- What is in flight would be parked, behind a worker.
        have some : s.dispatcher.reorder.parked ≠ [] := by
          intro none
          rw [Dispatcher.inFlight, Reorder.size, busy, none] at held
          exact absurd positive (Nat.not_lt.mpr held)
        obtain ⟨i, member, -⟩ := reached.placed.parked_behind going (by simp [resting]) some
        rw [busy] at member
        exact absurd member List.not_mem_nil
      · have same := poised.reads_eq unresolved
        omega
  · exact .inl busy

/-! ### Leaving the loop -/

/-- How a dispatcher may leave its loop: by the end, by a failure, or because nobody consumes. -/
inductive Leaves (d d' : Dispatcher τ β) : Prop where
  | ended : d.exhausted = true → d.workers = [] → d.reorder.parked = [] →
      d'.feed = d.feed.close → Leaves d d'
  | threw {e} : d.feed.throw e = .ok d'.feed → Leaves d d'
  | abandoned : d.feed.abandoned = true → d'.feed = d.feed → Leaves d d'

theorem Works.leaves (works : Works s s') (a : Afoot s) (p : Placed s)
    (stopped : s'.dispatcher.phase = .stopped) : Leaves s.dispatcher s'.dispatcher := by
  have poised := a.poised
  cases works with
  | register _ phase => cases phase.symm.trans stopped
  | leave _ abandoned => exact .abandoned abandoned rfl
  | stay stage _ =>
    rw [stage] at poised
    cases poised.registered.1.symm.trans stopped
  | close stage exhausted workers =>
    rw [stage] at poised
    refine .ended exhausted workers ?_ rfl
    by_contra some
    obtain ⟨i, member, -⟩ := p.parked_behind (by simp [poised.attended.1]) (by simp [stage]) some
    rw [workers] at member
    exact List.not_mem_nil member
  | select => cases stopped
  | notice => cases stopped
  | deliver stage =>
    rw [stage] at poised
    obtain ⟨mayPull, read, phase⟩ := poised.releasing
    cases phase.symm.trans stopped
  | @stop r b stage ready stops =>
    rw [stage] at poised
    obtain ⟨mayPull, read, phase⟩ := poised.releasing
    have put := deliver_deposited (a.isOpen (by simp [phase])) r
    rw [stops] at put
    obtain ⟨e, -, thrown⟩ := put.failed
    exact .threw thrown
  | settle => cases stopped

/-- A result that ends the loop has been thrown. -/
theorem got_threw (s : Course τ β) {d : Dispatcher τ β} (isOpen : d.feed.closed = false)
    (going : d.phase ≠ .stopped) (index : Nat) (r : Except Failure (Option β)) (event : Event β)
    (stopped : (s.got d index r event).dispatcher.phase = .stopped) :
    ∃ e, d.feed.throw e = .ok (s.got d index r event).dispatcher.feed := by
  cases ordered : d.keepOrder with
  | true =>
    rw [got_ordered ordered] at stopped
    exact absurd stopped going
  | false =>
    have put := deliver_deposited isOpen r
    rw [got_unordered ordered] at stopped ⊢
    cases goOn : (Dispatcher.deliver d.feed r).2 with
    | true =>
      rw [goOn] at stopped
      cases stopped
    | false =>
      rw [goOn] at put
      obtain ⟨e, -, thrown⟩ := put.failed
      exact ⟨e, thrown⟩

theorem Meets.leaves (meets : Meets around s s') (sturdy : ¬ around.breaks) (a : Afoot s)
    (stopped : s'.dispatcher.phase = .stopped) : Leaves s.dispatcher s'.dispatcher := by
  cases meets with
  | join _ phase _ _ =>
    have going : s.dispatcher.phase ≠ .stopped := by simp [phase]
    obtain ⟨e, thrown⟩ := got_threw s (by exact a.isOpen going) (by exact going) _ _ _ stopped
    exact .threw thrown
  | start => cases stopped
  | panic _ phase _ _ =>
    have going : s.dispatcher.phase ≠ .stopped := by simp [phase]
    obtain ⟨e, thrown⟩ := got_threw s (by exact a.isOpen going) (by exact going) _ _ _ stopped
    exact .threw thrown
  | fail _ phase _ =>
    have going : s.dispatcher.phase ≠ .stopped := by simp [phase]
    obtain ⟨e, thrown⟩ := got_threw s (by exact a.isOpen going) (by exact going) _ _ _ stopped
    exact .threw thrown
  | finish => cases stopped
  | broke _ _ breaks => exact absurd breaks sturdy

/-- A dispatcher that has been started leaves its loop in one of three ways, unless its source
breaks down. -/
theorem Step.leaves (step : Step around s s') (sturdy : ¬ around.breaks) (a : Afoot s)
    (p : Placed s) (started : s.dispatcher.phase ≠ .idle) (going : s.dispatcher.phase ≠ .stopped)
    (stopped : s'.dispatcher.phase = .stopped) : Leaves s.dispatcher s'.dispatcher := by
  cases step with
  | works works => exact works.leaves a p stopped
  | meets meets => exact meets.leaves sturdy a stopped
  | stir => exact absurd stopped going
  | refill => exact absurd stopped going
  | poll present =>
    unfold Dispatcher.poll at stopped
    rw [if_neg started] at stopped
    exact absurd stopped going
  | drop present =>
    unfold Dispatcher.drop at stopped
    rw [if_neg started] at stopped
    exact absurd stopped going

/-! ### An open feed -/

/-- What a dispatcher does by itself it does before it has stopped. -/
theorem Works.going (works : Works s s') (a : Afoot s) : s.dispatcher.phase ≠ .stopped := by
  intro stopped
  have poised := a.poised
  rw [stopped] at poised
  cases works with
  | register _ phase => cases stopped.symm.trans phase
  | leave stage _ =>
    rw [stage] at poised
    exact poised
  | stay stage _ =>
    rw [stage] at poised
    exact poised
  | close stage _ _ =>
    rw [stage] at poised
    exact poised
  | select stage _ =>
    rw [stage] at poised
    exact poised
  | notice _ phase _ => cases stopped.symm.trans phase
  | deliver stage _ _ =>
    rw [stage] at poised
    exact poised
  | stop stage _ _ =>
    rw [stage] at poised
    exact poised
  | settle stage _ =>
    rw [stage] at poised
    exact poised

theorem Meets.going (meets : Meets around s s') : s.dispatcher.phase ≠ .stopped := by
  intro stopped
  cases meets with
  | join _ phase => cases stopped.symm.trans phase
  | start _ phase => cases stopped.symm.trans phase
  | panic _ phase => cases stopped.symm.trans phase
  | fail _ phase => cases stopped.symm.trans phase
  | finish _ phase => cases stopped.symm.trans phase
  | broke _ phase => cases stopped.symm.trans phase

/-- A feed that has been closed stays as its producer left it. -/
theorem Step.closed (step : Step around s s') (a : Afoot s)
    (closed : s.dispatcher.feed.closed = true) :
    s'.dispatcher.feed.closed = true ∧ s'.dispatcher.phase = .stopped := by
  have stopped : s.dispatcher.phase = .stopped := by
    by_contra going
    cases closed.symm.trans (a.isOpen going)
  cases step with
  | works works => exact absurd stopped (works.going a)
  | meets meets => exact absurd stopped meets.going
  | stir => exact ⟨closed, stopped⟩
  | refill => exact ⟨s.dispatcher.feed.refill_untouched.closed.trans closed, stopped⟩
  | poll _ =>
    rw [Dispatcher.poll, if_neg (by simp [stopped])]
    exact ⟨s.dispatcher.feed.poll_untouched.closed.trans closed, stopped⟩
  | drop _ =>
    rw [Dispatcher.drop, if_neg (by simp [stopped])]
    exact ⟨closed, stopped⟩

/-- A dispatcher that has stopped has closed its feed, or nobody consumes. -/
def Shut (s : Course τ β) : Prop :=
  s.dispatcher.phase = .stopped →
    s.dispatcher.feed.closed = true ∨ s.dispatcher.feed.abandoned = true

theorem Leaves.shut {d d' : Dispatcher τ β} (leaves : Leaves d d') :
    d'.feed.closed = true ∨ d'.feed.abandoned = true := by
  cases leaves with
  | ended _ _ _ feed => exact .inl (feed ▸ rfl)
  | threw thrown => exact .inl (Feed.throw_ok thrown).2.2.1
  | abandoned gone feed => exact .inr (feed ▸ gone)

theorem Step.shut (step : Step around s s') (sturdy : ¬ around.breaks) (a : Afoot s)
    (p : Placed s) (shut : Shut s) : Shut s' := by
  intro stopped
  cases step with
  | works works => exact (works.leaves a p stopped).shut
  | meets meets => exact (meets.leaves sturdy a stopped).shut
  | stir => exact shut stopped
  | refill =>
    have same := s.dispatcher.feed.refill_untouched
    rw [same.closed, same.abandoned]
    exact shut stopped
  | poll present =>
    unfold Dispatcher.poll at stopped ⊢
    split at stopped
    · cases stopped
    · rename_i started
      have same := s.dispatcher.feed.poll_untouched
      rw [if_neg started]
      rcases shut stopped with closed | gone
      · exact .inl (same.closed.trans closed)
      · exact .inr (same.abandoned.trans gone)
  | drop => exact .inr rfl

theorem Reaches.shut (sturdy : ¬ around.breaks)
    (reached : Reaches around concurrency keepOrder s) : Shut s := by
  induction reached with
  | start => simp [Shut]
  | step reached step ih => exact step.shut sturdy reached.afoot reached.placed ih

/-- A result that is got in order is parked. -/
theorem Meets.got_parked (meets : Meets around s s') (ordered : s.dispatcher.keepOrder = true)
    {index : Nat} {r : Except Failure (Option β)} (got : s'.observed = s.observed ++ [(index, r)]) :
    s'.dispatcher.reorder = s.dispatcher.reorder.insert index r := by
  have same : ∀ {entry}, s'.observed = s.observed ++ [entry] → entry = (index, r) := by
    intro entry other
    simpa using other.symm.trans got
  have some : s'.observed ≠ s.observed := by
    intro none
    simp [got] at none
  cases meets with
  | join =>
    have own := same (got_observed _ _ rfl)
    rw [got_ordered (by exact ordered)]
    cases own
    rfl
  | start => exact absurd (by simp [observed, Event.result?]) some
  | panic =>
    have own := same (got_observed _ _ rfl)
    rw [got_ordered (by exact ordered)]
    cases own
    rfl
  | fail =>
    have own := same (got_observed _ _ rfl)
    rw [got_ordered (by exact ordered)]
    cases own
    rfl
  | finish => exact absurd (by simp [observed, Event.result?]) some
  | broke => exact absurd rfl some

/-- A result that is got in order has neither been released nor parked before. -/
theorem Placed.got_fresh (p : Placed s) (p' : Placed s') (ordered : s.dispatcher.keepOrder = true)
    {index : Nat} {r : Except Failure (Option β)}
    (got : s'.observed = s.observed ++ [(index, r)]) :
    s.dispatcher.reorder.next ≤ index ∧
      index ∉ s.dispatcher.reorder.parked.map Prod.fst := by
  have distinct := p'.distinct
  rw [positions, got, List.map_append] at distinct
  refine p.fresh ordered fun member => ?_
  exact (List.nodup_append.mp distinct).2.2 _ member _ (List.mem_singleton_self _) rfl

end PullStream.Dispatcher.Course
