import PullStream.Proofs.Parallel.Places

/-!
How much a dispatcher holds.

An element is taken only with leave, and leave is given at the head of the loop: fewer than
`concurrency` elements are in flight then and fewer than that many items wait in the feed.
Until the round ends the consumer can only make room. A result that is got takes the place of
its worker, and what a release puts into the feed it takes out of the reorder buffer, so the
sum of all three grows by one for an element that is taken, and by nothing else.

* `Course.Paced` — the invariant.
* `Course.Step.paced`, `Course.Reaches.paced` — it holds of every course.
* `Course.Reaches.ahead` — in order, the elements that have been taken are at most
  `concurrency` ahead of the next release.
-/

namespace PullStream.Dispatcher

variable {τ β : Type}

/-- Workers that may still run, also those that nobody will join. -/
def running (d : Dispatcher τ β) : Nat :=
  d.workers.length + d.detached.length

/-- Results that wait for their turn. -/
def parked (d : Dispatcher τ β) : Nat :=
  d.reorder.size

/-- Items that the feed has accepted and not handed out. -/
def undelivered (d : Dispatcher τ β) : Nat :=
  d.feed.pending

namespace Course

variable {around : Surroundings β} {s s' : Course τ β} {concurrency : Nat} {keepOrder : Bool}

/-- How much a dispatcher holds, and what its leave to take an element is worth. -/
structure Paced (concurrency : Nat) (s : Course τ β) : Prop where
  attached : s.dispatcher.phase ≠ .stopped → s.dispatcher.detached = []
  inFlight : s.dispatcher.running + s.dispatcher.parked ≤ concurrency
  held : s.dispatcher.running + s.dispatcher.parked + s.dispatcher.undelivered < 2 * concurrency
  leave : s.stage = .resting → ∀ {read}, s.dispatcher.phase = .selecting true read →
    s.dispatcher.inFlight < concurrency ∧ s.dispatcher.undelivered < concurrency

/-! ### A result that has been got -/

theorem insert_size_le {ρ : Type} (b : Reorder ρ) (index : Nat) (r : ρ) :
    (b.insert index r).size ≤ b.size + 1 :=
  Nat.succ_le_succ (List.length_filter_le _ _)

/-- The workers that are left run on, joined or not. -/
theorem got_running (s : Course τ β) (d : Dispatcher τ β) (index : Nat)
    (r : Except Failure (Option β)) (event : Event β) :
    (s.got d index r event).dispatcher.running = d.workers.length + d.detached.length := by
  cases ordered : d.keepOrder with
  | true =>
    rw [got_ordered ordered]
    rfl
  | false =>
    rw [got_unordered ordered]
    cases (Dispatcher.deliver d.feed r).2 with
    | true => rfl
    | false => simp [running, next, Dispatcher.stop, delivered, Nat.add_comm]

/-- A result is parked, or it goes into the feed. -/
theorem got_held (s : Course τ β) {d : Dispatcher τ β} (isOpen : d.feed.closed = false)
    (index : Nat) (r : Except Failure (Option β)) (event : Event β) :
    (s.got d index r event).dispatcher.parked ≤ d.reorder.size + 1 ∧
      (s.got d index r event).dispatcher.parked + (s.got d index r event).dispatcher.undelivered ≤
        d.reorder.size + d.feed.pending + 1 := by
  cases ordered : d.keepOrder with
  | true =>
    have size := insert_size_le d.reorder index r
    rw [got_ordered ordered]
    simp only [parked, undelivered, park]
    omega
  | false =>
    have put := (deliver_deposited isOpen r).pending_le
    have same : (s.got d index r event).dispatcher.parked = d.reorder.size ∧
        (s.got d index r event).dispatcher.undelivered =
          (Dispatcher.deliver d.feed r).1.pending := by
      rw [got_unordered ordered]
      cases (Dispatcher.deliver d.feed r).2 <;> exact ⟨rfl, rfl⟩
    omega

theorem got_attached (s : Course τ β) {d : Dispatcher τ β} (attached : d.detached = [])
    (index : Nat) (r : Except Failure (Option β)) (event : Event β) :
    (s.got d index r event).dispatcher.phase ≠ .stopped →
      (s.got d index r event).dispatcher.detached = [] := by
  cases ordered : d.keepOrder with
  | true =>
    rw [got_ordered ordered]
    exact fun _ => attached
  | false =>
    rw [got_unordered ordered]
    cases (Dispatcher.deliver d.feed r).2 with
    | true => exact fun _ => attached
    | false => exact fun going => absurd rfl going

/-- A result that has been got ends the round, or begins a release. -/
theorem got_stage (s : Course τ β) (d : Dispatcher τ β) (index : Nat)
    (r : Except Failure (Option β)) (event : Event β) :
    (s.got d index r event).stage = .resting → ∀ {mayPull read},
      (s.got d index r event).dispatcher.phase ≠ .selecting mayPull read := by
  cases ordered : d.keepOrder with
  | true =>
    rw [got_ordered ordered]
    simp
  | false =>
    rw [got_unordered ordered]
    cases (Dispatcher.deliver d.feed r).2 with
    | true => simp [next]
    | false => simp [next, Dispatcher.stop]

/-- What a release puts into the feed it takes out of the buffer. -/
theorem delivered_held {d : Dispatcher τ β} (isOpen : d.feed.closed = false)
    {r : Except Failure (Option β)} {b : Reorder (Except Failure (Option β))}
    (ready : d.reorder.popReady = some (r, b)) :
    b.size ≤ d.reorder.size ∧
      b.size + (Dispatcher.deliver d.feed r).1.pending ≤ d.reorder.size + d.feed.pending := by
  have smaller := Reorder.size_lt_of_popReady ready
  have put := (deliver_deposited isOpen r).pending_le
  constructor
  · omega
  · omega

/-! ### The invariant -/

namespace Paced

theorem start (positive : 0 < concurrency) :
    Paced concurrency ({ dispatcher := { concurrency, keepOrder } } : Course τ β) where
  attached _ := rfl
  inFlight := Nat.zero_le _
  held := Nat.mul_pos Nat.two_pos positive
  leave _ _ selecting := by cases selecting

/-- Where nothing more is held, only the leave to take an element has to be seen to. -/
theorem eased (p : Paced concurrency s)
    (attached : s'.dispatcher.phase ≠ .stopped → s'.dispatcher.detached = [])
    (running : s'.dispatcher.running ≤ s.dispatcher.running)
    (parked : s'.dispatcher.parked ≤ s.dispatcher.parked)
    (held : s'.dispatcher.parked + s'.dispatcher.undelivered ≤
      s.dispatcher.parked + s.dispatcher.undelivered)
    (leave : s'.stage = .resting → ∀ {read}, s'.dispatcher.phase = .selecting true read →
      s'.dispatcher.inFlight < concurrency ∧ s'.dispatcher.undelivered < concurrency) :
    Paced concurrency s' := by
  have inFlight := p.inFlight
  have all := p.held
  refine ⟨attached, ?_, ?_, leave⟩
  · omega
  · omega

/-- By the leave to take an element there is room for one more. -/
theorem room (p : Paced concurrency s) {read : Feed.Waiter} (resting : s.stage = .resting)
    (phase : s.dispatcher.phase = .selecting true read) :
    s.dispatcher.workers.length + s.dispatcher.parked < concurrency ∧
      s.dispatcher.workers.length + s.dispatcher.parked + s.dispatcher.undelivered + 1 <
        2 * concurrency := by
  obtain ⟨room, backlog⟩ := p.leave resting phase
  rw [Dispatcher.inFlight] at room
  rw [parked]
  constructor
  · exact room
  · omega

/-- A result that is got is one more that is held, besides the workers that are left. -/
theorem got (p : Paced concurrency s) (a : Afoot s) (going : s.dispatcher.phase ≠ .stopped)
    {d : Dispatcher τ β} (feed : d.feed = s.dispatcher.feed)
    (reorder : d.reorder = s.dispatcher.reorder) (detached : d.detached = s.dispatcher.detached)
    (room : d.workers.length + s.dispatcher.parked < concurrency)
    (all : d.workers.length + s.dispatcher.parked + s.dispatcher.undelivered + 1 < 2 * concurrency)
    (index : Nat) (r : Except Failure (Option β)) (event : Event β) :
    Paced concurrency (s.got d index r event) := by
  have attached : d.detached = [] := detached.trans (p.attached going)
  have isOpen : d.feed.closed = false := feed ▸ a.isOpen going
  have runs := got_running s d index r event
  obtain ⟨waits, held⟩ := got_held s isOpen index r event
  rw [attached, List.length_nil, Nat.add_zero] at runs
  rw [reorder] at waits held
  rw [feed] at held
  rw [parked] at room all
  rw [undelivered] at all
  constructor
  · exact got_attached s attached index r event
  · omega
  · omega
  · intro rests _ selecting
    exact absurd selecting (got_stage s d index r event rests)

end Paced

/-- A dispatcher that stops leaves its workers alone. -/
theorem stop_running (d : Dispatcher τ β) :
    d.stop.workers.length + d.stop.detached.length = d.workers.length + d.detached.length := by
  simp [Dispatcher.stop, Nat.add_comm]

theorem Works.paced (works : Works s s') (constant : s.dispatcher.concurrency = concurrency)
    (a : Afoot s) (p : Paced concurrency s) : Paced concurrency s' := by
  have poised := a.poised
  have stays := Nat.le_of_eq (stop_running s.dispatcher)
  cases works with
  | register resting phase =>
    exact p.eased (fun _ => p.attached (by simp [phase])) (Nat.le_refl _) (Nat.le_refl _)
      (Nat.le_refl _) (by simp)
  | leave stage _ =>
    exact p.eased (fun going => absurd rfl going) stays (Nat.le_refl _) (Nat.le_refl _)
      (fun _ _ selecting => by cases selecting)
  | stay stage _ =>
    rw [stage] at poised
    exact p.eased (fun _ => p.attached (by simp [poised.registered.1])) (Nat.le_refl _)
      (Nat.le_refl _) (Nat.le_refl _) (by simp)
  | close stage _ _ =>
    exact p.eased (fun going => absurd rfl going) stays (Nat.le_refl _) (Nat.le_refl _)
      (fun _ _ selecting => by cases selecting)
  | select stage _ =>
    rw [stage] at poised
    refine p.eased (fun _ => p.attached (by simp [poised.attended.1])) (Nat.le_refl _)
      (Nat.le_refl _) (Nat.le_refl _) ?_
    intro _ read selecting
    have leave : s.dispatcher.mayPull = true := by
      injection selecting
    simp only [mayPull, Bool.and_eq_true, decide_eq_true_eq] at leave
    rw [constant] at leave
    exact ⟨leave.2, leave.1.2⟩
  | notice resting phase _ =>
    exact p.eased (fun _ => p.attached (by simp [phase])) (Nat.le_refl _) (Nat.le_refl _)
      (Nat.le_refl _) (fun _ _ selecting => by cases selecting)
  | @deliver r b stage ready _ =>
    rw [stage] at poised
    obtain ⟨mayPull, read, phase⟩ := poised.releasing
    have going : s.dispatcher.phase ≠ .stopped := by simp [phase]
    obtain ⟨fewer, held⟩ := delivered_held (a.isOpen going) ready
    refine p.eased (fun _ => p.attached going) (Nat.le_refl _) fewer held ?_
    intro resting
    cases stage.symm.trans resting
  | @stop r b stage ready _ =>
    rw [stage] at poised
    obtain ⟨mayPull, read, phase⟩ := poised.releasing
    obtain ⟨fewer, held⟩ := delivered_held (a.isOpen (by simp [phase])) ready
    exact p.eased (fun going => absurd rfl going) stays fewer held
      (fun _ _ selecting => by cases selecting)
  | settle stage _ =>
    rw [stage] at poised
    obtain ⟨mayPull, read, phase⟩ := poised.releasing
    exact p.eased (fun _ => p.attached (by simp [phase])) (Nat.le_refl _) (Nat.le_refl _)
      (Nat.le_refl _) (fun _ _ selecting => by cases selecting)

theorem Meets.paced (meets : Meets around s s') (a : Afoot s) (p : Paced concurrency s) :
    Paced concurrency s' := by
  cases meets with
  | @join mayPull read index outcome resting phase member _ =>
    have going : s.dispatcher.phase ≠ .stopped := by simp [phase]
    -- The result takes the place of the worker.
    have fewer := length_filter_ne_lt member
    have inFlight := p.inFlight
    have all := p.held
    rw [running] at inFlight all
    refine p.got a going (by rfl) (by rfl) (by rfl) ?_ ?_ _ _ _
    · dsimp only
      omega
    · dsimp only
      omega
  | @start read worker resting phase _ =>
    have going : s.dispatcher.phase ≠ .stopped := by simp [phase]
    obtain ⟨room, all⟩ := p.room resting phase
    have attached := p.attached going
    have runs : (s.dispatcher.pulled (.started worker)).running =
        s.dispatcher.workers.length + 1 := by
      simp [running, pulled, Dispatcher.next, attached]
    constructor
    · intro _
      exact attached
    · rw [runs]
      change _ + s.dispatcher.parked ≤ _
      omega
    · rw [runs]
      change _ + s.dispatcher.parked + s.dispatcher.undelivered < _
      omega
    · intro _ _ selecting
      cases selecting
  | panic resting phase _ _ =>
    obtain ⟨room, all⟩ := p.room resting phase
    refine p.got a (by simp [phase]) (by rfl) (by rfl) (by rfl) ?_ ?_ _ _ _
    · exact room
    · exact all
  | fail resting phase _ =>
    obtain ⟨room, all⟩ := p.room resting phase
    refine p.got a (by simp [phase]) (by rfl) (by rfl) (by rfl) ?_ ?_ _ _ _
    · exact room
    · exact all
  | finish resting phase _ =>
    exact p.eased (fun _ => p.attached (by simp [phase])) (Nat.le_refl _) (Nat.le_refl _)
      (Nat.le_refl _) (fun _ _ selecting => by cases selecting)
  | broke resting phase _ =>
    refine p.eased (fun going => absurd rfl going) ?_ (Nat.le_refl _) (Nat.le_refl _)
      (fun _ _ selecting => by cases selecting)
    exact Nat.add_le_add_right (Nat.zero_le _) _

theorem Step.paced (step : Step around s s') (constant : s.dispatcher.concurrency = concurrency)
    (a : Afoot s) (p : Paced concurrency s) : Paced concurrency s' := by
  cases step with
  | works works => exact works.paced constant a p
  | meets meets => exact meets.paced a p
  | @stir workers detached same fewer =>
    have length : workers.length = s.dispatcher.workers.length := by
      simpa using congrArg List.length same
    refine p.eased ?_ ?_ (Nat.le_refl _) (Nat.le_refl _) ?_
    · intro going
      exact List.sublist_nil.mp (p.attached going ▸ fewer)
    · rw [running, running, length]
      exact Nat.add_le_add_left fewer.length_le _
    · intro resting read phase
      rw [Dispatcher.inFlight, length]
      exact p.leave resting phase
  | refill =>
    have same : s.dispatcher.feed.refill.pending = s.dispatcher.undelivered := Feed.refill_pending _
    refine p.eased p.attached (Nat.le_refl _) (Nat.le_refl _) ?_ ?_
    · rw [undelivered, same]
      exact Nat.le_refl _
    · intro resting read phase
      rw [undelivered, same]
      exact p.leave resting phase
  | poll _ =>
    have less : s.dispatcher.feed.poll.2.pending ≤ s.dispatcher.undelivered :=
      Feed.poll_pending_le _
    unfold Dispatcher.poll
    split
    · rename_i idle
      exact p.eased (fun _ => p.attached (by simp [idle])) (Nat.le_refl _) (Nat.le_refl _)
        (Nat.le_refl _) (fun _ _ selecting => by cases selecting)
    · refine p.eased p.attached (Nat.le_refl _) (Nat.le_refl _) ?_ ?_
      · exact Nat.add_le_add_left less _
      · intro resting read phase
        obtain ⟨room, backlog⟩ := p.leave resting phase
        exact ⟨room, Nat.lt_of_le_of_lt less backlog⟩
  | drop _ =>
    unfold Dispatcher.drop
    split
    · exact p.eased (fun going => absurd rfl going) (Nat.le_of_eq (stop_running s.dispatcher))
        (Nat.le_refl _) (Nat.le_refl _) (fun _ _ selecting => by cases selecting)
    · exact p.eased p.attached (Nat.le_refl _) (Nat.le_refl _) (Nat.le_refl _) p.leave

theorem Reaches.paced (positive : 0 < concurrency)
    (reached : Reaches around concurrency keepOrder s) : Paced concurrency s := by
  induction reached with
  | start => exact .start positive
  | step reached step ih => exact step.paced reached.constant.1 reached.afoot ih

/-! ### How far ahead -/

/-- An element is taken at most `concurrency` positions ahead of the next release. -/
theorem Paced.leave_ahead (paced : Paced concurrency s) (p : Placed s)
    (ordered : s.dispatcher.keepOrder = true) {read : Feed.Waiter} (resting : s.stage = .resting)
    (phase : s.dispatcher.phase = .selecting true read) :
    s.dispatcher.dispatched < s.dispatcher.reorder.next + concurrency := by
  have taken := p.counted (p.leave resting phase)
  have inFlight := p.in_flight ordered (by simp [phase])
  have room := (paced.leave resting phase).1
  omega

/-- A step that hands an element to a worker has leave to, and hands out the next one. -/
theorem Step.hands (step : Step around s s') {event : Event β} {index : Nat}
    (events : s'.events = s.events ++ [event]) (handed : event.handed? = some index) :
    index = s.dispatcher.dispatched ∧ s.stage = .resting ∧
      ∃ read, s.dispatcher.phase = .selecting true read := by
  have other : ∀ {event'}, s'.events = s.events ++ [event'] → event' = event := by
    intro event' same
    simpa using same.symm.trans events
  have some : s'.events ≠ s.events := by
    intro same
    simp [events] at same
  cases step with
  | works works =>
    cases works with
    | notice =>
      cases other rfl
      cases handed
    | _ => exact absurd rfl some
  | meets meets =>
    cases meets with
    | join =>
      cases other (got_events _ _ _ _ _)
      cases handed
    | start resting phase _ =>
      cases other rfl
      cases handed
      exact ⟨rfl, resting, _, phase⟩
    | panic resting phase _ _ =>
      cases other (got_events _ _ _ _ _)
      cases handed
      exact ⟨rfl, resting, _, phase⟩
    | fail =>
      cases other (got_events _ _ _ _ _)
      cases handed
    | finish =>
      cases other rfl
      cases handed
    | broke => exact absurd rfl some
  | stir => exact absurd rfl some
  | refill => exact absurd rfl some
  | poll => exact absurd rfl some
  | drop => exact absurd rfl some

/-- The next release never goes back, and elements are taken one after the other. -/
theorem Works.next_le (works : Works s s') :
    s.dispatcher.reorder.next ≤ s'.dispatcher.reorder.next ∧
      s'.dispatcher.dispatched = s.dispatcher.dispatched := by
  cases works with
  | deliver _ ready _ =>
    exact ⟨(Reorder.popReady_some ready).2.1 ▸ Nat.le_succ _, rfl⟩
  | stop _ ready _ =>
    exact ⟨(Reorder.popReady_some ready).2.1 ▸ Nat.le_succ _, rfl⟩
  | _ => exact ⟨Nat.le_refl _, rfl⟩

theorem got_next (s : Course τ β) (d : Dispatcher τ β) (index : Nat)
    (r : Except Failure (Option β)) (event : Event β) :
    (s.got d index r event).dispatcher.reorder.next = d.reorder.next ∧
      (s.got d index r event).dispatcher.dispatched = d.dispatched := by
  cases ordered : d.keepOrder with
  | true =>
    rw [got_ordered ordered]
    exact ⟨rfl, rfl⟩
  | false =>
    rw [got_unordered ordered]
    cases (Dispatcher.deliver d.feed r).2 <;> exact ⟨rfl, rfl⟩

/-- In order, the elements that have been taken are at most `concurrency` ahead of the next
release. -/
def Ahead (concurrency : Nat) (s : Course τ β) : Prop :=
  s.dispatcher.dispatched ≤ s.dispatcher.reorder.next + concurrency

theorem Step.ahead (step : Step around s s') (ordered : s.dispatcher.keepOrder = true)
    (p : Placed s) (paced : Paced concurrency s) (ahead : Ahead concurrency s) :
    Ahead concurrency s' := by
  cases step with
  | works works =>
    obtain ⟨later, same⟩ := works.next_le
    rw [Ahead, same]
    exact Nat.le_trans ahead (Nat.add_le_add_right later _)
  | meets meets =>
    cases meets with
    | join =>
      rw [Ahead, (got_next _ _ _ _ _).1, (got_next _ _ _ _ _).2]
      exact ahead
    | start resting phase _ => exact paced.leave_ahead p ordered resting phase
    | panic resting phase _ _ =>
      rw [Ahead, (got_next _ _ _ _ _).1, (got_next _ _ _ _ _).2]
      exact paced.leave_ahead p ordered resting phase
    | fail =>
      rw [Ahead, (got_next _ _ _ _ _).1, (got_next _ _ _ _ _).2]
      exact ahead
    | finish => exact ahead
    | broke => exact ahead
  | stir => exact ahead
  | refill => exact ahead
  | poll =>
    unfold Dispatcher.poll
    split <;> exact ahead
  | drop =>
    unfold Dispatcher.drop
    split <;> exact ahead

theorem Reaches.ahead (positive : 0 < concurrency)
    (reached : Reaches around concurrency true s) : Ahead concurrency s := by
  induction reached with
  | start => exact Nat.zero_le _
  | step reached step ih =>
    exact step.ahead reached.constant.2 reached.placed (reached.paced positive) ih

end Course
end PullStream.Dispatcher
