import PullStream.Proofs.Parallel.Course

/-!
Where the positions of a course are.

Every position that has been taken is with a worker, or its result has been got, and not
both (`Placed.known`). In order, the results that have been got are those that have been
released, which are the first positions, and those that are parked (`Placed.kept`). So no
position is parked twice or after its release, and how far a dispatcher is ahead of its
next release is how much it has in flight.

* `Deposited` — what the delivery of a result to an open feed comes to.
* `Course.Afoot` — a dispatcher that goes on has an open feed and its waiter.
* `Course.Placed` — where the positions are.
* `Course.Reaches.afoot`, `Course.Reaches.placed` — both hold of every course.
* `Course.Manned`, `Course.Onward` — whose elements the workers have, and when one is taken.
-/

namespace PullStream.Dispatcher

variable {τ β : Type}

/-! ### Delivery -/

/-- What the delivery of a result to an open feed comes to: the feed, and whether the
dispatcher goes on. -/
inductive Deposited (f : Feed β) : Except Failure (Option β) → Feed β → Bool → Prop where
  | value {b f'} : f.feed b = .ok f' → Deposited f (.ok (some b)) f' true
  | nothing : Deposited f (.ok none) f true
  | failure {e f'} : f.throw e = .ok f' → Deposited f (.error e) f' false

theorem deliver_deposited {f : Feed β} (isOpen : f.closed = false)
    (r : Except Failure (Option β)) : Deposited f r (deliver f r).1 (deliver f r).2 := by
  rcases r with e | _ | b
  · obtain ⟨f', thrown⟩ := Feed.throw_open isOpen e
    simp only [deliver, thrown]
    exact .failure thrown
  · exact .nothing
  · obtain ⟨f', fed⟩ := Feed.feed_open isOpen b
    simp only [deliver, fed]
    exact .value fed

namespace Deposited

variable {f f' : Feed β} {r : Except Failure (Option β)} {goOn : Bool}

theorem isOpen (isOpen : f.closed = false) (put : Deposited f r f' true) : f'.closed = false := by
  cases put with
  | value fed => exact (Feed.feed_ok fed).2.2.1.trans isOpen
  | nothing => exact isOpen

/-- The feed has accepted what the result comes to. -/
theorem sound {accepted : List (Except Failure β)} {answers : List (Answer β)}
    (put : Deposited f r f' goOn) (s : Feed.Sound f accepted answers) :
    Feed.Sound f' (accepted ++ inOrder [r]) answers := by
  cases put with
  | value fed => exact s.feed fed
  | nothing =>
    rw [inOrder, inOrder, List.append_nil]
    exact s
  | failure thrown => exact s.throw thrown

/-- The dispatcher goes on unless the result is a failure. -/
theorem clean (put : Deposited f r f' true) (e : Failure) : r ≠ .error e := by
  cases put with
  | value fed => simp
  | nothing => simp

/-- What ends the loop is a failure, thrown into the feed. -/
theorem failed (put : Deposited f r f' false) : ∃ e, r = .error e ∧ f.throw e = .ok f' := by
  cases put with
  | failure thrown => exact ⟨_, rfl, thrown⟩

theorem counted (put : Deposited f r f' goOn) (c : Feed.Counted f) : Feed.Counted f' := by
  cases put with
  | value fed => exact c.feed fed
  | nothing => exact c
  | failure thrown => exact c.throw thrown

theorem reads (put : Deposited f r f' goOn) : f'.reads = f.reads := by
  cases put with
  | value fed => exact (Feed.feed_counts fed).2
  | nothing => rfl
  | failure thrown => exact (Feed.throw_counts thrown).2

theorem pending_le (put : Deposited f r f' goOn) : f'.pending ≤ f.pending + 1 := by
  cases put with
  | value fed => exact Nat.le_of_eq (Feed.feed_counts fed).1
  | nothing => exact Nat.le_succ _
  | failure thrown => exact Nat.le_succ_of_le (Nat.le_of_eq (Feed.throw_counts thrown).1)

theorem abandoned (put : Deposited f r f' goOn) : f'.abandoned = f.abandoned := by
  cases put with
  | value fed => exact (Feed.feed_ok fed).2.2.2.abandoned
  | nothing => rfl
  | failure thrown => exact (Feed.throw_ok thrown).2.2.2.abandoned

end Deposited

namespace Course

variable {around : Surroundings β} {s s' : Course τ β} {concurrency : Nat} {keepOrder : Bool}

/-! ### A dispatcher that goes on -/

/-- Where a dispatcher may stand: it surveys at the head of its loop, it selects when it
releases, and it has a waiter for the feed when it needs one. -/
def Poised (f : Feed β) : Stage → Phase → Prop
  | .resting, .selecting _ read => read.Made f
  | .resting, _ => True
  | .registered read, .surveying => read.Made f
  | .attended read, .surveying => read.Made f
  | .releasing, .selecting _ _ => True
  | _, _ => False

theorem Poised.mono {f f' : Feed β} {stage : Stage} {phase : Phase} (p : Poised f stage phase)
    (later : f.reads ≤ f'.reads) : Poised f' stage phase := by
  unfold Poised at p ⊢
  split at p
  · exact p.mono later
  · trivial
  · exact p.mono later
  · exact p.mono later
  · trivial
  · exact p.elim

/-- While a release goes on, the dispatcher is still selecting. -/
theorem Poised.releasing {f : Feed β} {phase : Phase} (p : Poised f .releasing phase) :
    ∃ mayPull read, phase = .selecting mayPull read := by
  cases phase with
  | selecting mayPull read => exact ⟨mayPull, read, rfl⟩
  | idle => exact p.elim
  | surveying => exact p.elim
  | stopped => exact p.elim

theorem Poised.registered {f : Feed β} {read : Feed.Waiter} {phase : Phase}
    (p : Poised f (.registered read) phase) : phase = .surveying ∧ read.Made f := by
  cases phase with
  | surveying => exact ⟨rfl, p⟩
  | idle => exact p.elim
  | selecting => exact p.elim
  | stopped => exact p.elim

theorem Poised.attended {f : Feed β} {read : Feed.Waiter} {phase : Phase}
    (p : Poised f (.attended read) phase) : phase = .surveying ∧ read.Made f := by
  cases phase with
  | surveying => exact ⟨rfl, p⟩
  | idle => exact p.elim
  | selecting => exact p.elim
  | stopped => exact p.elim

theorem Poised.resting_of_idle {f : Feed β} {stage : Stage} (p : Poised f stage .idle) :
    stage = .resting := by
  cases stage with
  | resting => rfl
  | registered => exact p.elim
  | attended => exact p.elim
  | releasing => exact p.elim

/-- The feed of a dispatcher is in order, and open until the dispatcher stops. -/
structure Afoot (s : Course τ β) : Prop where
  isOpen : s.dispatcher.phase ≠ .stopped → s.dispatcher.feed.closed = false
  books : ∃ accepted, Feed.Sound s.dispatcher.feed accepted s.answers
  counted : s.dispatcher.feed.Counted
  poised : Poised s.dispatcher.feed s.stage s.dispatcher.phase

namespace Afoot

theorem start : Afoot ({ dispatcher := { concurrency, keepOrder } } : Course τ β) :=
  ⟨fun _ => rfl, ⟨[], Feed.Sound.start⟩, Feed.Counted.start, trivial⟩

/-- Where neither feed nor answers change, only the dispatcher's own place has to be seen
to. -/
theorem moved (a : Afoot s) (feed : s'.dispatcher.feed = s.dispatcher.feed)
    (answers : s'.answers = s.answers) (running : s.dispatcher.phase ≠ .stopped)
    (poised : Poised s.dispatcher.feed s'.stage s'.dispatcher.phase) : Afoot s' := by
  refine ⟨fun _ => ?_, ?_, ?_, ?_⟩
  · rw [feed]
    exact a.isOpen running
  · rw [feed, answers]
    exact a.books
  · rw [feed]
    exact a.counted
  · rwa [feed]

/-- A result goes into the feed. -/
theorem deposit (a : Afoot s) (running : s.dispatcher.phase ≠ .stopped)
    {r : Except Failure (Option β)} (answers : s'.answers = s.answers)
    (feed : s'.dispatcher.feed = (Dispatcher.deliver s.dispatcher.feed r).1)
    (goesOn : s'.dispatcher.phase ≠ .stopped → (Dispatcher.deliver s.dispatcher.feed r).2 = true)
    (poised : Poised s.dispatcher.feed s'.stage s'.dispatcher.phase) : Afoot s' := by
  have isOpen := a.isOpen running
  have put := deliver_deposited isOpen r
  obtain ⟨accepted, sound⟩ := a.books
  refine ⟨fun going => ?_, ?_, ?_, ?_⟩
  · rw [goesOn going] at put
    rw [feed]
    exact put.isOpen isOpen
  · rw [feed, answers]
    exact ⟨_, put.sound sound⟩
  · rw [feed]
    exact put.counted a.counted
  · rw [feed]
    exact poised.mono (Nat.le_of_eq put.reads.symm)

theorem got (a : Afoot s) {mayPull : Bool} {read : Feed.Waiter} (resting : s.stage = .resting)
    (phase : s.dispatcher.phase = .selecting mayPull read) {d : Dispatcher τ β}
    (feed : d.feed = s.dispatcher.feed) (same : d.phase = s.dispatcher.phase) (index : Nat)
    (r : Except Failure (Option β)) (event : Event β) : Afoot (s.got d index r event) := by
  have running : s.dispatcher.phase ≠ .stopped := by simp [phase]
  cases ordered : d.keepOrder with
  | true =>
    rw [got_ordered ordered]
    refine a.moved feed rfl running ?_
    simp [Poised, park, same, phase]
  | false =>
    rw [got_unordered ordered, feed]
    cases goOn : (Dispatcher.deliver s.dispatcher.feed r).2 with
    | true =>
      refine a.deposit (r := r) running rfl ?_ (fun _ => goOn) ?_
      · simp [next, delivered, feed]
      · simp [resting, next, Poised]
    | false =>
      refine a.deposit (r := r) running rfl ?_ (fun going => absurd rfl going) ?_
      · simp [next, Dispatcher.stop, delivered, feed]
      · simp [resting, next, Dispatcher.stop, Poised]

end Afoot

theorem Works.afoot (works : Works s s') (a : Afoot s) : Afoot s' := by
  have poised := a.poised
  cases works with
  | register resting phase =>
    refine a.moved rfl rfl (by simp [phase]) ?_
    rw [phase]
    exact Feed.waiter_made _
  | leave stage _ =>
    rw [stage] at poised
    exact a.moved rfl rfl (by simp [poised.registered.1]) trivial
  | stay stage _ =>
    rw [stage] at poised
    refine a.moved rfl rfl (by simp [poised.registered.1]) ?_
    rw [poised.registered.1]
    exact poised.registered.2
  | close stage _ _ =>
    rw [stage] at poised
    obtain ⟨accepted, sound⟩ := a.books
    exact ⟨fun going => absurd rfl going, ⟨accepted, sound.close⟩, a.counted.close, trivial⟩
  | select stage _ =>
    rw [stage] at poised
    exact a.moved rfl rfl (by simp [poised.attended.1]) poised.attended.2
  | notice resting phase _ =>
    refine a.moved rfl rfl (by simp [phase]) ?_
    rw [resting]
    trivial
  | deliver stage _ goOn =>
    rw [stage] at poised
    obtain ⟨mayPull, read, phase⟩ := poised.releasing
    refine a.deposit (by simp [phase]) rfl rfl (fun _ => goOn) ?_
    rw [stage]
    exact poised
  | stop stage _ _ =>
    rw [stage] at poised
    obtain ⟨mayPull, read, phase⟩ := poised.releasing
    exact a.deposit (by simp [phase]) rfl rfl (fun going => absurd rfl going) trivial
  | settle stage _ =>
    rw [stage] at poised
    obtain ⟨mayPull, read, phase⟩ := poised.releasing
    exact a.moved rfl rfl (by simp [phase]) trivial

theorem Meets.afoot (meets : Meets around s s') (a : Afoot s) : Afoot s' := by
  cases meets with
  | join resting phase _ _ => exact a.got resting phase (by rfl) (by rfl) _ _ _
  | start resting phase _ =>
    refine a.moved rfl rfl (by simp [phase]) ?_
    rw [resting]
    trivial
  | panic resting phase _ _ => exact a.got resting phase (by rfl) (by rfl) _ _ _
  | fail resting phase _ => exact a.got resting phase (by rfl) (by rfl) _ _ _
  | finish resting phase _ =>
    refine a.moved rfl rfl (by simp [phase]) ?_
    rw [resting]
    trivial
  | broke resting phase _ =>
    refine a.moved rfl rfl (by simp [phase]) ?_
    rw [resting]
    trivial

theorem Step.afoot (step : Step around s s') (a : Afoot s) : Afoot s' := by
  obtain ⟨isOpen, ⟨accepted, sound⟩, counted, poised⟩ := id a
  cases step with
  | works works => exact works.afoot a
  | meets meets => exact meets.afoot a
  | stir => exact ⟨isOpen, ⟨accepted, sound⟩, counted, poised⟩
  | refill =>
    refine ⟨fun going => ?_, ⟨accepted, sound.refill⟩, counted.refill, ?_⟩
    · exact s.dispatcher.feed.refill_untouched.closed.trans (isOpen going)
    · exact poised.mono (by simp)
  | poll present =>
    unfold Dispatcher.poll
    split
    · rename_i idle
      refine ⟨fun _ => isOpen (by simp [idle]), ⟨accepted, sound.skip⟩, counted, ?_⟩
      rw [idle] at poised
      rw [poised.resting_of_idle]
      trivial
    · refine ⟨fun going => ?_, ⟨accepted, sound.poll present⟩, counted.poll sound present, ?_⟩
      · exact s.dispatcher.feed.poll_untouched.closed.trans (isOpen going)
      · exact poised.mono s.dispatcher.feed.reads_le_poll
  | drop _ =>
    unfold Dispatcher.drop
    split
    · rename_i idle
      refine ⟨fun going => absurd rfl going, ⟨accepted, sound.drop⟩, counted.drop, ?_⟩
      rw [idle] at poised
      rw [poised.resting_of_idle]
      trivial
    · exact ⟨isOpen, ⟨accepted, sound.drop⟩, counted.drop, poised.mono (Nat.le_succ _)⟩

theorem Reaches.afoot (reached : Reaches around concurrency keepOrder s) : Afoot s := by
  induction reached with
  | start => exact .start
  | step _ step ih => exact step.afoot ih

/-! ### Books -/

/-- The positions of the results that the dispatcher has got, in the order in which it got
them. -/
def positions (s : Course τ β) : List Nat :=
  s.observed.map Prod.fst

theorem got_events (s : Course τ β) (d : Dispatcher τ β) (index : Nat)
    (r : Except Failure (Option β)) (event : Event β) :
    (s.got d index r event).events = s.events ++ [event] := by
  unfold got
  split <;> rfl

/-- A result that has been got comes behind the others. -/
theorem got_observed (s : Course τ β) (d : Dispatcher τ β) {index : Nat}
    {r : Except Failure (Option β)} {event : Event β} (brings : event.result? = some (index, r)) :
    (s.got d index r event).observed = s.observed ++ [(index, r)] := by
  simp [observed, got_events, brings]

theorem got_positions (s : Course τ β) (d : Dispatcher τ β) {index : Nat}
    {r : Except Failure (Option β)} {event : Event β} (brings : event.result? = some (index, r)) :
    (s.got d index r event).positions = s.positions ++ [index] := by
  rw [positions, got_observed s d brings, List.map_append]
  rfl

/-- By itself a dispatcher gets no result. -/
theorem Works.observed_eq (works : Works s s') : s'.observed = s.observed := by
  cases works with
  | notice => simp [observed, Event.result?]
  | _ => rfl

theorem got_taken (s : Course τ β) (d : Dispatcher τ β) (index : Nat)
    (r : Except Failure (Option β)) (event : Event β) :
    (s.got d index r event).taken = s.taken + event.takes.toNat := by
  rw [taken, got_events, List.countP_append, taken]
  cases h : event.takes <;> simp [h]

/-! ### Places -/

/-- Where the positions are that have been taken. -/
structure Placed (s : Course τ β) : Prop where
  known : s.dispatcher.phase ≠ .stopped →
    (s.dispatcher.workers.map Prod.fst ++ s.positions).Perm (List.range s.taken)
  distinct : s.positions.Nodup
  below : ∀ i ∈ s.positions, i < s.taken
  counted : s.dispatcher.exhausted = false → s.taken = s.dispatcher.dispatched
  kept : s.dispatcher.keepOrder = true →
    s.positions.Perm
      (List.range s.dispatcher.reorder.next ++ s.dispatcher.reorder.parked.map Prod.fst)
  free : s.dispatcher.keepOrder = false → s.dispatcher.reorder.parked = []
  unready : s.dispatcher.phase ≠ .stopped → s.stage ≠ .releasing →
    s.dispatcher.reorder.next ∉ s.dispatcher.reorder.parked.map Prod.fst
  leave : s.stage = .resting → ∀ {read}, s.dispatcher.phase = .selecting true read →
    s.dispatcher.exhausted = false

namespace Placed

theorem start : Placed ({ dispatcher := { concurrency, keepOrder } } : Course τ β) where
  known _ := .refl _
  distinct := List.nodup_nil
  below _ member := absurd member List.not_mem_nil
  counted _ := rfl
  kept _ := .refl _
  free _ := rfl
  unready _ _ := List.not_mem_nil
  leave _ _ selecting := by cases selecting

/-- No position has two workers. -/
theorem workers_nodup (p : Placed s) (running : s.dispatcher.phase ≠ .stopped) :
    (s.dispatcher.workers.map Prod.fst).Nodup :=
  List.Nodup.of_append_left ((p.known running).nodup_iff.mpr List.nodup_range)

/-- No position is parked twice, or after its release. -/
theorem kept_nodup (p : Placed s) (ordered : s.dispatcher.keepOrder = true) :
    (List.range s.dispatcher.reorder.next ++ s.dispatcher.reorder.parked.map Prod.fst).Nodup :=
  (p.kept ordered).nodup_iff.mp p.distinct

/-- The next position comes behind those that have been taken. -/
theorem known_next (p : Placed s) (running : s.dispatcher.phase ≠ .stopped) :
    (s.taken :: (s.dispatcher.workers.map Prod.fst ++ s.positions)).Perm
      (List.range (s.taken + 1)) := by
  rw [List.range_succ]
  exact ((p.known running).cons _).trans (List.perm_append_singleton _ _).symm

/-- A result of a position that is new has neither been released nor parked. -/
theorem fresh (p : Placed s) (ordered : s.dispatcher.keepOrder = true) {index : Nat}
    (new : index ∉ s.positions) :
    s.dispatcher.reorder.next ≤ index ∧
      index ∉ s.dispatcher.reorder.parked.map Prod.fst := by
  have outside : index ∉ List.range s.dispatcher.reorder.next ++
      s.dispatcher.reorder.parked.map Prod.fst := fun member =>
    new ((p.kept ordered).mem_iff.mpr member)
  rw [List.mem_append, not_or, List.mem_range] at outside
  exact ⟨Nat.le_of_not_lt outside.1, outside.2⟩

/-- Of the positions of an ordered dispatcher, those before the next release have been
released, and the others are with a worker or parked. -/
theorem in_flight (p : Placed s) (ordered : s.dispatcher.keepOrder = true)
    (running : s.dispatcher.phase ≠ .stopped) :
    s.dispatcher.inFlight + s.dispatcher.reorder.next = s.taken := by
  have known := (p.known running).length_eq
  have kept := (p.kept ordered).length_eq
  simp only [List.length_append, List.length_map, List.length_range] at known kept
  rw [inFlight, Reorder.size]
  omega

/-- While something is parked and nothing is ready, the position of the next release is
with a worker. -/
theorem next_running (p : Placed s) (ordered : s.dispatcher.keepOrder = true)
    (running : s.dispatcher.phase ≠ .stopped) (settled : s.stage ≠ .releasing)
    (some : s.dispatcher.reorder.parked ≠ []) :
    s.dispatcher.reorder.next ∈ s.dispatcher.workers.map Prod.fst ∧
      ∀ i ∈ s.dispatcher.reorder.parked.map Prod.fst, s.dispatcher.reorder.next < i := by
  have nodup := p.kept_nodup ordered
  have unready := p.unready running settled
  have later : ∀ i ∈ s.dispatcher.reorder.parked.map Prod.fst,
      s.dispatcher.reorder.next < i := by
    intro i member
    have apart := (List.nodup_append.mp nodup).2.2
    have notBefore : ¬ i < s.dispatcher.reorder.next := fun before =>
      apart i (List.mem_range.mpr before) i member rfl
    have notNext : i ≠ s.dispatcher.reorder.next := fun same => unready (same ▸ member)
    omega
  refine ⟨?_, later⟩
  obtain ⟨entry, rest, parked⟩ := List.exists_cons_of_ne_nil some
  have first : entry.1 ∈ s.dispatcher.reorder.parked.map Prod.fst := by
    rw [parked]
    exact List.mem_cons_self
  have got : entry.1 ∈ s.positions :=
    (p.kept ordered).mem_iff.mpr (List.mem_append_right _ first)
  have taken : s.dispatcher.reorder.next < s.taken :=
    Nat.lt_trans (later _ first) (p.below _ got)
  have known := (p.known running).mem_iff.mpr (List.mem_range.mpr taken)
  rcases List.mem_append.mp known with worker | got
  · exact worker
  · rcases List.mem_append.mp ((p.kept ordered).mem_iff.mp got) with released | waiting
    · exact absurd (List.mem_range.mp released) (Nat.lt_irrefl _)
    · exact absurd waiting unready

/-- Where no position is taken and no result moves, only the place of the dispatcher has to
be seen to. -/
theorem moved (p : Placed s) (observed : s'.observed = s.observed) (taken : s'.taken = s.taken)
    (workers : s'.dispatcher.phase ≠ .stopped → s.dispatcher.phase ≠ .stopped ∧
      s'.dispatcher.workers.map Prod.fst = s.dispatcher.workers.map Prod.fst)
    (reorder : s'.dispatcher.reorder = s.dispatcher.reorder)
    (counted : s'.dispatcher.exhausted = false →
      s.dispatcher.exhausted = false ∧ s'.dispatcher.dispatched = s.dispatcher.dispatched)
    (order : s'.dispatcher.keepOrder = s.dispatcher.keepOrder)
    (settled : s'.dispatcher.phase ≠ .stopped → s'.stage ≠ .releasing → s.stage ≠ .releasing)
    (leave : s'.stage = .resting → ∀ {read}, s'.dispatcher.phase = .selecting true read →
      s'.dispatcher.exhausted = false) : Placed s' := by
  have positions : s'.positions = s.positions := by
    rw [Course.positions, Course.positions, observed]
  constructor
  · intro going
    obtain ⟨running, same⟩ := workers going
    rw [same, positions, taken]
    exact p.known running
  · rw [positions]
    exact p.distinct
  · rw [positions, taken]
    exact p.below
  · intro more
    obtain ⟨before, dispatched⟩ := counted more
    rw [taken, dispatched]
    exact p.counted before
  · rw [order, positions, reorder]
    exact p.kept
  · rw [order, reorder]
    exact p.free
  · intro going rests
    rw [reorder]
    exact p.unready (workers going).1 (settled going rests)
  · exact leave

/-- A dispatcher that has stopped has left everything where it was. -/
theorem halted (p : Placed s) (stopped : s'.dispatcher.phase = .stopped)
    (observed : s'.observed = s.observed) (taken : s'.taken = s.taken)
    (reorder : s'.dispatcher.reorder = s.dispatcher.reorder)
    (counted : s'.dispatcher.exhausted = false →
      s.dispatcher.exhausted = false ∧ s'.dispatcher.dispatched = s.dispatcher.dispatched)
    (order : s'.dispatcher.keepOrder = s.dispatcher.keepOrder) : Placed s' := by
  refine p.moved observed taken (fun going => absurd stopped going) reorder counted order ?_ ?_
  · exact fun going => absurd stopped going
  · simp [stopped]

/-- A result has been got, of a position that had none. -/
theorem got (p : Placed s) {d : Dispatcher τ β} {index : Nat} {r : Except Failure (Option β)}
    {event : Event β} (brings : event.result? = some (index, r))
    (reorder : d.reorder = s.dispatcher.reorder) (order : d.keepOrder = s.dispatcher.keepOrder)
    (known : (index :: (d.workers.map Prod.fst ++ s.positions)).Perm
      (List.range (s.taken + event.takes.toNat)))
    (counted : d.exhausted = false → s.taken + event.takes.toNat = d.dispatched) :
    Placed (s.got d index r event) := by
  have positions := got_positions s d brings
  have all : (d.workers.map Prod.fst ++ (s.got d index r event).positions).Perm
      (List.range (s.got d index r event).taken) := by
    rw [positions, got_taken, ← List.append_assoc]
    exact (List.perm_append_singleton _ _).trans known
  have distinct := List.Nodup.of_append_right (all.nodup_iff.mpr List.nodup_range)
  have below : ∀ i ∈ (s.got d index r event).positions, i < (s.got d index r event).taken :=
    fun i member => List.mem_range.mp (all.mem_iff.mp (List.mem_append_right _ member))
  have counted : d.exhausted = false → (s.got d index r event).taken = d.dispatched := by
    rw [got_taken]
    exact counted
  have new : index ∉ s.positions := by
    rw [positions] at distinct
    intro member
    exact (List.nodup_append.mp distinct).2.2 _ member _ (List.mem_singleton_self _) rfl
  cases ordered : d.keepOrder with
  | true =>
    have ordered' : s.dispatcher.keepOrder = true := order.symm.trans ordered
    have parked : d.park index r =
        { d with reorder := { d.reorder with parked := (index, r) :: d.reorder.parked } } := by
      rw [Dispatcher.park, Reorder.insert_fresh (reorder ▸ (p.fresh ordered' new).2)]
    have kept : (s.got d index r event).positions.Perm (List.range d.reorder.next ++
        (d.park index r).reorder.parked.map Prod.fst) := by
      rw [positions, parked, reorder]
      exact (List.perm_append_singleton _ _).trans
        (((p.kept ordered').cons _).trans List.perm_middle.symm)
    rw [got_ordered ordered] at all distinct below counted kept ⊢
    refine ⟨fun _ => all, distinct, below, counted, fun _ => kept, ?_, ?_, by simp⟩
    · intro unordered
      cases ordered.symm.trans unordered
    · exact fun _ settled => absurd rfl settled
  | false =>
    have free : d.reorder.parked = [] := by
      rw [reorder]
      exact p.free (order.symm.trans ordered)
    rw [got_unordered ordered] at all distinct below counted ⊢
    cases goOn : (Dispatcher.deliver d.feed r).2 with
    | true =>
      rw [goOn] at all distinct below counted
      refine ⟨fun _ => all, distinct, below, counted, ?_, fun _ => free, ?_, ?_⟩
      · intro order
        cases ordered.symm.trans order
      · intro _ _
        simp [next, delivered, free]
      · intro _ _ selecting
        cases selecting
    | false =>
      rw [goOn] at all distinct below counted
      refine ⟨fun going => absurd rfl going, distinct, below, counted, ?_, fun _ => free, ?_, ?_⟩
      · intro order
        cases ordered.symm.trans order
      · exact fun going => absurd rfl going
      · intro _ _ selecting
        cases selecting

/-- The result whose turn it is leaves the buffer. -/
theorem released (p : Placed s) {r : Except Failure (Option β)}
    {b : Reorder (Except Failure (Option β))} (ordered : s.dispatcher.keepOrder = true)
    (ready : s.dispatcher.reorder.popReady = some (r, b)) :
    s.positions.Perm (List.range b.next ++ b.parked.map Prod.fst) := by
  obtain ⟨member, next, rest⟩ := Reorder.popReady_some ready
  have key : s.dispatcher.reorder.next ∈ s.dispatcher.reorder.parked.map Prod.fst :=
    List.mem_map_of_mem member
  have split := perm_cons_filter_ne (List.Nodup.of_append_right (p.kept_nodup ordered)) key
  rw [next, rest, List.range_succ, List.append_assoc, List.singleton_append]
  exact (p.kept ordered).trans (split.append_left _)

/-- The position of an element that is handed to a worker is with the worker. -/
theorem started (p : Placed s) (resting : s.stage = .resting) {read : Feed.Waiter}
    (phase : s.dispatcher.phase = .selecting true read) (worker : τ) :
    Placed { s with
      dispatcher := s.dispatcher.pulled (.started worker)
      events := s.events ++ [.started s.dispatcher.dispatched] } := by
  have running : s.dispatcher.phase ≠ .stopped := by simp [phase]
  have counted := p.counted (p.leave resting phase)
  have next := p.known_next running
  obtain ⟨-, distinct, below, -, kept, free, unready, -⟩ := p
  have observed : (s.events ++ [Event.started s.dispatcher.dispatched]).filterMap Event.result? =
      s.observed := by
    simp [observed, Event.result?]
  have taken : (s.events ++ [Event.started s.dispatcher.dispatched]).countP Event.takes =
      s.taken + 1 := by
    simp [taken, Event.takes]
  have workers : (s.dispatcher.pulled (.started worker)).workers.map Prod.fst =
      s.dispatcher.workers.map Prod.fst ++ [s.dispatcher.dispatched] := by
    simp [pulled, Dispatcher.next]
  constructor
  · intro _
    rw [workers, positions, Course.observed, observed, Course.taken, taken, ← counted,
      List.append_assoc]
    exact List.perm_middle.trans next
  · rwa [positions, Course.observed, observed]
  · intro i member
    rw [positions, Course.observed, observed] at member
    rw [Course.taken, taken]
    exact Nat.lt_succ_of_lt (below i member)
  · intro _
    rw [Course.taken, taken, counted]
    rfl
  · rw [positions, Course.observed, observed]
    exact kept
  · exact free
  · intro _ _
    exact unready running (by simp [resting])
  · intro _ _ selecting
    cases selecting

end Placed

theorem Works.placed (works : Works s s') (a : Afoot s) (p : Placed s) : Placed s' := by
  have poised := a.poised
  cases works with
  | register resting phase =>
    refine p.moved rfl rfl (fun going => ⟨going, rfl⟩) rfl (fun more => ⟨more, rfl⟩) rfl ?_ ?_
    · simp [resting]
    · simp
  | leave => exact p.halted rfl rfl rfl rfl (fun more => ⟨more, rfl⟩) rfl
  | stay stage _ =>
    refine p.moved rfl rfl (fun going => ⟨going, rfl⟩) rfl (fun more => ⟨more, rfl⟩) rfl ?_ ?_
    · simp [stage]
    · simp
  | close => exact p.halted rfl rfl rfl rfl (fun more => ⟨more, rfl⟩) rfl
  | select stage _ =>
    rw [stage] at poised
    have running : s.dispatcher.phase ≠ .stopped := by simp [poised.attended.1]
    refine p.moved rfl rfl (fun _ => ⟨running, rfl⟩) rfl (fun more => ⟨more, rfl⟩) rfl ?_ ?_
    · intro _ _
      simp [stage]
    · intro _ read selecting
      have leave : s.dispatcher.mayPull = true := by
        injection selecting
      simp only [mayPull, Bool.and_eq_true, Bool.not_eq_true'] at leave
      exact leave.1.1
  | notice resting phase _ =>
    have running : s.dispatcher.phase ≠ .stopped := by simp [phase]
    refine p.moved ?_ ?_ (fun _ => ⟨running, rfl⟩) rfl (fun more => ⟨more, rfl⟩) rfl ?_ ?_
    · simp [observed, Event.result?]
    · simp [taken, Event.takes]
    · intro _ _
      simp [resting]
    · intro _ _ selecting
      cases selecting
  | deliver stage ready _ =>
    rw [stage] at poised
    obtain ⟨mayPull, read, phase⟩ := poised.releasing
    obtain ⟨known, distinct, below, counted, kept, free, unready, -⟩ := id p
    refine ⟨known, distinct, below, counted, fun ordered => p.released ordered ready, ?_, ?_, ?_⟩
    · intro unordered
      simp [delivered, (Reorder.popReady_some ready).2.2, free unordered]
    · exact fun _ settled => absurd stage settled
    · intro resting
      cases stage.symm.trans resting
  | stop stage ready _ =>
    obtain ⟨known, distinct, below, counted, kept, free, unready, -⟩ := id p
    refine ⟨fun going => absurd rfl going, distinct, below, counted,
      fun ordered => p.released ordered ready, ?_, fun going => absurd rfl going, ?_⟩
    · intro unordered
      simp [Dispatcher.stop, delivered, (Reorder.popReady_some ready).2.2, free unordered]
    · intro _ _ selecting
      cases selecting
  | settle stage none =>
    rw [stage] at poised
    obtain ⟨mayPull, read, phase⟩ := poised.releasing
    obtain ⟨known, distinct, below, counted, kept, free, -, -⟩ := p
    refine ⟨fun _ => known (by simp [phase]), distinct, below, counted, kept, free, ?_, ?_⟩
    · exact fun _ _ => Reorder.not_mem_of_popReady_none none
    · intro _ _ selecting
      cases selecting

theorem Meets.placed (meets : Meets around s s') (p : Placed s) : Placed s' := by
  cases meets with
  | @join mayPull read index outcome resting phase member _ =>
    have running : s.dispatcher.phase ≠ .stopped := by simp [phase]
    have split := perm_cons_filter_ne (p.workers_nodup running) member
    refine p.got rfl (by rfl) (by rfl) ?_ ?_
    · exact (split.symm.append_right _).trans (p.known running)
    · exact p.counted
  | start resting phase _ => exact p.started resting phase _
  | panic resting phase _ _ =>
    have running : s.dispatcher.phase ≠ .stopped := by simp [phase]
    have counted := p.counted (p.leave resting phase)
    refine p.got rfl (by rfl) (by rfl) ?_ ?_
    · rw [← counted]
      exact p.known_next running
    · intro _
      rw [counted]
      rfl
  | fail resting phase _ =>
    have running : s.dispatcher.phase ≠ .stopped := by simp [phase]
    have counted := p.counted (p.leave resting phase)
    refine p.got rfl (by rfl) (by rfl) ?_ (by simp)
    rw [← counted]
    exact p.known_next running
  | finish resting phase _ =>
    have running : s.dispatcher.phase ≠ .stopped := by simp [phase]
    refine p.moved ?_ ?_ (fun _ => ⟨running, rfl⟩) rfl (by simp [pulledEnd, next]) rfl ?_ ?_
    · simp [observed, Event.result?]
    · simp [taken, Event.takes]
    · intro _ _
      simp [resting]
    · intro _ _ selecting
      cases selecting
  | broke => exact p.halted rfl rfl rfl rfl (fun more => ⟨more, rfl⟩) rfl

theorem Step.placed (step : Step around s s') (a : Afoot s) (p : Placed s) : Placed s' := by
  cases step with
  | works works => exact works.placed a p
  | meets meets => exact meets.placed p
  | stir workers _ =>
    exact p.moved rfl rfl (fun going => ⟨going, workers⟩) rfl (fun more => ⟨more, rfl⟩) rfl
      (fun _ => id) p.leave
  | refill =>
    exact p.moved rfl rfl (fun going => ⟨going, rfl⟩) rfl (fun more => ⟨more, rfl⟩) rfl
      (fun _ => id) p.leave
  | poll _ =>
    unfold Dispatcher.poll
    split
    · rename_i idle
      refine p.moved rfl rfl (fun _ => ⟨by simp [idle], rfl⟩) rfl (fun more => ⟨more, rfl⟩) rfl
        (fun _ => id) ?_
      intro _ _ selecting
      cases selecting
    · exact p.moved rfl rfl (fun going => ⟨going, rfl⟩) rfl (fun more => ⟨more, rfl⟩) rfl
        (fun _ => id) p.leave
  | drop _ =>
    unfold Dispatcher.drop
    split
    · exact p.halted rfl rfl rfl rfl (fun more => ⟨more, rfl⟩) rfl
    · exact p.moved rfl rfl (fun going => ⟨going, rfl⟩) rfl (fun more => ⟨more, rfl⟩) rfl
        (fun _ => id) p.leave

theorem Reaches.placed (reached : Reaches around concurrency keepOrder s) : Placed s := by
  induction reached with
  | start => exact .start
  | step reached step ih => exact step.placed reached.afoot ih

/-! ### Elements that have been taken -/

/-- Every worker has an element that has been taken. -/
def Manned (s : Course τ β) : Prop :=
  ∀ i ∈ s.dispatcher.workers.map Prod.fst, i < s.dispatcher.dispatched

theorem Works.manned (works : Works s s') (m : Manned s) : Manned s' := by
  cases works with
  | leave => exact fun _ member => absurd member List.not_mem_nil
  | close => exact fun _ member => absurd member List.not_mem_nil
  | stop => exact fun _ member => absurd member List.not_mem_nil
  | _ => exact m

theorem got_manned (s : Course τ β) {d : Dispatcher τ β}
    (m : ∀ i ∈ d.workers.map Prod.fst, i < d.dispatched) (index : Nat)
    (r : Except Failure (Option β)) (event : Event β) : Manned (s.got d index r event) := by
  cases ordered : d.keepOrder with
  | true =>
    rw [got_ordered ordered]
    exact m
  | false =>
    rw [got_unordered ordered]
    cases (Dispatcher.deliver d.feed r).2 with
    | true => exact m
    | false => exact fun _ member => absurd member List.not_mem_nil

theorem Step.manned (step : Step around s s') (m : Manned s) : Manned s' := by
  cases step with
  | works works => exact works.manned m
  | meets meets =>
    cases meets with
    | join =>
      apply got_manned
      intro i member
      exact m i ((List.filter_sublist.map _).subset member)
    | start =>
      intro i member
      simp only [pulled, next, if_true, List.map_append, List.mem_append, List.map_cons,
        List.map_nil, List.mem_singleton] at member
      rcases member with old | rfl
      · exact Nat.lt_succ_of_lt (m i old)
      · exact Nat.lt_succ_self _
    | panic =>
      apply got_manned
      intro i member
      exact Nat.lt_succ_of_lt (m i member)
    | fail =>
      apply got_manned
      exact m
    | finish => exact m
    | broke => exact fun _ member => absurd member List.not_mem_nil
  | stir same _ =>
    intro i member
    rw [same] at member
    exact m i member
  | refill => exact m
  | poll =>
    unfold Dispatcher.poll
    split <;> exact m
  | drop =>
    unfold Dispatcher.drop
    split
    · exact fun _ member => absurd member List.not_mem_nil
    · exact m

theorem Reaches.manned (reached : Reaches around concurrency keepOrder s) : Manned s := by
  induction reached with
  | start => exact fun _ member => absurd member List.not_mem_nil
  | step _ step ih => exact step.manned ih

theorem Works.stands (works : Works s s') :
    s'.dispatcher.dispatched = s.dispatcher.dispatched ∧
      s'.dispatcher.exhausted = s.dispatcher.exhausted := by
  cases works <;> exact ⟨rfl, rfl⟩

/-- Elements are taken as long as the source has not ended. -/
inductive Onward (around : Surroundings β) (s s' : Course τ β) : Prop where
  | stands : s'.dispatcher.dispatched = s.dispatcher.dispatched →
      s'.dispatcher.exhausted = s.dispatcher.exhausted → Onward around s s'
  | takes : around.element s.dispatcher.dispatched → s.dispatcher.exhausted = false →
      s'.dispatcher.dispatched = s.dispatcher.dispatched + 1 → s'.dispatcher.exhausted = false →
      Onward around s s'
  | ends : (∃ e, around.failure s.dispatcher.dispatched e) ∨ around.finish s.dispatcher.dispatched →
      s.dispatcher.exhausted = false → s'.dispatcher.dispatched = s.dispatcher.dispatched →
      s'.dispatcher.exhausted = true → Onward around s s'

theorem Meets.onward (meets : Meets around s s') (placed : Placed s)
    (ordered : s.dispatcher.keepOrder = true) : Onward around s s' := by
  cases meets with
  | join resting phase =>
    rw [got_ordered (by exact ordered)]
    exact .stands rfl rfl
  | start resting phase element =>
    have leave := placed.leave resting phase
    exact .takes element leave rfl leave
  | panic resting phase element =>
    have leave := placed.leave resting phase
    rw [got_ordered (by exact ordered)]
    exact .takes element leave rfl leave
  | fail resting phase failure =>
    rw [got_ordered (by exact ordered)]
    exact .ends (.inl ⟨_, failure⟩) (placed.leave resting phase) rfl rfl
  | finish resting phase finish =>
    exact .ends (.inr finish) (placed.leave resting phase) rfl rfl
  | broke => exact .stands rfl rfl

theorem Step.onward (step : Step around s s') (placed : Placed s)
    (ordered : s.dispatcher.keepOrder = true) : Onward around s s' := by
  cases step with
  | works works => exact .stands works.stands.1 works.stands.2
  | meets meets => exact meets.onward placed ordered
  | stir => exact .stands rfl rfl
  | refill => exact .stands rfl rfl
  | poll => exact .stands s.dispatcher.poll_stays.dispatched s.dispatcher.poll_stays.exhausted
  | drop => exact .stands s.dispatcher.drop_stays.dispatched s.dispatcher.drop_stays.exhausted

end Course
end PullStream.Dispatcher
