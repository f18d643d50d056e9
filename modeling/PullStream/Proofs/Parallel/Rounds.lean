import PullStream.Proofs.Parallel.Bounds

/-!
How often a dispatcher goes round.

A round ends with an event. An element is handed out once and its worker is joined once; the
source ends or fails once. A read is noticed only by a waiter that was made before it, so no
two events notice the same read, and there are no more reads than values that have been joined,
but for the one that stands for the drop of the consumer. For a source of `total` elements this
makes `total` starts, as many joins, one end, `total + 1` reads and one round more in which the
loop is left.

* `Course.Tally` — the invariant, an account of the events.
* `Course.Reaches.tally` — it holds of every course.
* `Course.Tally.rounds_le` — at most `3 * total + 3` rounds.
-/

namespace PullStream.Dispatcher

variable {τ β : Type}

/-! ### Kinds of events and results -/

namespace Event

/-- A worker has been joined. -/
def joins : Event β → Bool
  | .joined _ _ => true
  | _ => false

/-- An element has been handed to a worker. -/
def hands : Event β → Bool
  | .started _ | .panicked _ _ => true
  | _ => false

/-- The source has come to its end, or to its failure. -/
def closes : Event β → Bool
  | .failed _ _ | .ended => true
  | _ => false

/-- A read has been noticed. -/
def notices : Event β → Bool
  | .read => true
  | _ => false

/-- Every event is of one of these kinds. -/
theorem length_eq_counts (events : List (Event β)) :
    events.length = events.countP joins + events.countP hands + events.countP closes +
      events.countP notices := by
  induction events with
  | nil => rfl
  | cons event rest ih =>
    rw [List.length_cons, ih]
    cases event with
    | joined index outcome => simp [List.countP_cons, joins, hands, closes, notices]; omega
    | started index => simp [List.countP_cons, joins, hands, closes, notices]; omega
    | panicked index payload => simp [List.countP_cons, joins, hands, closes, notices]; omega
    | failed index e => simp [List.countP_cons, joins, hands, closes, notices]; omega
    | ended => simp [List.countP_cons, joins, hands, closes, notices]; omega
    | read => simp [List.countP_cons, joins, hands, closes, notices]; omega

end Event

/-- Whether a result is a value to deliver. -/
def isValue : Except Failure (Option β) → Bool
  | .ok (some _) => true
  | _ => false

/-- How many values are parked. -/
def due (d : Dispatcher τ β) : Nat :=
  d.reorder.parked.countP fun entry => isValue entry.2

/-- Only a value adds an item to the feed. -/
theorem Deposited.pending_le_value {f f' : Feed β} {r : Except Failure (Option β)} {goOn : Bool}
    (put : Deposited f r f' goOn) : f'.pending ≤ f.pending + (isValue r).toNat := by
  cases put with
  | value fed => exact Nat.le_of_eq (Feed.feed_counts fed).1
  | nothing => exact Nat.le_refl _
  | failure thrown => exact Nat.le_of_eq (Feed.throw_counts thrown).1

/-- What leaves a list is not counted any more. -/
theorem countP_filter_add_le {ρ : Type} {entries : List ρ} (p q : ρ → Bool) {x : ρ}
    (member : x ∈ entries) (leaves : q x = false) :
    (entries.filter q).countP p + (p x).toNat ≤ entries.countP p := by
  rw [entries.countP_eq_countP_filter_add p q]
  apply Nat.add_le_add_left
  cases counted : p x with
  | false => exact Nat.zero_le _
  | true =>
    apply List.countP_pos_iff.mpr
    exact ⟨x, List.mem_filter.mpr ⟨member, by simp [leaves]⟩, counted⟩

/-- A value that is delivered leaves the buffer for the feed. -/
theorem delivered_due {d : Dispatcher τ β} (isOpen : d.feed.closed = false)
    {r : Except Failure (Option β)} {b : Reorder (Except Failure (Option β))}
    (ready : d.reorder.popReady = some (r, b)) :
    (d.delivered b r).undelivered + (d.delivered b r).due ≤ d.undelivered + d.due := by
  have put := (deliver_deposited isOpen r).pending_le_value
  obtain ⟨member, -, rest⟩ := Reorder.popReady_some ready
  have left : b.parked.countP (fun entry => isValue entry.2) + (isValue r).toNat ≤
      d.reorder.parked.countP fun entry => isValue entry.2 := by
    rw [rest]
    exact countP_filter_add_le _ _ member (by simp)
  simp only [undelivered, due, delivered]
  omega

/-- With the counters of the feed, what is due and not delivered does not grow by a delivery. -/
theorem delivered_values {d : Dispatcher τ β} (isOpen : d.feed.closed = false)
    {r : Except Failure (Option β)} {b : Reorder (Except Failure (Option β))}
    (ready : d.reorder.popReady = some (r, b)) :
    (d.delivered b r).undelivered + (d.delivered b r).feed.reads + (d.delivered b r).due +
        d.feed.abandoned.toNat ≤
      d.undelivered + d.feed.reads + d.due + (d.delivered b r).feed.abandoned.toNat := by
  have put := deliver_deposited isOpen r
  have fewer := delivered_due isOpen ready
  rw [show (d.delivered b r).feed.reads = d.feed.reads from put.reads,
    show (d.delivered b r).feed.abandoned = d.feed.abandoned from put.abandoned]
  omega

theorem park_due (d : Dispatcher τ β) (index : Nat) (r : Except Failure (Option β)) :
    (d.park index r).due ≤ d.due + (isValue r).toNat := by
  have fewer : (d.reorder.parked.filter (·.1 != index)).countP (fun entry => isValue entry.2) ≤
      d.reorder.parked.countP fun entry => isValue entry.2 :=
    List.filter_sublist.countP_le
  simp only [due, park, Reorder.insert, List.countP_cons]
  cases isValue r <;> simp <;> omega

namespace Course

variable {around : Surroundings β} {s s' : Course τ β} {concurrency : Nat} {keepOrder : Bool}
  {total : Nat}

/-! ### The account -/

/-- Whether a round is under way that has no event yet; the last one may have none. -/
def underWay (s : Course τ β) : Nat :=
  match s.stage, s.dispatcher.phase with
  | .resting, .idle => 0
  | .resting, .surveying => 0
  | .releasing, _ => 0
  | _, _ => 1

/-- The waiter of the round that is under way. -/
def waiter? (s : Course τ β) : Option Feed.Waiter :=
  match s.stage, s.dispatcher.phase with
  | .registered read, _ => some read
  | .attended read, _ => some read
  | .resting, .selecting _ read => some read
  | _, _ => none

/-- How many events of a kind there have been. -/
def count (s : Course τ β) (kind : Event β → Bool) : Nat :=
  s.events.countP kind

/-- An account of the events. -/
structure Tally (total : Nat) (s : Course τ β) : Prop where
  rounds : s.rounds ≤ s.events.length + s.underWay
  handed : s.count Event.hands = s.dispatcher.dispatched
  within : s.dispatcher.dispatched ≤ total
  closed : s.count Event.closes ≤ s.dispatcher.exhausted.toNat
  joined : s.count Event.joins + s.dispatcher.workers.length ≤ s.count Event.hands
  noticed : s.count Event.notices ≤ s.dispatcher.feed.reads
  seen : ∀ {read}, s.waiter? = some read → s.count Event.notices ≤ read.seen
  values : s.dispatcher.undelivered + s.dispatcher.feed.reads + s.dispatcher.due ≤
    s.count Event.joins + s.dispatcher.feed.abandoned.toNat

/-! ### A result that has been got -/

theorem got_waiter (s : Course τ β) (resting : s.stage = .resting) (d : Dispatcher τ β)
    (index : Nat) (r : Except Failure (Option β)) (event : Event β) :
    (s.got d index r event).waiter? = none := by
  cases ordered : d.keepOrder with
  | true =>
    rw [got_ordered ordered]
    rfl
  | false =>
    rw [got_unordered ordered, waiter?]
    cases (Dispatcher.deliver d.feed r).2 <;> simp [resting, next, Dispatcher.stop]

/-- A result that has been got leaves the counters of the dispatcher alone. -/
theorem got_counters (s : Course τ β) (d : Dispatcher τ β) (index : Nat)
    (r : Except Failure (Option β)) (event : Event β) :
    (s.got d index r event).dispatcher.dispatched = d.dispatched ∧
      (s.got d index r event).dispatcher.exhausted = d.exhausted ∧
      (s.got d index r event).dispatcher.workers.length ≤ d.workers.length := by
  cases ordered : d.keepOrder with
  | true =>
    rw [got_ordered ordered]
    exact ⟨rfl, rfl, Nat.le_refl _⟩
  | false =>
    rw [got_unordered ordered]
    cases (Dispatcher.deliver d.feed r).2 with
    | true => exact ⟨rfl, rfl, Nat.le_refl _⟩
    | false => exact ⟨rfl, rfl, Nat.zero_le _⟩

/-- A value that has been got is parked, or it goes into the feed. -/
theorem got_due (s : Course τ β) {d : Dispatcher τ β} (isOpen : d.feed.closed = false)
    (index : Nat) (r : Except Failure (Option β)) (event : Event β) :
    (s.got d index r event).dispatcher.undelivered + (s.got d index r event).dispatcher.due ≤
        d.undelivered + d.due + (isValue r).toNat ∧
      (s.got d index r event).dispatcher.feed.reads = d.feed.reads ∧
      (s.got d index r event).dispatcher.feed.abandoned = d.feed.abandoned := by
  cases ordered : d.keepOrder with
  | true =>
    have parked := park_due d index r
    rw [got_ordered ordered]
    refine ⟨?_, rfl, rfl⟩
    change d.undelivered + (d.park index r).due ≤ _
    omega
  | false =>
    have put := deliver_deposited isOpen r
    have more := put.pending_le_value
    have same : (s.got d index r event).dispatcher.feed = (Dispatcher.deliver d.feed r).1 ∧
        (s.got d index r event).dispatcher.reorder = d.reorder := by
      rw [got_unordered ordered]
      cases (Dispatcher.deliver d.feed r).2 <;> exact ⟨rfl, rfl⟩
    rw [undelivered, due, same.1, same.2, undelivered, due]
    refine ⟨?_, put.reads, put.abandoned⟩
    omega

namespace Tally

theorem start : Tally total ({ dispatcher := { concurrency, keepOrder } } : Course τ β) where
  rounds := Nat.le_refl _
  handed := rfl
  within := Nat.zero_le _
  closed := Nat.le_refl _
  joined := Nat.le_refl _
  noticed := Nat.le_refl _
  seen none := by cases none
  values := Nat.le_refl _

/-- Where there is no event, what is counted may only grow, and what is left only shrink. -/
theorem moved (t : Tally total s) (events : s'.events = s.events)
    (rounds : s'.rounds ≤ s.events.length + s'.underWay)
    (dispatched : s'.dispatcher.dispatched = s.dispatcher.dispatched)
    (exhausted : s'.dispatcher.exhausted = s.dispatcher.exhausted)
    (workers : s'.dispatcher.workers.length ≤ s.dispatcher.workers.length)
    (reads : s.dispatcher.feed.reads ≤ s'.dispatcher.feed.reads)
    (seen : ∀ {read}, s'.waiter? = some read → s.count Event.notices ≤ read.seen)
    (values : s'.dispatcher.undelivered + s'.dispatcher.feed.reads + s'.dispatcher.due +
      s.dispatcher.feed.abandoned.toNat ≤ s.dispatcher.undelivered + s.dispatcher.feed.reads +
      s.dispatcher.due + s'.dispatcher.feed.abandoned.toNat) : Tally total s' := by
  obtain ⟨-, handed, within, closed, joined, noticed, -, all⟩ := t
  have same : ∀ kind, s'.count kind = s.count kind := by
    intro kind
    rw [count, count, events]
  constructor
  · rwa [events]
  · rwa [same, dispatched]
  · rwa [dispatched]
  · rwa [same, exhausted]
  · rw [same, same]
    omega
  · rw [same]
    omega
  · intro read waits
    rw [same]
    exact seen waits
  · rw [same]
    omega

/-- An event is accounted for by its kind. -/
theorem happened (t : Tally total s) (event : Event β) (events : s'.events = s.events ++ [event])
    (rounds : s'.rounds = s.rounds) (waiter : s'.waiter? = none)
    (under : s.underWay ≤ 1)
    (handed : s'.dispatcher.dispatched = s.dispatcher.dispatched + event.hands.toNat)
    (within : s'.dispatcher.dispatched ≤ total)
    (closed : s.dispatcher.exhausted.toNat + event.closes.toNat ≤ s'.dispatcher.exhausted.toNat)
    (joined : event.joins.toNat + s'.dispatcher.workers.length ≤
      s.dispatcher.workers.length + event.hands.toNat)
    (noticed : s.count Event.notices + event.notices.toNat ≤ s'.dispatcher.feed.reads)
    (values : s'.dispatcher.undelivered + s'.dispatcher.feed.reads + s'.dispatcher.due +
      s.dispatcher.feed.abandoned.toNat ≤ s.dispatcher.undelivered + s.dispatcher.feed.reads +
      s.dispatcher.due + event.joins.toNat + s'.dispatcher.feed.abandoned.toNat) :
    Tally total s' := by
  obtain ⟨before, hands, -, closes, joins, -, -, all⟩ := t
  have more : ∀ kind, s'.count kind = s.count kind + (kind event).toNat := by
    intro kind
    rw [count, count, events, List.countP_append]
    cases h : kind event <;> simp [h]
  constructor
  · rw [rounds, events, List.length_append, List.length_singleton]
    omega
  · rw [more, handed, hands]
  · exact within
  · rw [more]
    omega
  · rw [more, more]
    omega
  · rw [more]
    exact noticed
  · intro read waits
    cases waiter.symm.trans waits
  · rw [more]
    omega

/-- The dispatcher goes round three times at most for each element, and three times more. -/
theorem rounds_le (t : Tally total s) : s.rounds ≤ 3 * total + 3 := by
  have kinds := Event.length_eq_counts s.events
  obtain ⟨rounds, handed, within, closed, joined, noticed, -, values⟩ := t
  have once : s.underWay ≤ 1 := by
    unfold underWay
    split <;> decide
  have ends := Bool.toNat_le s.dispatcher.exhausted
  have drops := Bool.toNat_le s.dispatcher.feed.abandoned
  simp only [count] at handed closed joined noticed values
  omega

/-- The event that a result comes with is accounted for. -/
theorem got (t : Tally total s) (a : Afoot s) {mayPull : Bool} {read : Feed.Waiter}
    (resting : s.stage = .resting) (phase : s.dispatcher.phase = .selecting mayPull read)
    {d : Dispatcher τ β} (feed : d.feed = s.dispatcher.feed)
    (reorder : d.reorder = s.dispatcher.reorder) {index : Nat} {r : Except Failure (Option β)}
    {event : Event β} (handed : d.dispatched = s.dispatcher.dispatched + event.hands.toNat)
    (within : d.dispatched ≤ total)
    (closed : s.dispatcher.exhausted.toNat + event.closes.toNat ≤ d.exhausted.toNat)
    (joined : event.joins.toNat + d.workers.length ≤
      s.dispatcher.workers.length + event.hands.toNat)
    (noticed : event.notices = false) (value : (isValue r).toNat ≤ event.joins.toNat) :
    Tally total (s.got d index r event) := by
  have isOpen : d.feed.closed = false := feed ▸ a.isOpen (by simp [phase])
  obtain ⟨dispatched, exhausted, workers⟩ := got_counters s d index r event
  obtain ⟨fewer, reads, abandoned⟩ := got_due s isOpen index r event
  have same : d.undelivered = s.dispatcher.undelivered ∧ d.due = s.dispatcher.due := by
    rw [undelivered, due, feed, reorder]
    exact ⟨rfl, rfl⟩
  rw [feed] at reads abandoned
  apply t.happened event (got_events s d index r event)
  · unfold Course.got
    split <;> rfl
  · exact got_waiter s resting d index r event
  · simp [underWay, resting, phase]
  · rw [dispatched, handed]
  · rwa [dispatched]
  · rwa [exhausted]
  · omega
  · rw [noticed, reads]
    exact t.noticed
  · rw [reads, abandoned]
    omega

end Tally

theorem Works.tally (works : Works s s') (a : Afoot s) (t : Tally total s) : Tally total s' := by
  have poised := a.poised
  have rounds := t.rounds
  have seen := @Tally.seen _ _ _ _ t
  cases works with
  | register resting phase =>
    simp only [underWay, resting, phase] at rounds
    refine t.moved rfl (Nat.succ_le_succ rounds) rfl rfl (Nat.le_refl _) (Nat.le_refl _) ?_
      (Nat.le_refl _)
    intro read waits
    cases waits
    exact t.noticed
  | leave stage _ =>
    simp only [underWay, stage] at rounds
    refine t.moved rfl rounds rfl rfl (Nat.zero_le _) (Nat.le_refl _) ?_ (Nat.le_refl _)
    simp [waiter?, Dispatcher.stop]
  | stay stage _ =>
    simp only [underWay, waiter?, stage] at rounds seen
    exact t.moved rfl rounds rfl rfl (Nat.le_refl _) (Nat.le_refl _) seen (Nat.le_refl _)
  | close stage _ _ =>
    simp only [underWay, stage] at rounds
    refine t.moved rfl rounds rfl rfl (Nat.zero_le _) (Nat.le_refl _) ?_ (Nat.le_refl _)
    simp [waiter?, Dispatcher.stop]
  | select stage _ =>
    simp only [underWay, waiter?, stage] at rounds seen
    exact t.moved rfl rounds rfl rfl (Nat.le_refl _) (Nat.le_refl _) seen (Nat.le_refl _)
  | @notice mayPull read resting phase resolved =>
    rw [resting, phase] at poised
    have before : s.count Event.notices ≤ read.seen := seen (by simp [waiter?, resting, phase])
    have later : read.seen < s.dispatcher.feed.reads := by
      simpa [Feed.Waiter.resolved, poised.1, Feed.count] using resolved
    refine t.happened .read (by rfl) (by rfl) ?_ ?_ ?_ ?_ ?_ ?_ ?_ ?_
    · simp [waiter?, resting, noticedRead, next]
    · simp [underWay, resting, phase]
    · rfl
    · exact t.within
    · exact Nat.le_refl _
    · exact Nat.le_of_eq (Nat.add_comm _ _)
    · exact Nat.lt_of_le_of_lt before later
    · exact Nat.le_refl _
  | @deliver r b stage ready goOn =>
    rw [stage] at poised
    obtain ⟨mayPull, read, phase⟩ := poised.releasing
    have isOpen := a.isOpen (by simp [phase])
    have reads := (deliver_deposited isOpen r).reads
    refine t.moved rfl ?_ rfl rfl (Nat.le_refl _) (Nat.le_of_eq reads.symm) ?_
      (delivered_values isOpen ready)
    · simpa only [underWay, stage] using rounds
    · intro read waits
      simp [waiter?, stage] at waits
  | @stop r b stage ready stops =>
    rw [stage] at poised
    obtain ⟨mayPull, read, phase⟩ := poised.releasing
    have isOpen := a.isOpen (by simp [phase])
    have reads := (deliver_deposited isOpen r).reads
    simp only [underWay, stage] at rounds
    exact t.moved rfl (Nat.le_succ_of_le rounds) rfl rfl (Nat.zero_le _) (Nat.le_of_eq reads.symm)
      (by simp [waiter?, Dispatcher.stop]) (delivered_values isOpen ready)
  | settle stage _ =>
    simp only [underWay, stage] at rounds
    refine t.moved rfl rounds rfl rfl (Nat.le_refl _) (Nat.le_refl _) ?_ (Nat.le_refl _)
    simp [waiter?, next]

theorem Meets.tally (meets : Meets around s s') (bounded : ∀ n, around.element n → n < total)
    (a : Afoot s) (p : Placed s) (t : Tally total s) : Tally total s' := by
  cases meets with
  | @join mayPull read index outcome resting phase member _ =>
    have fewer := length_filter_ne_lt member
    refine t.got a resting phase (by rfl) (by rfl) (by rfl) ?_ ?_ ?_ rfl ?_
    · exact t.within
    · exact Nat.le_refl _
    · change 1 + (s.dispatcher.workers.filter (·.1 != index)).length ≤
        s.dispatcher.workers.length + 0
      omega
    · exact Bool.toNat_le _
  | @start read worker resting phase more =>
    refine t.happened (.started s.dispatcher.dispatched) (by rfl) (by rfl) ?_ ?_ ?_ ?_ ?_ ?_ ?_ ?_
    · simp [waiter?, resting, pulled, next]
    · simp [underWay, resting, phase]
    · rfl
    · exact bounded _ more
    · exact Nat.le_refl _
    · simp [Event.joins, Event.hands, pulled, next]
    · exact t.noticed
    · exact Nat.le_refl _
  | panic resting phase more _ =>
    refine t.got a resting phase (by rfl) (by rfl) (by rfl) ?_ ?_ ?_ rfl ?_
    · exact bounded _ more
    · exact Nat.le_refl _
    · exact Nat.le_trans (Nat.le_of_eq (Nat.zero_add _)) (Nat.le_succ _)
    · exact Nat.le_refl _
  | fail resting phase _ =>
    have leave := p.leave resting phase
    refine t.got a resting phase (by rfl) (by rfl) (by rfl) ?_ ?_ ?_ rfl ?_
    · exact t.within
    · rw [leave]
      exact Nat.le_refl _
    · exact Nat.le_of_eq (Nat.zero_add _)
    · exact Nat.le_refl _
  | finish resting phase _ =>
    have leave := p.leave resting phase
    refine t.happened .ended (by rfl) (by rfl) ?_ ?_ ?_ ?_ ?_ ?_ ?_ ?_
    · simp [waiter?, resting, pulledEnd, next]
    · simp [underWay, resting, phase]
    · rfl
    · exact t.within
    · rw [leave]
      exact Nat.le_refl _
    · exact Nat.le_of_eq (Nat.zero_add _)
    · exact t.noticed
    · exact Nat.le_refl _
  | broke resting phase _ =>
    have rounds := t.rounds
    simp only [underWay, resting, phase] at rounds
    refine t.moved rfl ?_ rfl rfl (Nat.zero_le _) (Nat.le_refl _) ?_ (Nat.le_refl _)
    · simpa only [underWay, resting] using rounds
    · intro read waits
      simp [waiter?, resting] at waits

theorem Step.tally (step : Step around s s') (bounded : ∀ n, around.element n → n < total)
    (a : Afoot s) (p : Placed s) (t : Tally total s) : Tally total s' := by
  have poised := a.poised
  have rounds := t.rounds
  have seen := @Tally.seen _ _ _ _ t
  cases step with
  | works works => exact works.tally a t
  | meets meets => exact meets.tally bounded a p t
  | @stir workers detached same _ =>
    have length : workers.length = s.dispatcher.workers.length := by
      simpa using congrArg List.length same
    exact t.moved rfl rounds rfl rfl (Nat.le_of_eq length) (Nat.le_refl _) seen (Nat.le_refl _)
  | refill =>
    have pending : s.dispatcher.feed.refill.pending = s.dispatcher.feed.pending :=
      Feed.refill_pending _
    have reads : s.dispatcher.feed.refill.reads = s.dispatcher.feed.reads := Feed.refill_reads _
    have abandoned := s.dispatcher.feed.refill_untouched.abandoned
    refine t.moved rfl rounds rfl rfl (Nat.le_refl _) (Nat.le_of_eq reads.symm) seen ?_
    simp only [undelivered, due]
    exact Nat.le_of_eq (by rw [pending, reads, abandoned])
  | poll present =>
    unfold Dispatcher.poll
    split
    · rename_i idle
      rw [idle] at poised
      have resting := poised.resting_of_idle
      simp only [underWay, resting, idle] at rounds
      refine t.moved rfl ?_ rfl rfl (Nat.le_refl _) (Nat.le_refl _) ?_ (Nat.le_refl _)
      · simpa only [underWay, resting] using rounds
      · intro read waits
        simp [waiter?, resting] at waits
    · have counts := Feed.poll_counts a.counted present
      have later := s.dispatcher.feed.reads_le_poll
      have abandoned := s.dispatcher.feed.poll_untouched.abandoned
      refine t.moved rfl rounds rfl rfl (Nat.le_refl _) later seen ?_
      simp only [undelivered, due]
      rw [abandoned]
      omega
  | drop present =>
    have gone : s.dispatcher.feed.abandoned.toNat = 0 := by simp [present]
    unfold Dispatcher.drop
    split
    · rename_i idle
      rw [idle] at poised
      have resting := poised.resting_of_idle
      simp only [underWay, resting, idle] at rounds
      refine t.moved rfl ?_ rfl rfl (Nat.zero_le _) (Nat.le_succ _) ?_ ?_
      · exact Nat.le_trans rounds (Nat.add_le_add_left (Nat.zero_le _) _)
      · intro read waits
        simp [waiter?, resting, Dispatcher.stop] at waits
      · simp only [undelivered, due, Dispatcher.stop, Feed.drop, Bool.toNat_true]
        omega
    · refine t.moved rfl rounds rfl rfl (Nat.le_refl _) (Nat.le_succ _) seen ?_
      simp only [undelivered, due, Feed.drop, Bool.toNat_true]
      omega

theorem Reaches.tally (bounded : ∀ n, around.element n → n < total)
    (reached : Reaches around concurrency keepOrder s) : Tally total s := by
  induction reached with
  | start => exact .start
  | step reached step ih => exact step.tally bounded reached.afoot reached.placed ih

end Course
end PullStream.Dispatcher
