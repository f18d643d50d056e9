import PullStream.Proofs.Feed.Ledger
import PullStream.Proofs.Parallel.Reference
import PullStream.Proofs.Parallel.Round

/-!
An ordered dispatcher delivers results in order.

The results of all positions are given; which of them a dispatcher knows is a matter of
its workers. Its feed has accepted what the results below the next position to release
come to. Every position between that one and the next to be taken has a worker or is
parked, once (`Going.places`); so nothing is released twice or left out, and when all
workers have been joined nothing is left parked.

A result is parked and then released with all that has become ready. In between the
dispatcher is releasing; the consumer may come at that time too.

* `Ordered.park`, `Ordered.deliver`, `Ordered.settle` — a release, step by step.
* `Ordered.close`, `Ordered.select`, `Ordered.park_joined`, `Ordered.started`, … — every round keeps
  the order.
* `Ordered.outputs_prefix`, `Ordered.outputs_of_done` — what has been delivered.
-/

namespace PullStream

namespace Dispatcher

variable {τ β : Type} {results : List (Except Failure (Option β))} {answers : List (Answer β)}

/-! ### Delivery -/

/-- The result of the next position goes into the feed in its place. -/
theorem deliver_ordered {f : Feed β} {n : Nat} {r : Except Failure (Option β)}
    (sound : Feed.Sound f (inOrder (results.take n)) answers) (isOpen : f.closed = false)
    (right : results[n]? = some r) :
    Feed.Sound (deliver f r).1 (inOrder (results.take (n + 1))) answers ∧
      ((deliver f r).2 = true → (deliver f r).1.closed = false) ∧
      ((deliver f r).2 = false → (deliver f r).1.closed = true ∧
        inOrder (results.take (n + 1)) = inOrder results) := by
  have clean := sound.error_not_mem isOpen
  have more : inOrder (results.take (n + 1)) = inOrder (results.take n) ++ inOrder [r] := by
    rw [List.take_add_one, right, Option.toList_some]
    exact inOrder_append_of_clean clean _
  rcases r with e | _ | b
  · obtain ⟨f', thrown⟩ := Feed.throw_open isOpen e
    have same : deliver f (.error e : Except Failure (Option β)) = (f', false) := by
      simp only [deliver, thrown]
    have failed : .error e ∈ inOrder (results.take (n + 1)) := by simp [more, inOrder]
    rw [same]
    refine ⟨?_, fun h => absurd h (by simp), fun _ => ⟨(Feed.throw_ok thrown).2.2.1, ?_⟩⟩
    · rw [more]
      exact sound.throw thrown
    · exact inOrder_take_of_failed failed
  · have same : deliver f (.ok none : Except Failure (Option β)) = (f, true) := rfl
    rw [same]
    refine ⟨?_, fun _ => isOpen, fun h => absurd h (by simp)⟩
    rw [more, inOrder, inOrder, List.append_nil]
    exact sound
  · obtain ⟨f', fed⟩ := Feed.feed_open isOpen b
    have same : deliver f (.ok (some b)) = (f', true) := by
      simp only [deliver, fed]
    rw [same]
    refine ⟨?_, fun _ => (Feed.feed_ok fed).2.2.1.trans isOpen, fun h => absurd h (by simp)⟩
    rw [more]
    exact sound.feed fed

/-! ### Releasing -/

/-- Parks a result, to be released in its turn. -/
def park (d : Dispatcher τ β) (index : Nat) (r : Except Failure (Option β)) : Dispatcher τ β :=
  { d with reorder := d.reorder.insert index r }

/-- Releases what is ready and ends the round. -/
def releaseAll (d : Dispatcher τ β) : Dispatcher τ β :=
  { d with
    reorder := (release d.reorder d.feed).1
    feed := (release d.reorder d.feed).2.1 }.next (release d.reorder d.feed).2.2

/-- A result that has been delivered has left the buffer. -/
def delivered (d : Dispatcher τ β) (b : Reorder (Except Failure (Option β)))
    (r : Except Failure (Option β)) : Dispatcher τ β :=
  { d with reorder := b, feed := (deliver d.feed r).1 }

theorem complete_eq {d : Dispatcher τ β} (keepOrder : d.keepOrder = true) (index : Nat)
    (r : Except Failure (Option β)) : d.complete index r = (d.park index r).releaseAll := by
  rw [complete, if_pos keepOrder]
  rfl

theorem releaseAll_none {d : Dispatcher τ β} (none : d.reorder.popReady = none) :
    d.releaseAll = d.next true := by
  rw [releaseAll, release_none d.feed none]

theorem releaseAll_some {d : Dispatcher τ β} {b : Reorder (Except Failure (Option β))}
    {r : Except Failure (Option β)} (ready : d.reorder.popReady = some (r, b)) :
    d.releaseAll =
      if (deliver d.feed r).2 then (d.delivered b r).releaseAll else (d.delivered b r).stop := by
  rw [releaseAll, release_some d.feed ready]
  split
  · rfl
  · rfl

/-- Releasing goes by what is ready: the end of the round, or one result and then the rest. -/
theorem releaseAll_induct {motive : Dispatcher τ β → Prop}
    (none : ∀ d, d.reorder.popReady = none → motive d)
    (some : ∀ d r b, d.reorder.popReady = some (r, b) →
      ((deliver d.feed r).2 = true → motive (d.delivered b r)) → motive d)
    (d : Dispatcher τ β) : motive d := by
  induction buffer : d.reorder using Reorder.popReady_induct generalizing d with
  | none b h => exact none d (buffer ▸ h)
  | some b r b' h ih => exact some d r b' (buffer ▸ h) fun _ => ih (d.delivered b' r) rfl

/-! ### The invariant -/

/-- One past the highest position that has been taken. When the source has ended, no
position is left. -/
def reach (results : List (Except Failure (Option β))) (d : Dispatcher τ β) : Nat :=
  if d.exhausted then results.length else d.dispatched

/-- A dispatcher that has not stopped: from the next position to release on, each position
that has been taken is with a worker or parked; unless it is releasing, the next one is not
parked. -/
structure Going (results : List (Except Failure (Option β))) (releasing : Bool)
    (d : Dispatcher τ β) : Prop where
  isOpen : d.feed.closed = false
  bound : d.reorder.next ≤ reach results d
  within : reach results d ≤ results.length
  places : (d.workers.map Prod.fst ++ d.reorder.parked.map Prod.fst).Perm
    (List.range' d.reorder.next (reach results d - d.reorder.next))
  parked : ∀ {i r}, (i, r) ∈ d.reorder.parked → results[i]? = some r
  unready : releasing = false → d.reorder.next ∉ d.reorder.parked.map Prod.fst
  leave : releasing = false → ∀ {read}, d.phase = .selecting true read → d.exhausted = false

/-- An ordered dispatcher over `results`, whose consumer has been given `answers`. -/
structure Ordered (results : List (Except Failure (Option β))) (releasing : Bool)
    (d : Dispatcher τ β) (answers : List (Answer β)) : Prop where
  keepOrder : d.keepOrder = true
  sound : Feed.Sound d.feed (inOrder (results.take d.reorder.next)) answers
  shut : d.feed.closed = true → inOrder (results.take d.reorder.next) = inOrder results
  midway : releasing = true → ∃ mayPull read, d.phase = .selecting mayPull read
  going : d.phase ≠ .stopped → Going results releasing d

variable {d d' : Dispatcher τ β} {releasing : Bool}

/-- While the source has not ended, the positions are those that have been taken. -/
theorem reach_of_more (more : d.exhausted = false) : reach results d = d.dispatched := by
  rw [reach, more]
  rfl

/-- No position has two workers. -/
theorem Going.distinct (g : Going results releasing d) : (d.workers.map Prod.fst).Nodup :=
  List.Nodup.of_append_left (g.places.nodup_iff.mpr List.nodup_range')

/-- A dispatcher that has joined all workers of an ended source has released all results. -/
theorem Going.all_released (g : Going results false d) (exhausted : d.exhausted = true)
    (workers : d.workers = []) : results.length ≤ d.reorder.next := by
  have places := g.places
  rw [workers, List.map_nil, List.nil_append, reach, if_pos exhausted] at places
  by_contra missing
  have front : d.reorder.next ∈
      List.range' d.reorder.next (results.length - d.reorder.next) := by
    rw [List.mem_range'_1]
    omega
  exact g.unready rfl (places.mem_iff.mpr front)

/-- Taking an element puts its position under way. -/
theorem Going.places_taken (g : Going results releasing d) (more : d.exhausted = false) :
    (d.dispatched :: (d.workers.map Prod.fst ++ d.reorder.parked.map Prod.fst)).Perm
      (List.range' d.reorder.next (d.dispatched + 1 - d.reorder.next)) := by
  have taken : reach results d = d.dispatched := reach_of_more more
  have places := g.places
  have bound := g.bound
  rw [taken] at places bound
  have last : List.range' d.reorder.next (d.dispatched + 1 - d.reorder.next) =
      List.range' d.reorder.next (d.dispatched - d.reorder.next) ++ [d.dispatched] := by
    rw [show d.dispatched + 1 - d.reorder.next = d.dispatched - d.reorder.next + 1 by omega,
      List.range'_1_concat, show d.reorder.next + (d.dispatched - d.reorder.next) = d.dispatched by
        omega]
  rw [last]
  exact (places.cons _).trans (List.perm_append_singleton _ _).symm

/-- Of the phase only the leave to take an element matters. -/
theorem Going.congr (g : Going results releasing d) (closed : d'.feed.closed = d.feed.closed)
    (workers : d'.workers.map Prod.fst = d.workers.map Prod.fst)
    (reorder : d'.reorder = d.reorder) (dispatched : d'.dispatched = d.dispatched)
    (exhausted : d'.exhausted = d.exhausted)
    (leave : releasing = false → ∀ {read}, d'.phase = .selecting true read →
      d'.exhausted = false) : Going results releasing d' := by
  have same : reach results d' = reach results d := by
    rw [reach, reach, exhausted, dispatched]
  obtain ⟨isOpen, bound, within, places, parked, unready, -⟩ := g
  constructor
  · rw [closed, isOpen]
  · rwa [reorder, same]
  · rwa [same]
  · rwa [workers, reorder, same]
  · rwa [reorder]
  · rwa [reorder]
  · exact leave

namespace Ordered

theorem start (concurrency : Nat) :
    Ordered results false ({ concurrency, keepOrder := true } : Dispatcher τ β) [] where
  keepOrder := rfl
  sound := Feed.Sound.start
  shut closed := absurd closed (by simp)
  midway releasing := absurd releasing Bool.false_ne_true
  going _ := by
    constructor
    · rfl
    · exact Nat.le_refl _
    · exact Nat.zero_le _
    · exact .refl _
    · exact fun member => absurd member List.not_mem_nil
    · exact fun _ => List.not_mem_nil
    · exact fun _ _ selecting => absurd selecting (by simp)

/-- A dispatcher that has stopped keeps what it has delivered. -/
theorem stopped (o : Ordered results releasing d answers) (keepOrder : d'.keepOrder = d.keepOrder)
    (feed : d'.feed = d.feed) (reorder : d'.reorder = d.reorder) (isOver : d'.phase = .stopped) :
    Ordered results false d' answers where
  keepOrder := keepOrder.trans o.keepOrder
  sound := by rw [feed, reorder]; exact o.sound
  shut := by rw [feed, reorder]; exact o.shut
  midway releasing := absurd releasing Bool.false_ne_true
  going running := absurd isOver running

/-- A dispatcher at rest, with another phase. -/
theorem rephase (o : Ordered results false d answers) (running : d.phase ≠ .stopped)
    {phase : Phase} (leave : ∀ {read}, phase = .selecting true read → d.exhausted = false) :
    Ordered results false { d with phase } answers := by
  refine ⟨o.keepOrder, o.sound, o.shut, fun h => absurd h Bool.false_ne_true, fun _ => ?_⟩
  exact (o.going running).congr rfl rfl rfl rfl rfl fun _ => leave

/-- What the workers are, and who has been detached, is not spoken of. -/
theorem relabel (o : Ordered results releasing d answers) {workers : List (Nat × τ)}
    (same : workers.map Prod.fst = d.workers.map Prod.fst) (detached : List (Nat × τ)) :
    Ordered results releasing { d with workers, detached } answers := by
  refine ⟨o.keepOrder, o.sound, o.shut, o.midway, fun running => ?_⟩
  have g := o.going running
  exact g.congr rfl same rfl rfl rfl g.leave

/-! ### A release, step by step -/

/-- The result of a position that was missing is parked. -/
theorem park {index : Nat} {r : Except Failure (Option β)} (keepOrder : d.keepOrder = true)
    (sound : Feed.Sound d.feed (inOrder (results.take d.reorder.next)) answers)
    (isOpen : d.feed.closed = false)
    (selecting : ∃ mayPull read, d.phase = .selecting mayPull read)
    (bound : d.reorder.next ≤ reach results d) (within : reach results d ≤ results.length)
    (places : (index :: (d.workers.map Prod.fst ++ d.reorder.parked.map Prod.fst)).Perm
      (List.range' d.reorder.next (reach results d - d.reorder.next)))
    (parked : ∀ {i r}, (i, r) ∈ d.reorder.parked → results[i]? = some r)
    (right : results[index]? = some r) : Ordered results true (d.park index r) answers := by
  have once := List.nodup_cons.mp (places.nodup_iff.mpr List.nodup_range')
  have fresh : index ∉ d.reorder.parked.map Prod.fst := fun member =>
    once.1 (List.mem_append_right _ member)
  have inserted : d.park index r =
      { d with reorder := { d.reorder with parked := (index, r) :: d.reorder.parked } } := by
    rw [Dispatcher.park, Reorder.insert_fresh fresh]
  rw [inserted]
  refine ⟨keepOrder, sound, fun closed => ?_, fun _ => selecting, fun _ => ?_⟩
  · exact absurd (isOpen.symm.trans closed) Bool.false_ne_true
  · refine ⟨isOpen, bound, within, ?_, ?_, nofun, nofun⟩
    · exact List.perm_middle.trans places
    · intro i r' member
      rcases List.mem_cons.mp member with new | old
      · cases new
        exact right
      · exact parked old

theorem running (o : Ordered results true d answers) : d.phase ≠ .stopped := by
  obtain ⟨mayPull, read, selecting⟩ := o.midway rfl
  simp [selecting]

/-- The result whose turn it is goes into the feed. -/
theorem deliver (o : Ordered results true d answers) {r : Except Failure (Option β)}
    {b : Reorder (Except Failure (Option β))} (ready : d.reorder.popReady = some (r, b)) :
    ((Dispatcher.deliver d.feed r).2 = true → Ordered results true (d.delivered b r) answers) ∧
    ((Dispatcher.deliver d.feed r).2 = false →
      Ordered results false (d.delivered b r).stop answers) := by
  have g := o.going o.running
  obtain ⟨member, next, rest⟩ := Reorder.popReady_some ready
  obtain ⟨sound, goesOn, ends⟩ := deliver_ordered o.sound g.isOpen (g.parked member)
  rw [← next] at sound ends
  constructor
  · intro goOn
    have isOpen := goesOn goOn
    refine ⟨o.keepOrder, sound, fun closed => ?_, o.midway, fun _ => ?_⟩
    · exact absurd (isOpen.symm.trans closed) Bool.false_ne_true
    have key : d.reorder.next ∈ d.reorder.parked.map Prod.fst := List.mem_map_of_mem member
    have inside := List.mem_range'_1.mp (g.places.mem_iff.mp (List.mem_append_right _ key))
    refine ⟨isOpen, ?_, g.within, ?_, ?_, nofun, nofun⟩
    · change b.next ≤ reach results d
      omega
    · -- Both sides lose the position that has been released.
      have distinct := List.Nodup.of_append_right (g.places.nodup_iff.mpr List.nodup_range')
      have split : (d.workers.map Prod.fst ++ d.reorder.parked.map Prod.fst).Perm
          (d.reorder.next :: (d.workers.map Prod.fst ++ b.parked.map Prod.fst)) := by
        rw [rest]
        exact ((perm_cons_filter_ne distinct key).append_left _).trans List.perm_middle
      have range : List.range' d.reorder.next (reach results d - d.reorder.next) =
          d.reorder.next :: List.range' b.next (reach results d - b.next) := by
        rw [next, show reach results d - d.reorder.next =
          reach results d - (d.reorder.next + 1) + 1 by omega, List.range'_succ]
      exact ((split.symm.trans g.places).trans (range ▸ List.Perm.refl _)).cons_inv
    · intro i r' entry
      exact g.parked (List.mem_of_mem_filter (rest ▸ entry))
  · intro stops
    exact ⟨o.keepOrder, sound, fun _ => (ends stops).2, fun h => absurd h Bool.false_ne_true,
      fun running => absurd rfl running⟩

/-- When nothing is ready, the round is over. -/
theorem settle (o : Ordered results true d answers) (none : d.reorder.popReady = none) :
    Ordered results false (d.next true) answers := by
  refine ⟨o.keepOrder, o.sound, o.shut, fun h => absurd h Bool.false_ne_true, fun _ => ?_⟩
  obtain ⟨isOpen, bound, within, places, parked, -, -⟩ := o.going o.running
  exact ⟨isOpen, bound, within, places, parked, fun _ => Reorder.not_mem_of_popReady_none none,
    fun _ _ selecting => by cases selecting⟩

/-! ### Rounds -/

/-- When the last worker of an ended source has been joined, the end says that all has been
delivered. -/
theorem close (o : Ordered results false d answers) (running : d.phase ≠ .stopped)
    (exhausted : d.exhausted = true) (workers : d.workers = []) :
    Ordered results false { d.stop with feed := d.feed.close } answers := by
  have all := (o.going running).all_released exhausted workers
  refine ⟨o.keepOrder, o.sound.close, fun _ => ?_, fun h => absurd h Bool.false_ne_true,
    fun running => absurd rfl running⟩
  rw [show d.stop.reorder = d.reorder from rfl, List.take_of_length_le all]

theorem select (o : Ordered results false d answers) (running : d.phase ≠ .stopped)
    (read : Feed.Waiter) :
    Ordered results false { d with phase := .selecting d.mayPull read } answers := by
  refine o.rephase running ?_
  intro read' selecting
  have leave : d.mayPull = true := by
    injection selecting
  simp only [mayPull, Bool.and_eq_true, Bool.not_eq_true'] at leave
  exact leave.1.1

/-- The result of a worker that has ended is parked. -/
theorem park_joined (o : Ordered results false d answers) {mayPull : Bool} {read : Feed.Waiter}
    (phase : d.phase = .selecting mayPull read) {index : Nat} {outcome : Outcome β}
    (member : index ∈ d.workers.map Prod.fst)
    (right : results[index]? = some (outcome.result index)) :
    Ordered results true
      (Dispatcher.park { d with workers := d.workers.filter (·.1 != index) } index
        (outcome.result index)) answers := by
  have g := o.going (by simp [phase])
  have split := perm_cons_filter_ne g.distinct member
  refine park (d := { d with workers := d.workers.filter (·.1 != index) }) o.keepOrder
    o.sound g.isOpen ⟨mayPull, read, phase⟩ g.bound g.within ?_ g.parked right
  exact (split.symm.append_right _).trans g.places

/-- A worker that has been started has the position of its element. -/
theorem started {read : Feed.Waiter} (o : Ordered results false d answers)
    (phase : d.phase = .selecting true read) (more : d.dispatched < results.length) (worker : τ) :
    Ordered results false (d.pulled (.started worker)) answers := by
  have g := o.going (by simp [phase])
  have going := g.leave rfl phase
  have bound := g.bound
  rw [reach_of_more going] at bound
  have after : reach results (d.pulled (.started worker)) = d.dispatched + 1 :=
    reach_of_more going
  refine ⟨o.keepOrder, o.sound, o.shut, fun h => absurd h Bool.false_ne_true, fun _ => ?_⟩
  refine ⟨g.isOpen, ?_, ?_, ?_, g.parked, g.unready, fun _ _ selecting => by cases selecting⟩
  · rw [after]
    exact Nat.le_succ_of_le bound
  · rwa [after]
  · have added : (d.pulled (.started worker)).workers.map Prod.fst =
        d.workers.map Prod.fst ++ [d.dispatched] := by
      simp [Dispatcher.pulled, next]
    rw [added, after, List.append_assoc]
    exact List.perm_middle.trans (g.places_taken going)

/-- The result of a worker that could not be started is parked. -/
theorem park_panicked {read : Feed.Waiter} (o : Ordered results false d answers)
    (phase : d.phase = .selecting true read) {r : Except Failure (Option β)}
    (right : results[d.dispatched]? = some r) :
    Ordered results true
      (Dispatcher.park { d with dispatched := d.dispatched + 1 } d.dispatched r) answers := by
  have g := o.going (by simp [phase])
  have going := g.leave rfl phase
  have bound := g.bound
  rw [reach_of_more going] at bound
  have after : reach results { d with dispatched := d.dispatched + 1 } = d.dispatched + 1 :=
    reach_of_more going
  have more := (List.getElem?_eq_some_iff.mp right).1
  refine park (d := { d with dispatched := d.dispatched + 1 }) o.keepOrder o.sound g.isOpen
    ⟨true, read, phase⟩ ?_ ?_ ?_ g.parked right
  · rw [after]
    exact Nat.le_succ_of_le bound
  · rwa [after]
  · rw [after]
    exact g.places_taken going

/-- The failure of the source is parked behind the last element. -/
theorem park_failure {read : Feed.Waiter} (o : Ordered results false d answers)
    (phase : d.phase = .selecting true read) {e : Failure}
    (last : results.length = d.dispatched + 1)
    (right : results[d.dispatched]? = some (.error e)) :
    Ordered results true
      (Dispatcher.park { d with exhausted := true } d.dispatched (.error e)) answers := by
  have g := o.going (by simp [phase])
  have going := g.leave rfl phase
  have bound := g.bound
  rw [reach_of_more going] at bound
  have after : reach results { d with exhausted := true } = d.dispatched + 1 := by
    rw [reach, ← last]
    rfl
  refine park (d := { d with exhausted := true }) o.keepOrder o.sound g.isOpen
    ⟨true, read, phase⟩ ?_ ?_ ?_ g.parked right
  · rw [after]
    exact Nat.le_succ_of_le bound
  · exact Nat.le_of_eq (after.trans last.symm)
  · rw [after]
    exact g.places_taken going

theorem pulledEnd {read : Feed.Waiter} (o : Ordered results false d answers)
    (phase : d.phase = .selecting true read) (last : results.length = d.dispatched) :
    Ordered results false d.pulledEnd answers := by
  have g := o.going (by simp [phase])
  have after : reach results d.pulledEnd = reach results d := by
    rw [reach_of_more (g.leave rfl phase), ← last]
    rfl
  refine ⟨o.keepOrder, o.sound, o.shut, fun h => absurd h Bool.false_ne_true, fun _ => ?_⟩
  obtain ⟨isOpen, bound, within, places, parked, unready, -⟩ := g
  exact ⟨isOpen, after ▸ bound, after ▸ within, after ▸ places, parked, unready,
    fun _ _ selecting => by cases selecting⟩

theorem noticedRead (o : Ordered results false d answers) (running : d.phase ≠ .stopped) :
    Ordered results false d.noticedRead answers :=
  o.rephase running fun selecting => by cases selecting

/-! ### The consumer -/

/-- The consumer changes the feed only, and does not close it. -/
theorem consumed (o : Ordered results releasing d answers) {f : Feed β}
    {answers' : List (Answer β)} (closed : f.closed = d.feed.closed)
    (sound : Feed.Sound f (inOrder (results.take d.reorder.next)) answers') :
    Ordered results releasing { d with feed := f } answers' := by
  refine ⟨o.keepOrder, sound, fun isClosed => o.shut (closed ▸ isClosed), o.midway,
    fun running => ?_⟩
  have g := o.going running
  exact g.congr closed rfl rfl rfl rfl g.leave

theorem refill (o : Ordered results releasing d answers) :
    Ordered results releasing { d with feed := d.feed.refill } answers :=
  o.consumed d.feed.refill_untouched.closed o.sound.refill

theorem poll (o : Ordered results releasing d answers) (present : d.feed.abandoned = false) :
    Ordered results releasing d.poll.2 (answers ++ [d.poll.1]) := by
  unfold Dispatcher.poll
  split
  · rename_i idle
    cases releasing with
    | true =>
      obtain ⟨mayPull, read, selecting⟩ := o.midway rfl
      rw [selecting] at idle
      cases idle
    | false =>
      have skipped := o.consumed (f := d.feed) rfl o.sound.skip
      exact skipped.rephase (by simp [idle]) fun selecting => by cases selecting
  · exact o.consumed d.feed.poll_untouched.closed (o.sound.poll present)

theorem drop (o : Ordered results releasing d answers) :
    Ordered results releasing d.drop answers := by
  unfold Dispatcher.drop
  split
  · rename_i idle
    refine ⟨o.keepOrder, o.sound.drop, o.shut, fun midway => ?_, fun running => absurd rfl running⟩
    obtain ⟨mayPull, read, selecting⟩ := o.midway midway
    rw [selecting] at idle
    cases idle
  · exact o.consumed rfl o.sound.drop

/-! ### Deliveries -/

theorem outputs_prefix (o : Ordered results releasing d answers) :
    outputs answers <+: inOrder results :=
  o.sound.outputs_prefix.trans (inOrder_prefix_of_take _ _)

/-- When the end is reported, everything has been delivered. -/
theorem outputs_of_done (o : Ordered results releasing d answers) (done : .done ∈ answers) :
    outputs answers = inOrder results := by
  obtain ⟨-, closed, all⟩ := o.sound.ended done
  exact all.trans (o.shut closed)

/-- A failure that has been delivered is the last of the order, and nothing follows it. -/
theorem outputs_of_failed (o : Ordered results releasing d answers)
    {before after : List (Answer β)} {e : Failure} (same : answers = before ++ .fail e :: after) :
    outputs before ++ [.error e] = inOrder results ∧ outputs after = [] := by
  obtain ⟨all, none⟩ := o.sound.failure_last same
  have failed : .error e ∈ inOrder (results.take d.reorder.next) := by simp [all]
  exact ⟨all.symm.trans (inOrder_take_of_failed failed), none⟩

end Ordered
end Dispatcher
end PullStream
