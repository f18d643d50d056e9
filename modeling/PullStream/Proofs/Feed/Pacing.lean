import PullStream.Fanout
import PullStream.Proofs.Feed.Signals
import PullStream.ReadAhead

/-!
Producers that pace themselves, and the wake-ups that they rely on.

A producer that wants at most `limit` items to be undelivered makes itself a waiter for a
read, sees whether the consumer has been dropped, looks at the counter, and waits for the
read if there is no room; then it begins again. Each of these is a step of its own, and
anybody may act in between. What makes it safe is the order: the waiter is older than what
the producer has seen, and the counter is lowered before the read is signalled. So a
producer that looked too early has a waiter that is going to be woken.

* `Scene.full_or_tells` — what a producer that found no room can rely on.
* `survey_paces`, `check_paces` — the pumps take the steps of this loop.
* `no_wakeup_lost` — nobody waits for something that has happened already.
-/

namespace PullStream.Feed

variable {α : Type}

/-! ### The loop -/

/-- Where a producer stands that paces itself. -/
inductive Pace where
  | top
  /-- With a waiter, about to see whether the consumer has been dropped. -/
  | noted (read : Waiter)
  /-- About to look at the counter. -/
  | attended (read : Waiter)
  | waiting (read : Waiter)
  /-- Out of the loop. -/
  | passed
  deriving DecidableEq, Repr

/-- The next step of the loop, on the feed as it is then. -/
def Pace.next (limit : Nat) (f : Feed α) : Pace → Pace
  | .top => .noted (f.waiter .read)
  | .noted read => if f.abandoned then .passed else .attended read
  | .attended read => if f.pending < limit then .passed else .waiting read
  | .waiting read => if read.resolved f then .top else .waiting read
  | .passed => .passed

/-- The loop with nobody in between. -/
def Pace.settled (limit : Nat) (f : Feed α) : Pace :=
  ((Pace.top.next limit f).next limit f).next limit f

theorem Pace.settled_eq (limit : Nat) (f : Feed α) :
    Pace.settled limit f =
      if f.abandoned ∨ f.pending < limit then .passed else .waiting (f.waiter .read) := by
  by_cases abandoned : f.abandoned = true
  · simp [settled, next, abandoned]
  · by_cases room : f.pending < limit
    · simp [settled, next, abandoned, room]
    · simp [settled, next, abandoned, room]

/-- The pump that reads ahead waits for a read as the loop does. -/
theorem survey_paces (p : ReadAhead α) (read : Waiter) :
    p.survey.phase = .waiting read ↔ Pace.settled p.size p.feed = .waiting read := by
  rw [Pace.settled_eq, ReadAhead.survey]
  by_cases abandoned : p.feed.abandoned = true
  · simp [abandoned]
  · by_cases room : p.feed.pending < p.size
    · simp [abandoned, room, Nat.not_le_of_lt room]
    · simp [abandoned, room, Nat.le_of_not_lt room]

/-- The pump of a fan-out does so at each of its outputs, unless room is unlimited. -/
theorem check_paces (p : Fanout α) {k : Nat} {f : Feed α} (output : p.feeds[k]? = some f)
    (limited : p.buffer ≠ 0) (read : Waiter) :
    (p.check k).phase = .waiting k read ↔ Pace.settled p.buffer f = .waiting read := by
  rw [Pace.settled_eq, Fanout.check, output]
  by_cases abandoned : f.abandoned = true
  · simp [Fanout.hasRoom, abandoned]
  · by_cases room : f.pending < p.buffer
    · simp [Fanout.hasRoom, abandoned, room]
    · simp [Fanout.hasRoom, abandoned, room, limited]

/-! ### A producer among others -/

/-- A feed between two steps, with a producer that paces itself. -/
structure Paced (α : Type) extends Scene α where
  pace : Pace := .top

/-- What may happen next to a feed with such a producer. -/
inductive Paced.Act (α : Type) where
  /-- Somebody else takes a step: the consumer, or another producer. -/
  | others (act : Feed.Act α)
  /-- The producer takes the next step of its loop. -/
  | look
  /-- Out of the loop, the producer feeds one item and enters the loop again. -/
  | supply (value : α)

namespace Paced

/-- One step of anybody. -/
def after (limit : Nat) (s : Paced α) : Act α → Paced α
  | .others act => { s with toScene := s.toScene.after act }
  | .look => { s with pace := s.pace.next limit s.feed }
  | .supply a =>
    if s.pace = .passed then ⟨s.toScene.after (.feed a), .top⟩ else s

/-- An interleaving of steps on a new feed. -/
def run (limit : Nat) (acts : List (Act α)) : Paced α :=
  acts.foldl (after limit) {}

theorem run_snoc (limit : Nat) (acts : List (Act α)) (act : Act α) :
    run limit (acts ++ [act]) = (run limit acts).after limit act :=
  List.foldl_append

end Paced

/-! ### What a waiter vouches for -/

/-- The items that do not count any more, and whose read has not been signalled. -/
def Within.untold : Within α → Nat
  | .counted _ _ => 1
  | _ => 0

theorem Within.untold_le (w : Within α) : w.untold ≤ w.handed.length := by
  cases w <;> simp [untold, handed]

namespace Scene

variable {limit : Nat} {s : Scene α}

/-- The consumer is there, or its drop is about to be signalled. -/
def Present (s : Scene α) : Prop :=
  s.feed.abandoned = true → s.within = .leaving

/-- There is no room, but for an item whose read is about to be signalled. -/
def Full (limit : Nat) (s : Scene α) : Prop :=
  limit ≤ s.feed.pending + s.within.untold

/-- Only a step that tells of itself takes the consumer away. -/
theorem present_or_tells (v : s.Valid) (present : s.Present) (act : Act α) :
    s.tells .read act ∨ (s.after act).Present := by
  have outcome := s.after_outcome act
  generalize s.after act = s' at outcome
  have polling := v.polling
  cases outcome with
  | refused _ => exact .inr present
  | rested _ => exact .inr present
  | fed h => exact .inr fun gone => present ((feed_ok h).2.2.2.abandoned.symm.trans gone)
  | thrown h => exact .inr fun gone => present ((throw_ok h).2.2.2.abandoned.symm.trans gone)
  | closed => exact .inr present
  | attached h =>
    obtain ⟨-, rfl⟩ := consume_attaches h
    exact .inr present
  | asked _ isThere => exact .inr fun gone => absurd (isThere.symm.trans gone) nofun
  | raised _ _ => exact .inr fun _ => rfl
  | late within _ =>
    rw [within] at polling
    exact .inr fun gone => absurd ((polling rfl).symm.trans gone) nofun
  | swapped within _ _ =>
    rw [within] at polling
    have isThere := s.feed.refill_untouched.abandoned.trans (polling rfl)
    exact .inr fun gone => absurd (isThere.symm.trans gone) nofun
  | took within _ _ =>
    rw [within] at polling
    exact .inr fun gone => absurd ((polling rfl).symm.trans gone) nofun
  | settled within _ noItem _ =>
    rw [within] at polling
    have isThere := (handOut_noItem noItem).abandoned.trans (polling rfl)
    exact .inr fun gone => absurd (isThere.symm.trans gone) nofun
  | lowered within =>
    rw [within] at polling
    exact .inr fun gone => absurd ((polling rfl).symm.trans gone) nofun
  | signalled within _ => exact .inl (.inl ⟨_, _, within⟩)
  | signalledLast within => exact .inl (.inl ⟨_, _, within⟩)
  | emptied within =>
    rw [within] at polling
    exact .inr fun gone => absurd ((polling rfl).symm.trans gone) nofun
  | leftReads within => exact .inl (.inr within)
  | gone within =>
    -- The read has been signalled by now, so that nobody counts on it any more.
    have leaving := present (v.leaving (by rw [within]; rfl))
    cases leaving.symm.trans within

/-- Only a step that tells of itself makes room. -/
theorem full_or_tells (full : s.Full limit) (act : Act α) :
    s.tells .read act ∨ (s.after act).Full limit := by
  have outcome := s.after_outcome act
  generalize s.after act = s' at outcome
  unfold Full at full
  cases outcome with
  | refused _ => exact .inr full
  | rested _ => exact .inr full
  | fed h =>
    refine .inr ?_
    simp only [Full, (feed_counts h).1]
    omega
  | thrown h =>
    refine .inr ?_
    simpa only [Full, (throw_counts h).1] using full
  | closed => exact .inr full
  | attached h =>
    obtain ⟨-, rfl⟩ := consume_attaches h
    exact .inr full
  | asked within _ =>
    rw [within] at full
    exact .inr full
  | raised within _ =>
    rw [within] at full
    exact .inr full
  | late within _ =>
    rw [within] at full
    exact .inr full
  | swapped within _ _ => exact .inr (by simpa [Full] using full)
  | took within _ _ =>
    rw [within] at full
    exact .inr full
  | settled within _ noItem _ =>
    rw [within] at full
    refine .inr ?_
    simp only [Full, answer, (handOut_noItem noItem).pending]
    exact full
  | lowered within =>
    -- What leaves the counter is owed until the read is signalled.
    rw [within] at full
    refine .inr ?_
    simp only [Full, countOut, Within.untold] at full ⊢
    omega
  | signalled within _ => exact .inl (.inl ⟨_, _, within⟩)
  | signalledLast within => exact .inl (.inl ⟨_, _, within⟩)
  | emptied within =>
    rw [within] at full
    exact .inr full
  | leftReads within => exact .inl (.inr within)
  | gone within =>
    rw [within] at full
    exact .inr full

end Scene

/-- A waiter for a read, after one more step. -/
theorem Waiter.Made.after {read : Waiter} {s : Scene α} (made : read.Made s.feed)
    (act : Feed.Act α) : read.Made (s.after act).feed := by
  refine made.mono ?_
  rcases s.after_count .read act with ⟨-, up⟩ | ⟨-, same⟩
  · exact Nat.le_of_lt (Nat.lt_of_succ_le (Nat.le_of_eq up.symm))
  · exact Nat.le_of_eq same.symm

/-- A waiter that has not been woken by a step was not woken before, and the step told of
nothing. -/
theorem Waiter.Made.unresolved {read : Waiter} {s : Scene α} (made : read.Made s.feed)
    {act : Feed.Act α} (unresolved : read.resolved (s.after act).feed = false) :
    ¬ s.tells .read act ∧ read.resolved s.feed = false := by
  have now := (made.after act).reads_eq unresolved
  have before := made.2
  rcases s.after_count .read act with ⟨-, up⟩ | ⟨silent, same⟩
  · simp only [count] at up
    omega
  · refine ⟨silent, ?_⟩
    simp only [count] at same
    simp only [Waiter.resolved, made.1, count, decide_eq_false_iff_not]
    omega

/-- What a producer can rely on where it stands: as long as its waiter has not been woken, what
it has seen since it made the waiter is still so. -/
def Pace.Sure (limit : Nat) (s : Scene α) : Pace → Prop
  | .top | .passed => True
  | .noted read => read.Made s.feed
  | .attended read => read.Made s.feed ∧ (read.resolved s.feed = false → s.Present)
  | .waiting read =>
    read.Made s.feed ∧ (read.resolved s.feed = false → s.Present ∧ s.Full limit)

namespace Paced

variable {limit : Nat} {s : Paced α}

/-- What holds between any two steps. -/
structure Valid (limit : Nat) (s : Paced α) : Prop where
  scene : s.toScene.Valid
  sure : s.pace.Sure limit s.toScene

theorem start_valid : ({} : Paced α).Valid limit :=
  ⟨Scene.start_valid, trivial⟩

/-- The steps of others keep what the producer relies on. -/
theorem Valid.others (v : s.Valid limit) (act : Feed.Act α) :
    (s.after limit (.others act)).Valid limit := by
  obtain ⟨scene, sure⟩ := v
  refine ⟨Scene.after_valid scene act, ?_⟩
  simp only [after]
  cases stands : s.pace with
  | top => trivial
  | passed => trivial
  | noted read =>
    rw [stands] at sure
    exact sure.after act
  | attended read =>
    rw [stands] at sure
    obtain ⟨made, present⟩ := sure
    refine ⟨made.after act, fun unresolved => ?_⟩
    obtain ⟨silent, before⟩ := made.unresolved unresolved
    exact (Scene.present_or_tells scene (present before) act).resolve_left silent
  | waiting read =>
    rw [stands] at sure
    obtain ⟨made, rely⟩ := sure
    refine ⟨made.after act, fun unresolved => ?_⟩
    obtain ⟨silent, before⟩ := made.unresolved unresolved
    obtain ⟨present, full⟩ := rely before
    constructor
    · exact (Scene.present_or_tells scene present act).resolve_left silent
    · exact (Scene.full_or_tells full act).resolve_left silent

/-- A look at the feed is taken with a waiter that is older than what is seen. -/
theorem Valid.look (v : s.Valid limit) : (s.after limit .look).Valid limit := by
  obtain ⟨scene, sure⟩ := v
  refine ⟨scene, ?_⟩
  simp only [after]
  cases stands : s.pace with
  | top => exact waiter_made s.feed
  | noted read =>
    rw [stands] at sure
    by_cases abandoned : s.feed.abandoned = true
    · simp only [Pace.next, if_pos abandoned]
      trivial
    · simp only [Pace.next, if_neg abandoned]
      exact ⟨sure, fun _ gone => absurd gone abandoned⟩
  | attended read =>
    rw [stands] at sure
    obtain ⟨made, present⟩ := sure
    by_cases room : s.feed.pending < limit
    · simp only [Pace.next, if_pos room]
      trivial
    · simp only [Pace.next, if_neg room]
      have full : s.Full limit := Nat.le_add_right_of_le (Nat.le_of_not_lt room)
      exact ⟨made, fun unresolved => ⟨present unresolved, full⟩⟩
  | waiting read =>
    rw [stands] at sure
    by_cases woken : read.resolved s.feed = true
    · simp only [Pace.next, if_pos woken]
      trivial
    · simp only [Pace.next, if_neg woken]
      exact sure
  | passed => trivial

theorem after_valid (v : s.Valid limit) (act : Act α) : (s.after limit act).Valid limit := by
  cases act with
  | others act => exact v.others act
  | look => exact v.look
  | supply a =>
    simp only [after]
    split
    · exact ⟨Scene.after_valid v.scene (.feed a), trivial⟩
    · exact v

theorem run_valid (limit : Nat) (acts : List (Act α)) : (run limit acts).Valid limit := by
  induction acts using List.reverseRecOn with
  | nil => exact start_valid
  | append_singleton acts act ih =>
    rw [run_snoc]
    exact after_valid ih act

/-! ### A producer alone -/

/-- While its consumer is there, a feed with one producer that paces itself has no more than
`limit` items pending, and has room when the producer has found some. -/
structure Bounded (limit : Nat) (s : Paced α) : Prop where
  bound : s.feed.abandoned = false → s.feed.pending ≤ limit
  room : s.pace = .passed → s.feed.abandoned = false → s.feed.pending < limit

/-- Nobody but the producer puts an item in. -/
def Act.alone : Act α → Prop
  | .others (.feed _) => False
  | _ => True

end Paced

/-- A step that is not the acceptance of an item leaves no more pending, and brings no consumer
back. -/
theorem Scene.pending_le (s : Scene α) {act : Feed.Act α} (silent : ∀ a, act ≠ .feed a) :
    (s.after act).feed.pending ≤ s.feed.pending ∧
      ((s.after act).feed.abandoned = false → s.feed.abandoned = false) := by
  have outcome := s.after_outcome act
  generalize s.after act = s' at outcome
  cases outcome with
  | fed h => exact absurd rfl (silent _)
  | thrown h =>
    exact ⟨Nat.le_of_eq (throw_counts h).1, (throw_ok h).2.2.2.abandoned.symm.trans⟩
  | attached h =>
    obtain ⟨-, rfl⟩ := consume_attaches h
    exact ⟨Nat.le_refl _, id⟩
  | raised within present => exact ⟨Nat.le_refl _, nofun⟩
  | swapped within batch some =>
    exact ⟨Nat.le_of_eq s.feed.refill_pending, s.feed.refill_untouched.abandoned.symm.trans⟩
  | settled within running noItem taken =>
    have quiet := handOut_noItem noItem
    exact ⟨Nat.le_of_eq quiet.pending, quiet.abandoned.symm.trans⟩
  | lowered within => exact ⟨Nat.sub_le _ _, id⟩
  | _ => exact ⟨Nat.le_refl _, id⟩

/-- One item more at most. -/
theorem Scene.pending_feed (s : Scene α) (a : α) :
    (s.after (.feed a)).feed.pending ≤ s.feed.pending + 1 ∧
      ((s.after (.feed a)).feed.abandoned = false → s.feed.abandoned = false) := by
  have outcome := s.after_outcome (.feed a)
  generalize s.after (.feed a) = s' at outcome
  cases outcome with
  | refused _ => exact ⟨Nat.le_succ _, id⟩
  | fed h => exact ⟨Nat.le_of_eq (feed_counts h).1, (feed_ok h).2.2.2.abandoned.symm.trans⟩

namespace Paced

variable {limit : Nat} {s : Paced α}

theorem after_bounded (b : s.Bounded limit) {act : Act α} (alone : act.alone) :
    (s.after limit act).Bounded limit := by
  obtain ⟨bound, room⟩ := b
  cases act with
  | others act =>
    have silent : ∀ a, act ≠ .feed a := by
      rintro a rfl
      exact alone
    have fewer := s.toScene.pending_le silent
    constructor
    · intro present
      exact Nat.le_trans fewer.1 (bound (fewer.2 present))
    · intro passed present
      exact Nat.lt_of_le_of_lt fewer.1 (room passed (fewer.2 present))
  | look =>
    refine ⟨bound, fun passed present => ?_⟩
    simp only [after] at passed present ⊢
    cases stands : s.pace with
    | passed => exact room stands present
    | attended read =>
      rw [stands, Pace.next] at passed
      split at passed
      · assumption
      · cases passed
    | noted read =>
      rw [stands, Pace.next] at passed
      split at passed
      · rename_i abandoned
        exact absurd (abandoned.symm.trans present) nofun
      · cases passed
    | top =>
      rw [stands] at passed
      cases passed
    | waiting read =>
      rw [stands, Pace.next] at passed
      split at passed
      · cases passed
      · cases passed
  | supply a =>
    simp only [after]
    split
    · rename_i passed
      obtain ⟨more, back⟩ := s.toScene.pending_feed a
      refine ⟨fun present => ?_, nofun⟩
      exact Nat.le_trans more (room passed (back present))
    · exact ⟨bound, room⟩

theorem run_bounded (limit : Nat) (acts : List (Act α)) (alone : ∀ act ∈ acts, act.alone) :
    (run limit acts).Bounded limit := by
  induction acts using List.reverseRecOn with
  | nil => exact ⟨fun _ => Nat.zero_le _, nofun⟩
  | append_singleton acts act ih =>
    rw [run_snoc]
    exact after_bounded (ih fun a member => alone a (List.mem_append_left _ member))
      (alone act (by simp))

end Paced

/-! ### The contract -/

/-- While the consumer waits to be woken, nothing is pending, and nothing is owed. -/
theorem Scene.Valid.pending_of_parked {s : Scene α} (v : s.Valid)
    (present : s.feed.abandoned = false) (parked : s.feed.parked = true) :
    s.feed.pending + s.within.untold = 0 := by
  obtain ⟨drained, shared, -, coming⟩ := v.asleep parked
  have balance := v.balance
  obtain ⟨waiting, same, queue⟩ := v.sound.conserved
  have none : waiting = [] := by
    rw [← queue present, backlog, drained, shared]
    rfl
  have all : s.accepted = outputs s.answers := by
    rw [same, none, coming, List.append_nil, List.append_nil]
  have untold : s.within.untold = 0 := by
    cases within : s.within <;> simp [within, Within.coming, Within.untold] at coming ⊢
  rw [all, List.length_append] at balance
  omega

/-- Neither the consumer nor a producer that paces itself waits for something that has happened,
whatever steps others take in between. -/
theorem no_wakeup_lost (limit : Nat) (acts : List (Paced.Act α)) :
    let s := Paced.run limit acts
    -- a consumer that waits to be woken has nothing to find: no item, no failure, no end
    (s.feed.parked = true →
      s.feed.drained = [] ∧ s.feed.shared = [] ∧ s.feed.closed = false) ∧
    -- a producer that waits for a read has `limit` items undelivered before it and a consumer,
    -- whose drop has not come further than the flag, if it has begun
    (∀ read, s.pace = .waiting read → read.resolved s.feed = false →
      limit + (itemsOf (outputs s.answers)).length ≤ (itemsOf s.accepted).length ∧
      (s.feed.abandoned = true → s.within = .leaving) ∧
      -- and the two do not wait for each other
      (1 ≤ limit → s.feed.abandoned = false → s.feed.parked = false)) ∧
    -- alone, it never has more than `limit` items pending
    ((∀ act ∈ acts, act.alone) → s.feed.abandoned = false → s.feed.pending ≤ limit) := by
  intro s
  have valid : s.Valid limit := Paced.run_valid limit acts
  obtain ⟨scene, sure⟩ := valid
  refine ⟨fun parked => ?_, fun read stands unresolved => ?_, fun alone => ?_⟩
  · obtain ⟨drained, shared, isOpen, -⟩ := scene.asleep parked
    exact ⟨drained, shared, isOpen⟩
  · rw [stands] at sure
    obtain ⟨present, full⟩ := sure.2 unresolved
    have owed := s.within.untold_le
    have balance := scene.balance
    refine ⟨?_, present, fun some isThere => ?_⟩
    · rw [List.length_append] at balance
      unfold Scene.Full at full
      omega
    · by_contra parked
      have none := scene.pending_of_parked isThere (by simpa using parked)
      unfold Scene.Full at full
      omega
  · exact (Paced.run_bounded limit acts alone).bound

end PullStream.Feed
