import PullStream.Proofs.Feed.Ledger

/-!
The counters of a feed.

While the consumer is there, `pending` is the number of items in the backlog. An item that
is handed out leaves `pending` and is counted by `reads`, so that together they change only
when an item is accepted, or when the consumer goes. A waiter for a read is woken by the
next item that is handed out, and by nothing that leaves the items where they are.

* `Counted` — the invariant, kept by every call.
* `poll_counts` — a poll moves items from one counter to the other.
* `Alerted` — a waiter that tells of the drop.
-/

namespace PullStream.Feed

variable {α : Type} {f f' : Feed α} {accepted : List (Except Failure α)}
  {answers : List (Answer α)}

/-! ### Producers -/

theorem feed_counts {a : α} (h : f.feed a = .ok f') :
    f'.pending = f.pending + 1 ∧ f'.reads = f.reads := by
  unfold feed at h
  split at h
  · cases h
  · cases h
    exact ⟨rfl, rfl⟩

theorem throw_counts {e : Failure} (h : f.throw e = .ok f') :
    f'.pending = f.pending ∧ f'.reads = f.reads := by
  unfold throw at h
  split at h
  · cases h
  · cases h
    exact ⟨rfl, rfl⟩

/-! ### The consumer -/

@[simp] theorem refill_pending (f : Feed α) : f.refill.pending = f.pending := by
  unfold refill
  split <;> rfl

@[simp] theorem refill_reads (f : Feed α) : f.refill.reads = f.reads := by
  unfold refill
  split <;> rfl

/-- An item that is handed out is counted; nothing else is. -/
theorem poll_count (f : Feed α) :
    (∃ a, f.poll.1 = .item a ∧ f.poll.2.pending = f.pending - 1 ∧
      f.poll.2.reads = f.reads + 1) ∨
    (∀ a, f.poll.1 ≠ .item a) ∧ f.poll.2.pending = f.pending ∧ f.poll.2.reads = f.reads := by
  unfold poll
  split
  · exact .inr ⟨by simp, rfl, rfl⟩
  · unfold handOut
    split
    · exact .inl ⟨_, rfl, by simp, by simp⟩
    · exact .inr ⟨by simp, by simp, by simp⟩
    · split
      · exact .inr ⟨by simp, by simp, by simp⟩
      · exact .inr ⟨by simp, by simp, by simp⟩

theorem poll_pending_le (f : Feed α) : f.poll.2.pending ≤ f.pending := by
  rcases f.poll_count with ⟨a, -, pending, -⟩ | ⟨-, pending, -⟩
  · omega
  · omega

theorem reads_le_poll (f : Feed α) : f.reads ≤ f.poll.2.reads := by
  rcases f.poll_count with ⟨a, -, -, reads⟩ | ⟨-, -, reads⟩
  · omega
  · omega

/-! ### The invariant -/

/-- `pending` is the number of items in the backlog; the drop of the consumer does not
change it any more. -/
structure Counted (f : Feed α) : Prop where
  exact : f.abandoned = false → f.pending = (itemsOf f.backlog).length
  least : (itemsOf f.backlog).length ≤ f.pending

namespace Counted

theorem start : Counted ({} : Feed α) :=
  ⟨fun _ => rfl, Nat.le_refl _⟩

theorem feed (c : Counted f) {a : α} (h : f.feed a = .ok f') : Counted f' := by
  obtain ⟨-, backlog, -, -, -, abandoned⟩ := feed_ok h
  have pending := (feed_counts h).1
  have more : (itemsOf f'.backlog).length = (itemsOf f.backlog).length + 1 := by
    rw [backlog, itemsOf_append, List.length_append]
    rfl
  constructor
  · intro present
    rw [pending, more, c.exact (abandoned ▸ present)]
  · rw [pending, more]
    exact Nat.succ_le_succ c.least

theorem throw (c : Counted f) {e : Failure} (h : f.throw e = .ok f') : Counted f' := by
  obtain ⟨-, backlog, -, -, -, abandoned⟩ := throw_ok h
  have pending := (throw_counts h).1
  have same : (itemsOf f'.backlog).length = (itemsOf f.backlog).length := by
    rw [backlog, itemsOf_append, List.length_append]
    rfl
  constructor
  · intro present
    rw [pending, same, c.exact (abandoned ▸ present)]
  · rw [pending, same]
    exact c.least

theorem close (c : Counted f) : Counted f.close :=
  ⟨c.exact, c.least⟩

theorem refill (c : Counted f) : Counted f.refill := by
  constructor
  · intro present
    rw [refill_pending, refill_backlog]
    exact c.exact (f.refill_untouched.abandoned ▸ present)
  · rw [refill_pending, refill_backlog]
    exact c.least

theorem drop (c : Counted f) : Counted f.drop where
  exact present := absurd present (by simp [Feed.drop])
  least := by
    have shorter : f.drop.backlog.Sublist f.backlog := by
      simp [backlog, Feed.drop]
    exact Nat.le_trans (shorter.filterMap _).length_le c.least

/-- A poll by a consumer that is there. -/
theorem poll (c : Counted f) (s : Sound f accepted answers) (present : f.abandoned = false) :
    Counted f.poll.2 := by
  have exactly := c.exact present
  have kept : f.poll.2.pending = (itemsOf f.poll.2.backlog).length := by
    have spec := f.poll_spec
    have count := f.poll_count
    generalize f.poll = result at spec count
    obtain ⟨answer, f'⟩ := result
    cases spec with
    | late finished same => rw [same, exactly]
    | @item a rest running front backlog going =>
      rcases count with ⟨_, -, pending, -⟩ | ⟨other, -⟩
      · rw [pending, exactly, front, backlog]
        rfl
      · exact absurd rfl (other a)
    | @failure e rest running front none isOver =>
      rcases count with ⟨_, isItem, -⟩ | ⟨-, pending, -⟩
      · cases isItem
      · -- A failure is the last entry, so nothing is left behind it.
        obtain ⟨waiting, same, queue⟩ := s.conserved
        have last : rest = [] := by
          cases rest with
          | nil => rfl
          | cons r rs =>
            refine absurd ?_ (s.terminal e)
            rw [same, ← queue present, front,
              List.dropLast_append_of_ne_nil (List.cons_ne_nil _ _)]
            simp
        rw [pending, exactly, front, none last, last]
        rfl
    | ended running none isClosed backlog isOver =>
      rcases count with ⟨_, isItem, -⟩ | ⟨-, pending, -⟩
      · cases isItem
      · rw [pending, exactly, none, backlog]
    | waiting running none isOpen backlog going =>
      rcases count with ⟨_, isItem, -⟩ | ⟨-, pending, -⟩
      · cases isItem
      · rw [pending, exactly, none, backlog]
  exact ⟨fun _ => kept, Nat.le_of_eq kept.symm⟩

end Counted

/-- A poll moves items from one counter to the other. -/
theorem poll_counts (c : Counted f) (present : f.abandoned = false) :
    f.poll.2.pending + f.poll.2.reads = f.pending + f.reads := by
  rcases f.poll_count with ⟨a, isItem, pending, reads⟩ | ⟨-, pending, reads⟩
  · have some : 0 < f.pending := by
      have spec := f.poll_spec
      rw [isItem] at spec
      cases spec with
      | item running front backlog going =>
        rw [c.exact present, front]
        exact Nat.succ_pos _
    omega
  · omega

/-- While the feed is open and something is pending, a poll hands it out. -/
theorem poll_item (c : Counted f) (s : Sound f accepted answers) (present : f.abandoned = false)
    (isOpen : f.closed = false) (some : 0 < f.pending) : ∃ a, f.poll.1 = .item a := by
  have count := c.exact present
  have spec := f.poll_spec
  generalize f.poll = result at spec
  obtain ⟨answer, f'⟩ := result
  cases spec with
  | late finished same =>
    rw [s.running present isOpen] at finished
    cases finished
  | item => exact ⟨_, rfl⟩
  | @failure e rest running front _ _ =>
    obtain ⟨waiting, same, queue⟩ := s.conserved
    refine absurd ?_ (s.error_not_mem isOpen e)
    rw [same, ← queue present, front]
    simp
  | ended running none _ _ _ =>
    rw [none] at count
    exact absurd count (Nat.ne_of_gt some)
  | waiting running none _ _ _ =>
    rw [none] at count
    exact absurd count (Nat.ne_of_gt some)

/-! ### Waiters for a read -/

/-- The waiter waits for a read, and was made not later than now. -/
def Waiter.Made (read : Waiter) (f : Feed α) : Prop :=
  read.event = .read ∧ read.seen ≤ f.reads

theorem Waiter.Made.mono {read : Waiter} (made : read.Made f) (later : f.reads ≤ f'.reads) :
    read.Made f' :=
  ⟨made.1, Nat.le_trans made.2 later⟩

theorem waiter_made (f : Feed α) : (f.waiter .read).Made f :=
  ⟨rfl, Nat.le_refl _⟩

/-- While a waiter for a read has not been woken, no item has been handed out. -/
theorem Waiter.Made.reads_eq {read : Waiter} (made : read.Made f)
    (unresolved : read.resolved f = false) : f.reads = read.seen := by
  have notBelow : ¬ read.seen < f.reads := by
    simpa [Waiter.resolved, made.1, count] using unresolved
  exact Nat.le_antisymm (Nat.le_of_not_lt notBelow) made.2

/-! ### The consumer, as a producer sees it -/

/-- What the consumer of a feed does to it: it hands out items, or goes. -/
structure Consumed (f f' : Feed α) : Prop where
  reads : f.reads ≤ f'.reads
  gone : f'.abandoned = true → f.abandoned = true ∨ f.reads < f'.reads
  counts : f.pending + f.reads ≤ f'.pending + f'.reads

theorem Consumed.refl (f : Feed α) : Consumed f f :=
  ⟨Nat.le_refl _, .inl, Nat.le_refl _⟩

theorem refill_consumed (f : Feed α) : Consumed f f.refill where
  reads := Nat.le_of_eq f.refill_reads.symm
  gone gone := .inl (f.refill_untouched.abandoned.symm.trans gone)
  counts := Nat.le_of_eq (by rw [refill_pending, refill_reads])

theorem drop_consumed (f : Feed α) : Consumed f f.drop where
  reads := Nat.le_succ _
  gone _ := .inr (Nat.lt_succ_self _)
  counts := Nat.le_succ _

theorem poll_consumed (c : Counted f) (present : f.abandoned = false) :
    Consumed f f.poll.2 where
  reads := f.reads_le_poll
  gone gone := .inl (f.poll_untouched.abandoned.symm.trans gone)
  counts := Nat.le_of_eq (poll_counts c present).symm

/-- A waiter that was made before its owner saw the consumer there tells it of the drop. -/
structure Alerted (read : Waiter) (f : Feed α) : Prop where
  made : read.Made f
  gone : f.abandoned = true → read.seen < f.reads

namespace Alerted

variable {read : Waiter}

theorem of_present (made : read.Made f) (present : f.abandoned = false) : Alerted read f :=
  ⟨made, fun gone => by cases gone.symm.trans present⟩

/-- It does so as long as reads are counted, that of the drop with them. -/
theorem mono (a : Alerted read f) (reads : f.reads ≤ f'.reads)
    (gone : f'.abandoned = true → f.abandoned = true ∨ f.reads < f'.reads) : Alerted read f' := by
  refine ⟨a.made.mono reads, fun isGone => ?_⟩
  rcases gone isGone with before | now
  · exact Nat.lt_of_lt_of_le (a.gone before) reads
  · exact Nat.lt_of_le_of_lt a.made.2 now

theorem later (a : Alerted read f) (consumed : Consumed f f') : Alerted read f' :=
  a.mono consumed.reads consumed.gone

/-- When the consumer has gone, the waiter has been woken. -/
theorem resolved (a : Alerted read f) (gone : f.abandoned = true) : read.resolved f = true := by
  have woken := a.gone gone
  simpa [Waiter.resolved, a.made.1, count] using woken

end Alerted

end PullStream.Feed
