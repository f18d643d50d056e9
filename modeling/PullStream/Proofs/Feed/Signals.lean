import PullStream.Proofs.Feed.Interleaving

/-!
The counter and the signals of a feed.

`pending` is lowered outside of the lock, for an item that has left both the shared buffer
and the batch, and the signals go off after that. They are exact all the same: between
any two steps `pending` is what was accepted less what was handed out, and a signal goes
off once for each hand-over and once for the drop, so that a waiter is woken by the first of
them that comes after it was made, and by nothing else.

* `Scene.after_count`, `Ledger.after_count` — which steps, and which calls, set off a signal.
* `counter_and_signals_exact` — the contract of the counter and of the signals.
-/

namespace PullStream.Feed

variable {α : Type} {f f' : Feed α}

/-! ### What goes off only now and then -/

/-- A counter that some acts put up by one and all others leave alone has grown exactly when
one of them has been. -/
theorem grown_iff {σ τ : Type} {after : σ → τ → σ} (count : σ → Nat) {tells : σ → τ → Prop}
    (exactly : ∀ s act, tells s act ∧ count (after s act) = count s + 1 ∨
      ¬ tells s act ∧ count (after s act) = count s) (acts : List τ) :
    ∀ s, count s < count (acts.foldl after s) ↔
      ∃ before act later, acts = before ++ act :: later ∧ tells (before.foldl after s) act := by
  have grows : ∀ rest : List τ, ∀ s, count s ≤ count (rest.foldl after s) := by
    intro rest
    induction rest with
    | nil => exact fun s => Nat.le_refl _
    | cons act rest ih =>
      intro s
      refine Nat.le_trans ?_ (ih (after s act))
      rcases exactly s act with ⟨-, up⟩ | ⟨-, same⟩
      · exact up ▸ Nat.le_succ _
      · exact Nat.le_of_eq same.symm
  induction acts with
  | nil => simp
  | cons act rest ih =>
    intro s
    rcases exactly s act with ⟨tells, up⟩ | ⟨silent, same⟩
    · constructor
      · intro _
        exact ⟨[], act, rest, rfl, tells⟩
      · intro _
        exact Nat.lt_of_lt_of_le (up ▸ Nat.lt_succ_self _) (grows rest (after s act))
    · rw [List.foldl_cons, ← same, ih (after s act)]
      constructor
      · rintro ⟨before, found, later, rfl, tells⟩
        exact ⟨act :: before, found, later, rfl, tells⟩
      · rintro ⟨before, found, later, split, tells⟩
        cases before with
        | nil =>
          obtain ⟨rfl, rfl⟩ := List.cons.inj split
          exact absurd tells silent
        | cons first before =>
          obtain ⟨rfl, rfl⟩ := List.cons.inj split
          exact ⟨before, found, later, rfl, tells⟩

/-! ### Step by step -/

namespace Scene

/-- The act sets off the signal: the consumer tells of an item that it hands out (of one that
has left nothing pending, for `.empty`), or of its drop. -/
def tells (s : Scene α) : Event → Act α → Prop
  | .read, .step => (∃ a left, s.within = .counted a left) ∨ s.within = .leaving
  | .empty, .step => (∃ a, s.within = .told a) ∨ s.within = .left
  | _, _ => False

end Scene

theorem feed_count {a : α} (h : f.feed a = .ok f') (event : Event) :
    f'.count event = f.count event := by
  unfold feed at h
  split at h
  · cases h
  · cases h
    cases event <;> rfl

theorem throw_count {e : Failure} (h : f.throw e = .ok f') (event : Event) :
    f'.count event = f.count event := by
  unfold throw at h
  split at h
  · cases h
  · cases h
    cases event <;> rfl

theorem refill_count (f : Feed α) (event : Event) : f.refill.count event = f.count event := by
  unfold refill
  split
  · cases event <;> rfl
  · rfl

theorem handOut_count (noItem : ∀ a rest, f.drained ≠ .item a :: rest) (event : Event) :
    f.handOut.2.count event = f.count event := by
  unfold handOut
  split
  · rename_i a rest batch
    exact absurd batch (noItem a rest)
  · cases event <;> rfl
  · split
    · cases event <;> rfl
    · cases event <;> rfl

namespace Scene

/-- A step that tells puts the count up by one; every other step leaves it alone. -/
theorem after_count (s : Scene α) (event : Event) (act : Act α) :
    s.tells event act ∧ (s.after act).feed.count event = s.feed.count event + 1 ∨
      ¬ s.tells event act ∧ (s.after act).feed.count event = s.feed.count event := by
  have outcome := s.after_outcome act
  generalize s.after act = s' at outcome
  cases outcome with
  | refused other =>
    refine .inr ⟨?_, rfl⟩
    cases act with
    | step => exact absurd rfl other
    | _ => cases event <;> exact id
  | fed h => exact .inr ⟨by cases event <;> exact id, feed_count h event⟩
  | thrown h => exact .inr ⟨by cases event <;> exact id, throw_count h event⟩
  | closed => exact .inr ⟨by cases event <;> exact id, by cases event <;> rfl⟩
  | attached h =>
    obtain ⟨-, rfl⟩ := consume_attaches h
    exact .inr ⟨by cases event <;> exact id, by cases event <;> rfl⟩
  | asked within present => exact .inr ⟨by cases event <;> exact id, by cases event <;> rfl⟩
  | raised within present => exact .inr ⟨by cases event <;> exact id, by cases event <;> rfl⟩
  | rested within => exact .inr ⟨by cases event <;> simp [tells, within], rfl⟩
  | late within finished =>
    exact .inr ⟨by cases event <;> simp [tells, within], by cases event <;> rfl⟩
  | swapped within batch some =>
    exact .inr ⟨by cases event <;> simp [tells, within], s.feed.refill_count event⟩
  | took within running batch =>
    exact .inr ⟨by cases event <;> simp [tells, within], by cases event <;> rfl⟩
  | settled within running noItem taken =>
    exact .inr ⟨by cases event <;> simp [tells, within], handOut_count noItem event⟩
  | lowered within =>
    exact .inr ⟨by cases event <;> simp [tells, within], by cases event <;> rfl⟩
  | signalled within more =>
    cases event with
    | read => exact .inl ⟨.inl ⟨_, _, within⟩, rfl⟩
    | empty => exact .inr ⟨by simp [tells, within], rfl⟩
  | signalledLast within =>
    cases event with
    | read => exact .inl ⟨.inl ⟨_, _, within⟩, rfl⟩
    | empty => exact .inr ⟨by simp [tells, within], rfl⟩
  | emptied within =>
    cases event with
    | read => exact .inr ⟨by simp [tells, within], rfl⟩
    | empty => exact .inl ⟨.inl ⟨_, within⟩, rfl⟩
  | leftReads within =>
    cases event with
    | read => exact .inl ⟨.inr within, rfl⟩
    | empty => exact .inr ⟨by simp [tells, within], rfl⟩
  | gone within =>
    cases event with
    | read => exact .inr ⟨by simp [tells, within], rfl⟩
    | empty => exact .inl ⟨.inr within, rfl⟩

end Scene

/-! ### Call by call -/

/-- A poll would hand out an item, and leave nothing pending if the signal is about that. -/
def hands (f : Feed α) (event : Event) : Prop :=
  (∃ a, f.poll.1 = .item a) ∧ (event = .empty → f.poll.2.pending = 0)

namespace Ledger

/-- The call sets off the signal: a poll that hands out an item (one that leaves nothing pending,
for `.empty`), or the drop of the consumer. -/
def tells (s : Ledger α) (event : Event) : Call α → Prop
  | .poll => s.attended ∧ s.feed.hands event
  | .drop => s.attended
  | _ => False

end Ledger

/-- A hand-out sets off the read signal, and the other one if nothing is left pending. -/
theorem handOut_counts {a : α} {rest : List (Entry α)} (batch : f.drained = .item a :: rest)
    (event : Event) :
    f.handOut.2.count event =
      f.count event + if event = .empty → f.handOut.2.pending = 0 then 1 else 0 := by
  cases event with
  | read => simp [handOut, batch, count]
  | empty =>
    by_cases last : f.pending - 1 = 0
    · simp [handOut, batch, count, last]
    · simp [handOut, batch, count, last]

theorem poll_tells (f : Feed α) (event : Event) :
    f.hands event ∧ f.poll.2.count event = f.count event + 1 ∨
      ¬ f.hands event ∧ f.poll.2.count event = f.count event := by
  cases running : f.finished with
  | true =>
    have late := poll_of_finished running
    exact .inr ⟨fun h => by simp [hands, late] at h, by rw [late]⟩
  | false =>
    have polled : f.poll = f.refill.handOut := by
      rw [poll, running]
      rfl
    rw [hands, polled, ← f.refill_count event]
    by_cases item : ∃ a rest, f.refill.drained = .item a :: rest
    · obtain ⟨a, rest, batch⟩ := item
      have handed : ∃ b, f.refill.handOut.1 = .item b := ⟨a, by simp [handOut, batch]⟩
      have counts := handOut_counts batch event
      split at counts
      · rename_i last
        exact .inl ⟨⟨handed, last⟩, counts⟩
      · rename_i more
        exact .inr ⟨fun both => more both.2, counts⟩
    · have noItem : ∀ a rest, f.refill.drained ≠ .item a :: rest :=
        fun a rest batch => item ⟨a, rest, batch⟩
      refine .inr ⟨?_, handOut_count noItem event⟩
      rintro ⟨⟨a, isItem⟩, -⟩
      have nothing := (handOut_noItem noItem).nothing
      rw [isItem] at nothing
      cases nothing

namespace Ledger

/-- A call that tells puts the count up by one; every other call leaves it alone. -/
theorem after_count (s : Ledger α) (event : Event) (call : Call α) :
    s.tells event call ∧ (s.after call).feed.count event = s.feed.count event + 1 ∨
      ¬ s.tells event call ∧ (s.after call).feed.count event = s.feed.count event := by
  cases call with
  | feed a =>
    refine .inr ⟨id, ?_⟩
    simp only [after]
    split
    · rename_i f h
      exact feed_count h event
    · rfl
  | throw e =>
    refine .inr ⟨id, ?_⟩
    simp only [after]
    split
    · rename_i f h
      exact throw_count h event
    · rfl
  | close => exact .inr ⟨id, by cases event <;> rfl⟩
  | consume =>
    refine .inr ⟨id, ?_⟩
    simp only [after]
    split
    · rename_i f h
      obtain ⟨-, rfl⟩ := consume_attaches h
      cases event <;> rfl
    · rfl
  | refill =>
    refine .inr ⟨id, ?_⟩
    simp only [after]
    split
    · exact s.feed.refill_count event
    · rfl
  | poll =>
    by_cases present : s.attended = true
    · simp only [after, tells, present, if_true, true_and]
      exact s.feed.poll_tells event
    · exact .inr ⟨fun tells => present tells.1, by simp only [after, if_neg present]⟩
  | drop =>
    by_cases present : s.attended = true
    · refine .inl ⟨present, ?_⟩
      simp only [after, if_pos present]
      cases event <;> rfl
    · exact .inr ⟨present, by simp only [after, if_neg present]⟩

end Ledger

theorem Ledger.run_append (calls more : List (Call α)) :
    Ledger.run (calls ++ more) = more.foldl Ledger.after (Ledger.run calls) :=
  List.foldl_append

/-! ### The contract -/

theorem waiter_resolved_iff (f g : Feed α) (event : Event) :
    (f.waiter event).resolved g = true ↔ f.count event < g.count event :=
  decide_eq_true_iff

/-- Between any two steps the counter is exact, and a waiter is woken by the first hand-over or
drop after it was made. -/
theorem counter_and_signals_exact (acts : List (Act α)) :
    let s := Scene.run acts
    -- what is pending and what has been handed out make up the items that were accepted
    s.feed.pending + (itemsOf (outputs s.answers) ++ s.within.handed).length =
      (itemsOf s.accepted).length ∧
    -- while there is a consumer, these are the items in its hand, in its batch, and in the buffer
    (s.feed.abandoned = false → s.feed.pending + s.within.handed.length =
      (itemsOf (outputs s.within.coming ++ s.feed.backlog)).length) ∧
    -- the consumer lowers the counter by one, and never from zero
    (∀ a, s.within = .holding a → (s.after .step).feed.pending + 1 = s.feed.pending) ∧
    -- a waiter is woken exactly when the consumer has told of a hand-over or of its drop since
    (∀ event more, (s.feed.waiter event).resolved (Scene.run (acts ++ more)).feed = true ↔
      ∃ before act later, more = before ++ act :: later ∧
        (Scene.run (acts ++ before)).tells event act) ∧
    -- which, by whole calls, is a poll that answers with an item, or the drop
    ∀ calls event more,
      ((Ledger.run calls).feed.waiter event).resolved (Ledger.run (calls ++ more)).feed = true ↔
        ∃ before call later, more = before ++ call :: later ∧
          (Ledger.run (α := α) (calls ++ before)).tells event call := by
  intro s
  have valid : s.Valid := Scene.run_valid acts
  refine ⟨valid.balance, fun present => ?_, fun a within => ?_, fun event more => ?_,
    fun calls event more => ?_⟩
  · have balance := valid.balance
    obtain ⟨waiting, same, queue⟩ := valid.sound.conserved
    rw [same, ← queue present] at balance
    simp only [outputs_append, itemsOf_append, List.length_append] at balance ⊢
    omega
  · have some := valid.held within
    simp only [Scene.after, Scene.step, within, countOut]
    omega
  · have grown := grown_iff (fun s : Scene α => s.feed.count event)
      (fun s => s.after_count event) more s
    simpa only [waiter_resolved_iff, Scene.run_append] using grown
  · have grown := grown_iff (fun s : Ledger α => s.feed.count event)
      (fun s => s.after_count event) more (Ledger.run calls)
    simpa only [waiter_resolved_iff, Ledger.run_append] using grown

end PullStream.Feed
