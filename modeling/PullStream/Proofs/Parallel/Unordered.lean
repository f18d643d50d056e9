import PullStream.Proofs.Machine.Reach
import PullStream.Proofs.Parallel.Sourced

/-!
What the consumer of an unordered dispatcher is given.

An unordered dispatcher puts results into its feed as it gets them. What its consumer is given
is told by the list of these results (`JoinOrder`): their values in that order, up to the first
failure. The dispatcher gets nothing behind a failure, and without one it gets all results
before its end, so that only their order is open.

* `JoinOrder` — the contract, `JoinOrder.of_sound` how a feed keeps it.
* `JoinOrder.perm_of_clean`, `JoinOrder.failed_iff` — with and without failures.
* `Gathered.joinOrder` — courses.
* `JoinOrder.guarded` — stages that end at a failure.
-/

namespace PullStream

variable {ω τ α β : Type} {expected joined : List (Except Failure (Option β))}
  {answers : List (Answer β)}

/-! ### The contract -/

/-- Of the results `expected` the dispatcher has got `joined`, in this order, and its consumer
has been given `answers`. -/
structure JoinOrder (expected joined : List (Except Failure (Option β)))
    (answers : List (Answer β)) : Prop where
  /-- Each result is got once at most. -/
  once : joined.Subperm expected
  /-- Nothing is got behind a failure. -/
  last : ∀ e, .error e ∉ joined.dropLast
  delivered : outputs answers <+: inOrder joined
  /-- A failure comes behind the values of all results before it, and nothing comes after. -/
  failed : ∀ {before e after}, answers = before ++ .fail e :: after →
    joined = joined.dropLast ++ [.error e] ∧ outputs before = inOrder joined.dropLast ∧
      outputs after = []
  /-- When the end is reported, everything has been delivered. -/
  ended : .done ∈ answers → outputs answers = inOrder joined
  /-- Without a failure the end is reported behind all results. -/
  complete : .done ∈ answers → (∃ e, .error e ∈ joined) ∨ joined.Perm expected

/-- A failure that has been got is the last of what has been got. -/
theorem eq_concat_of_error_mem (last : ∀ e, .error e ∉ joined.dropLast) {e : Failure}
    (member : .error e ∈ joined) : joined = joined.dropLast ++ [.error e] := by
  rcases List.eq_nil_or_concat joined with rfl | ⟨front, r, rfl⟩
  · exact absurd member List.not_mem_nil
  · rw [List.concat_eq_append] at last member ⊢
    rw [List.dropLast_concat] at last ⊢
    rcases List.mem_append.mp member with old | new
    · exact absurd old (last e)
    · rw [List.mem_singleton.mp new]

/-- It comes behind the values of the others. -/
theorem inOrder_of_last (last : ∀ e, .error e ∉ joined.dropLast) {e : Failure}
    (member : .error e ∈ joined) : inOrder joined = inOrder joined.dropLast ++ [.error e] := by
  have clean : ∀ e, .error e ∉ inOrder joined.dropLast := fun e failed =>
    last e (mem_of_error_mem_inOrder failed)
  have appended := inOrder_append_of_clean clean [.error e]
  rwa [← eq_concat_of_error_mem last member] at appended

namespace JoinOrder

/-- A delivered failure is all that is left to say: it is the last of what is delivered. -/
theorem of_delivered (once : joined.Subperm expected) (last : ∀ e, .error e ∉ joined.dropLast)
    (delivered : outputs answers <+: inOrder joined)
    (ended : .done ∈ answers → outputs answers = inOrder joined ∧
      ((∃ e, .error e ∈ joined) ∨ joined.Perm expected)) : JoinOrder expected joined answers where
  once := once
  last := last
  delivered := delivered
  ended done := (ended done).1
  complete done := (ended done).2
  failed {before e after} same := by
    obtain ⟨rest, whole⟩ := delivered
    have whole : inOrder joined = outputs before ++ .error e :: (outputs after ++ rest) := by
      rw [← whole, same, ← List.singleton_append, outputs_append, outputs_append, outputs_fail]
      simp
    have member : .error e ∈ inOrder joined := by
      rw [whole]
      exact List.mem_append_right _ List.mem_cons_self
    have nothing := nil_of_inOrder_eq whole
    have split := eq_concat_of_error_mem last (mem_of_error_mem_inOrder member)
    have order := inOrder_of_last last (mem_of_error_mem_inOrder member)
    rw [nothing, order] at whole
    exact ⟨split, (List.append_cancel_right whole).symm, (List.append_eq_nil_iff.mp nothing).1⟩

/-- A feed that has accepted what the results come to. -/
theorem of_sound {f : Feed β} (sound : Feed.Sound f (inOrder joined) answers)
    (once : joined.Subperm expected) (last : ∀ e, .error e ∉ joined.dropLast)
    (shut : f.closed = true → (∃ e, .error e ∈ joined) ∨ joined.Perm expected) :
    JoinOrder expected joined answers := by
  refine of_delivered once last sound.outputs_prefix fun done => ?_
  obtain ⟨-, closed, all⟩ := sound.ended done
  exact ⟨all, shut closed⟩

/-! ### With and without failures -/

/-- Behind a failure that has been delivered there is nothing to deliver. -/
theorem outputs_of_failed (j : JoinOrder expected joined answers) {e : Failure}
    (failed : .fail e ∈ answers) : outputs answers = inOrder joined := by
  obtain ⟨before, after, rfl⟩ := List.append_of_mem failed
  obtain ⟨split, earlier, later⟩ := j.failed rfl
  have member : .error e ∈ joined := by
    rw [split]
    exact List.mem_append_right _ (List.mem_singleton_self _)
  rw [← List.singleton_append, outputs_append, outputs_append, outputs_fail, earlier, later,
    List.append_nil, inOrder_of_last j.last member]

/-- A failure that has been delivered is among the results. -/
theorem expected_of_failed (j : JoinOrder expected joined answers) {e : Failure}
    (failed : .fail e ∈ answers) : .error e ∈ expected := by
  have delivered : .error e ∈ inOrder joined := j.delivered.subset (error_mem_outputs.mpr failed)
  exact j.once.subset (mem_of_error_mem_inOrder delivered)

/-- If nothing fails, all values have been delivered by the end, in some order. -/
theorem perm_of_clean (j : JoinOrder expected joined answers) (clean : ∀ e, .error e ∉ expected)
    (done : .done ∈ answers) : (outputs answers).Perm (inOrder expected) := by
  have own : ∀ e, .error e ∉ joined := fun e member => clean e (j.once.subset member)
  rw [j.ended done]
  rcases j.complete done with ⟨e, failed⟩ | all
  · exact absurd failed (own e)
  · exact inOrder_perm own all

/-- If something fails, a failure has been delivered by the end. -/
theorem failed_iff (j : JoinOrder expected joined answers) (done : .done ∈ answers) :
    (∃ e, .fail e ∈ answers) ↔ ∃ e, .error e ∈ expected := by
  constructor
  · rintro ⟨e, failed⟩
    exact ⟨e, j.expected_of_failed failed⟩
  · rintro ⟨e, fails⟩
    obtain ⟨e, member⟩ : ∃ e, .error e ∈ joined := by
      rcases j.complete done with failed | all
      · exact failed
      · exact ⟨e, all.mem_iff.mpr fails⟩
    refine ⟨e, error_mem_outputs.mp ?_⟩
    rw [j.ended done, inOrder_of_last j.last member]
    exact List.mem_append_right _ (List.mem_singleton_self _)

/-! ### Stages that end at a failure -/

/-- What reports the end behind a failure keeps the contract. -/
theorem ending {e : Failure} (j : JoinOrder expected joined (answers ++ [.fail e])) (n : Nat) :
    JoinOrder expected joined (answers ++ [.fail e] ++ List.replicate n .done) := by
  have ends : outputs (List.replicate n (.done : Answer β)) = [] := by
    simp [outputs, Answer.output?]
  have all : outputs (answers ++ [.fail e] ++ List.replicate n .done) = inOrder joined := by
    rw [outputs_append, ends, List.append_nil]
    exact j.outputs_of_failed (List.mem_append_right _ (List.mem_singleton_self _))
  refine of_delivered j.once j.last (all ▸ List.prefix_rfl) fun _ => ⟨all, .inl ⟨e, ?_⟩⟩
  rw [(j.failed rfl).1]
  exact List.mem_append_right _ (List.mem_singleton_self _)

/-- What holds of a machine holds of the machine that ends at its first failure. -/
theorem guarded {m : Machine ω β} (each : ∀ {s answers}, m.Reach s answers →
    ∃ joined, JoinOrder expected joined answers) {s : m.guarded.State} {answers : List (Answer β)}
    (reached : m.guarded.Reach s answers) : ∃ joined, JoinOrder expected joined answers := by
  cases reached.guarded with
  | going below _ => exact each below
  | failed n below _ =>
    obtain ⟨joined, j⟩ := each below
    exact ⟨joined, j.ending n⟩

end JoinOrder

/-! ### Courses -/

namespace Dispatcher.Course

variable {s : Course τ β}

/-- After a failure or the end, every poll reports the end. -/
theorem Afoot.poll_done (a : Afoot s)
    (reported : .done ∈ s.answers ∨ ∃ e, .fail e ∈ s.answers) : s.dispatcher.poll.1 = .done := by
  obtain ⟨accepted, sound⟩ := a.books
  obtain ⟨finished, closed⟩ :
      s.dispatcher.feed.finished = true ∧ s.dispatcher.feed.closed = true := by
    rcases reported with done | ⟨e, failed⟩
    · exact ⟨(sound.ended done).1, (sound.ended done).2.1⟩
    · have thrown : .error e ∈ accepted :=
        sound.outputs_prefix.subset (error_mem_outputs.mpr failed)
      exact ⟨sound.failed e failed, sound.shut e thrown⟩
  -- A dispatcher that has not been started has an open feed.
  have started : s.dispatcher.phase ≠ .idle := by
    intro idle
    cases closed.symm.trans (a.isOpen (by simp [idle]))
  rw [Dispatcher.poll, if_neg started, Feed.poll_of_finished finished]

theorem Gathered.joinOrder (g : Gathered expected s) (p : Placed s) :
    JoinOrder expected s.results s.answers := by
  refine .of_sound g.sound (subperm_of_positions g.right p.distinct) g.last fun closed => ?_
  rcases g.shut closed with failed | ⟨all, -⟩
  · exact .inl failed
  · exact .inr all

/-- With one worker at a time the results are got in order, so they are delivered as in order. -/
theorem Gathered.single (g : Gathered expected s) (p : Placed s) (turn : InTurn s) :
    outputs s.answers <+: inOrder expected ∧
      (.done ∈ s.answers → outputs s.answers = inOrder expected) := by
  have j := g.joinOrder p
  have first := turn.results_eq g.right
  constructor
  · have delivered := j.delivered
    rw [first] at delivered
    exact delivered.trans (inOrder_prefix_of_take _ _)
  · intro done
    rw [j.ended done]
    rcases j.complete done with ⟨e, failed⟩ | all
    · have member : .error e ∈ inOrder s.results := by
        rw [inOrder_of_last j.last failed]
        exact List.mem_append_right _ (List.mem_singleton_self _)
      rw [first] at member ⊢
      exact inOrder_take_of_failed member
    · rw [first, List.take_of_length_le (Nat.le_of_eq all.length_eq.symm)]

end Dispatcher.Course
end PullStream
