import PullStream.Proofs.Outputs

/-!
What can be reached in a machine, and what its end means.

A machine is used by polls and by steps of its background work, in any order, at
any instants and in any worlds: whoever shares the world may have changed it in
between. `Reach` is the states of all such uses, with the answers to the polls.

An end can mean two things. It is permanent if every later poll reports it again
(`Permanent`), and brittle if every later poll breaks the machine (`Brittle`). Both
are shown by naming the states that are over: a poll that reports the end leads to
one, a poll there answers as it should, and background work leaves it alone.

* `permanent_of_over`, `brittle_of_over` — these two criteria.
* `Reach.guarded` — what a guarded machine has been asked, its machine has been asked,
  up to the first failure.
* `guarded_permanent`, `guarded_brittle` — guarding keeps either kind of end.
-/

namespace PullStream.Machine

variable {ω α : Type} {m : Machine ω α}

/-- A state that uses of the machine lead to, with the answers on the way. -/
inductive Reach (m : Machine ω α) : m.State → List (Answer α) → Prop where
  | start : Reach m m.start []
  | poll {s answers} : Reach m s answers → ∀ now w,
      Reach m (m.poll s now w).2.1 (answers ++ [(m.poll s now w).1])
  | tick {s answers} : Reach m s answers → ∀ now w, Reach m (m.tick s now w).2.1 answers

/-- Once the end has been reported, every poll reports it. -/
def Permanent (m : Machine ω α) : Prop :=
  ∀ {s answers}, m.Reach s answers → .done ∈ answers → ∀ now w, (m.poll s now w).1 = .done

/-- Once the end has been reported, and no failure before it, every poll breaks the
machine. -/
def Brittle (m : Machine ω α) : Prop :=
  ∀ {s answers}, m.Reach s answers → .done ∈ answers → (∀ e, .fail e ∉ answers) →
    ∀ now w, (m.poll s now w).1 = .spent

/-! ### States that are over -/

/-- States that are over from the first report of the end. -/
theorem over_of_done (isOver : m.State → Prop)
    (ends : ∀ s now w, (m.poll s now w).1 = .done → isOver (m.poll s now w).2.1)
    (polled : ∀ s now w, isOver s → isOver (m.poll s now w).2.1)
    (ticked : ∀ s now w, isOver s → isOver (m.tick s now w).2.1)
    {s : m.State} {answers : List (Answer α)} (reached : m.Reach s answers)
    (done : .done ∈ answers) : isOver s := by
  induction reached with
  | start => exact absurd done List.not_mem_nil
  | @poll s answers _ now w ih =>
    rcases List.mem_append.mp done with old | new
    · exact polled s now w (ih old)
    · exact ends s now w (List.mem_singleton.mp new).symm
  | @tick s answers _ now w ih => exact ticked s now w (ih done)

theorem permanent_of_over (isOver : m.State → Prop)
    (ends : ∀ s now w, (m.poll s now w).1 = .done → isOver (m.poll s now w).2.1)
    (stays : ∀ s now w, isOver s → (m.poll s now w).1 = .done)
    (ticked : ∀ s now w, isOver s → isOver (m.tick s now w).2.1) : m.Permanent :=
  fun {s _} reached done now w =>
    stays s now w (over_of_done isOver ends
      (fun s now w h => ends s now w (stays s now w h)) ticked reached done)

theorem brittle_of_over (isOver : m.State → Prop)
    (ends : ∀ s now w, (m.poll s now w).1 = .done → isOver (m.poll s now w).2.1)
    (breaks : ∀ s now w, isOver s → (m.poll s now w).1 = .spent ∧ isOver (m.poll s now w).2.1)
    (ticked : ∀ s now w, isOver s → isOver (m.tick s now w).2.1) : m.Brittle :=
  fun {s _} reached done _ now w =>
    (breaks s now w (over_of_done isOver ends (fun s now w h => (breaks s now w h).2) ticked
      reached done)).1

/-! ### Guarding -/

theorem guarded_poll_going (s : m.State) (now : Time) (w : ω) :
    m.guarded.poll (s, false) now w =
      ((m.poll s now w).1, ((m.poll s now w).2.1, (m.poll s now w).1.isFailure),
        (m.poll s now w).2.2) := by
  simp only [guarded, Bool.false_eq_true, if_false]
  split
  · rename_i e s' w' h
    rw [h]
    rfl
  · rename_i a s' w' other h
    have notFailed : a.isFailure = false := by
      rw [Bool.eq_false_iff, ne_eq, Answer.isFailure_iff]
      rintro ⟨e, rfl⟩
      exact other e rfl
    rw [h, notFailed]

theorem guarded_poll_failed (s : m.State) (now : Time) (w : ω) :
    m.guarded.poll (s, true) now w = (.done, (s, true), w) :=
  rfl

/-- How far a guarded machine has come: its machine has been asked for everything, or
up to the first failure, and the end has been reported ever since. -/
inductive GuardedReach (m : Machine ω α) : m.State × Bool → List (Answer α) → Prop where
  | going {s answers} : m.Reach s answers → (∀ e, .fail e ∉ answers) →
      GuardedReach m (s, false) answers
  | failed {s taken e} (n : Nat) : m.Reach s (taken ++ [.fail e]) → (∀ e, .fail e ∉ taken) →
      GuardedReach m (s, true) (taken ++ [.fail e] ++ List.replicate n .done)

theorem Reach.guarded {s : m.guarded.State} {answers : List (Answer α)}
    (reached : m.guarded.Reach s answers) : GuardedReach m s answers := by
  induction reached with
  | start => exact .going .start fun _ => List.not_mem_nil
  | poll _ now w ih =>
    cases ih with
    | @going s answers reached clean =>
      rw [guarded_poll_going]
      cases failed : (m.poll s now w).1.isFailure with
      | true =>
        obtain ⟨e, same⟩ := Answer.isFailure_iff.mp failed
        have next := reached.poll now w
        rw [same] at next ⊢
        simpa using GuardedReach.failed 0 next clean
      | false =>
        refine .going (reached.poll now w) fun e member => ?_
        rcases List.mem_append.mp member with old | new
        · exact clean e old
        · have same := List.mem_singleton.mp new
          rw [Answer.isFailure_iff.mpr ⟨e, same.symm⟩] at failed
          cases failed
    | failed n reached clean =>
      rw [guarded_poll_failed, List.append_assoc, ← List.replicate_succ']
      exact .failed (n + 1) reached clean
  | tick _ now w ih =>
    cases ih with
    | going reached clean => exact .going (reached.tick now w) clean
    | failed n reached clean => exact .failed n (reached.tick now w) clean

theorem guarded_permanent (permanent : m.Permanent) : m.guarded.Permanent := by
  intro s answers reached done now w
  cases reached.guarded with
  | going reached clean =>
    rw [guarded_poll_going]
    exact permanent reached done now w
  | failed n reached clean => rfl

theorem guarded_brittle (brittle : m.Brittle) : m.guarded.Brittle := by
  intro s answers reached done noFailure now w
  cases reached.guarded with
  | going reached clean =>
    rw [guarded_poll_going]
    exact brittle reached done clean now w
  | @failed _ _ e n reached clean => exact absurd (by simp) (noFailure e)

end PullStream.Machine

namespace PullStream

/-! ### Rounds -/

/-- A step of a round keeps what the work below and the task itself keep. -/
theorem Turn.step_preserves {σ ω : Type} {below : σ → ω → Bool × σ × ω}
    {own : σ → ω → Stir × σ × ω} (kept : σ → Prop)
    (fromBelow : ∀ s w, kept s → kept (below s w).2.1)
    (fromOwn : ∀ s w, kept s → kept (own s w).2.1) (turn : Turn) (s : σ) (w : ω) (h : kept s) :
    kept (turn.step below own s w).2.1.1 := by
  cases turn with
  | below =>
    have held := fromBelow s w h
    simp only [Turn.step]
    split
    · rename_i s' w' same
      rwa [same] at held
    · rename_i s' w' same
      rw [same] at held
      exact fromOwn s' w' held
  | own => exact fromOwn s w h
  | nobody => exact h

end PullStream
