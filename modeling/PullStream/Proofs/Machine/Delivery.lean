import PullStream.Proofs.Machine.Reach

/-!
What a machine delivers.

A machine delivers a list if its outputs are a first part of the list however it is used,
and the whole list when it reports the end. What stands on the machine then knows by the
number of outputs so far which one is next (`At`).

* `At.output`, `At.done` — the next output, and the end, by position.
* `guarded_delivers` — a guarded machine delivers the list up to its first failure.
* `ofResults_delivers` — the results of a list.
-/

namespace PullStream

variable {ω α : Type}

/-! ### Up to the first failure -/

/-- Results up to the first failure, and that failure. -/
def untilFailure : List (Except Failure α) → List (Except Failure α)
  | [] => []
  | .ok a :: rest => .ok a :: untilFailure rest
  | .error e :: _ => [.error e]

theorem untilFailure_append {rs : List (Except Failure α)} (clean : ∀ e, .error e ∉ rs)
    (ss : List (Except Failure α)) : untilFailure (rs ++ ss) = rs ++ untilFailure ss := by
  induction rs with
  | nil => rfl
  | cons r rs ih =>
    have rest : ∀ e, .error e ∉ rs := fun e member => clean e (List.mem_cons_of_mem _ member)
    cases r with
    | error e => exact absurd List.mem_cons_self (clean e)
    | ok a => exact congrArg (.ok a :: ·) (ih rest)

theorem untilFailure_of_clean {rs : List (Except Failure α)} (clean : ∀ e, .error e ∉ rs) :
    untilFailure rs = rs := by
  simpa [untilFailure] using untilFailure_append clean []

/-- A list whose only failure is its last entry goes up to its first failure. -/
theorem untilFailure_of_terminal {rs : List (Except Failure α)}
    (terminal : ∀ e, .error e ∉ rs.dropLast) : untilFailure rs = rs := by
  rcases List.eq_nil_or_concat rs with rfl | ⟨front, last, rfl⟩
  · rfl
  · rw [List.concat_eq_append] at terminal ⊢
    rw [List.dropLast_concat] at terminal
    rw [untilFailure_append terminal]
    cases last <;> rfl

namespace Machine

variable {m : Machine ω α} {list : List (Except Failure α)} {s : m.State}

/-! ### Delivery -/

/-- However the machine is used, its outputs are a first part of the list, and the whole
list if it reports the end. -/
def Delivers (m : Machine ω α) (list : List (Except Failure α)) : Prop :=
  ∀ ⦃s answers⦄, m.Reach s answers →
    outputs answers <+: list ∧ (.done ∈ answers → outputs answers = list)

/-- However the machine is used, it hands out the same: of two uses, one may have come further,
but not beyond one that has found the end. -/
def Steady (m : Machine ω α) : Prop :=
  ∀ ⦃s answers s' answers'⦄, m.Reach s answers → m.Reach s' answers' →
    (outputs answers <+: outputs answers' ∨ outputs answers' <+: outputs answers) ∧
      (.done ∈ answers → outputs answers' <+: outputs answers)

theorem Delivers.steady (delivers : m.Delivers list) : m.Steady := by
  intro s answers s' answers' reached reached'
  obtain ⟨first, all⟩ := delivers reached
  have second := (delivers reached').1
  refine ⟨List.prefix_or_prefix_of_prefix first second, fun done => ?_⟩
  rw [all done]
  exact second

/-- Where the machine may be when it has delivered `n` entries of the list. -/
def At (m : Machine ω α) (list : List (Except Failure α)) (s : m.State) (n : Nat) : Prop :=
  ∃ answers, m.Reach s answers ∧ outputs answers = list.take n ∧ n ≤ list.length

namespace At

variable {n : Nat} {a : Answer α} {s' : m.State} {now : Time} {w w' : ω}

theorem start : m.At list m.start 0 :=
  ⟨[], .start, rfl, Nat.zero_le _⟩

theorem tick (at_n : m.At list s n) (now : Time) (w : ω) :
    m.At list (m.tick s now w).2.1 n := by
  obtain ⟨answers, reached, same, bound⟩ := at_n
  exact ⟨answers, reached.tick now w, same, bound⟩

/-- An answer that delivers something delivers the next entry. -/
theorem output (delivers : m.Delivers list) (at_n : m.At list s n)
    (asked : m.poll s now w = (a, s', w')) {r : Except Failure α}
    (delivered : a.output? = some r) : list[n]? = some r ∧ m.At list s' (n + 1) := by
  obtain ⟨answers, reached, same, bound⟩ := at_n
  have next := reached.poll now w
  rw [asked] at next
  have more : outputs (answers ++ [a]) = list.take n ++ [r] := by
    rw [outputs_append, outputs_singleton, delivered, same, Option.toList_some]
  have first := (delivers next).1
  have length : (list.take n ++ [r]).length = n + 1 := by
    rw [List.length_append, List.length_take, Nat.min_eq_left bound, List.length_singleton]
  rw [more] at first
  have taken : list.take n ++ [r] = list.take (n + 1) := by
    rw [List.prefix_iff_eq_take.mp first, length]
  have entry : list[n]? = some r := by
    rw [List.take_add_one] at taken
    exact (Option.toList_eq_singleton_iff.mp (List.append_cancel_left taken).symm)
  refine ⟨entry, _, next, more.trans taken, ?_⟩
  rw [← length]
  exact first.length_le

/-- An answer that delivers nothing leaves the position. -/
theorem silent (at_n : m.At list s n) (asked : m.poll s now w = (a, s', w'))
    (nothing : a.output? = none) : m.At list s' n := by
  obtain ⟨answers, reached, same, bound⟩ := at_n
  have next := reached.poll now w
  rw [asked] at next
  refine ⟨_, next, ?_, bound⟩
  rw [outputs_append, outputs_singleton, nothing, same, Option.toList_none, List.append_nil]

/-- The end is reported behind the last entry. -/
theorem done (delivers : m.Delivers list) (at_n : m.At list s n)
    (asked : m.poll s now w = (.done, s', w')) : n = list.length := by
  obtain ⟨answers, reached, same, bound⟩ := at_n
  have next := reached.poll now w
  rw [asked] at next
  have all : outputs (answers ++ [.done]) = list := (delivers next).2 (by simp)
  have taken : list.take n = list := by
    rw [← same]
    simpa using all
  have length := congrArg List.length taken
  rw [List.length_take] at length
  omega

end At

/-! ### Guarding and lists -/

theorem guarded_delivers (delivers : m.Delivers list) :
    m.guarded.Delivers (untilFailure list) := by
  intro s answers reached
  cases reached.guarded with
  | going reached clean =>
    obtain ⟨first, all⟩ := delivers reached
    have clean : ∀ e, .error e ∉ outputs answers := fun e member =>
      clean e (error_mem_outputs.mp member)
    constructor
    · obtain ⟨rest, same⟩ := first
      rw [← same, untilFailure_append clean]
      exact List.prefix_append _ _
    · intro done
      rw [← all done, untilFailure_of_clean clean]
  | @failed s taken e n below clean =>
    obtain ⟨⟨rest, same⟩, -⟩ := delivers below
    have clean : ∀ e, .error e ∉ outputs taken := fun e member =>
      clean e (error_mem_outputs.mp member)
    have ends : outputs (List.replicate n (.done : Answer α)) = [] := by
      simp [outputs, Answer.output?]
    have whole : outputs (taken ++ [.fail e] ++ List.replicate n .done) = untilFailure list := by
      rw [← same, outputs_append, outputs_append, ends, List.append_nil, outputs_fail,
        List.append_assoc, untilFailure_append clean]
      rfl
    exact ⟨whole ▸ List.prefix_rfl, fun _ => whole⟩

theorem ofResults_delivers (items : List (Except Failure α)) :
    (ofResults (ω := ω) items).Delivers items := by
  intro s answers reached
  -- What has been handed out and what is left are the items.
  have split : outputs answers ++ (show List (Except Failure α) from s) = items ∧
      (.done ∈ answers → s = ([] : List (Except Failure α))) := by
    induction reached with
    | start => exact ⟨rfl, fun done => absurd done List.not_mem_nil⟩
    | @poll s answers reached now w ih =>
      obtain ⟨same, ended⟩ := ih
      cases s with
      | nil =>
        change outputs (answers ++ [.done]) ++ [] = items ∧ _
        exact ⟨by simpa using same, fun _ => rfl⟩
      | cons r rest =>
        change outputs (answers ++ [.ofExcept r]) ++ rest = items ∧
          (.done ∈ answers ++ [.ofExcept r] → rest = [])
        constructor
        · rw [← same, outputs_append]
          cases r <;> simp [Answer.ofExcept]
        · intro done
          have old : .done ∈ answers := by
            cases r <;> simpa [Answer.ofExcept] using done
          exact absurd (ended old) (List.cons_ne_nil _ _)
    | tick _ _ _ ih => exact ih
  constructor
  · rw [← split.1]
    exact List.prefix_append _ _
  · intro done
    rw [← split.1, split.2 done, List.append_nil]

end Machine
end PullStream
