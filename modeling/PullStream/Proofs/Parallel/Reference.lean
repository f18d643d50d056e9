import PullStream.Parallel.Dispatcher
import PullStream.Proofs.Outputs

/-!
What an ordered parallel stage is to deliver.

Each element has a result at its position; a failure of the source has the position
behind the last element. In order, results come to the values up to the first failure,
and that failure.

* `inOrder_append_of_clean`, `inOrder_append_of_failed` — more results deliver more
  until there is a failure, and nothing after it.
* `inOrder_prefix_of_take` — what has been decided stays.
* `told_of_failed` — a source that has failed says nothing more.
-/

namespace PullStream

variable {α β γ : Type}

/-! ### Results in order -/

/-- What results come to in their order: the values up to the first failure, and that
failure. -/
def inOrder : List (Except Failure (Option β)) → List (Except Failure β)
  | [] => []
  | .ok (some b) :: rest => .ok b :: inOrder rest
  | .ok none :: rest => inOrder rest
  | .error e :: _ => [.error e]

/-- Behind results without a failure the order goes on. -/
theorem inOrder_append_of_clean {rs : List (Except Failure (Option β))}
    (clean : ∀ e, .error e ∉ inOrder rs) (ss : List (Except Failure (Option β))) :
    inOrder (rs ++ ss) = inOrder rs ++ inOrder ss := by
  induction rs with
  | nil => rfl
  | cons r rs ih =>
    rcases r with e | _ | b
    · exact absurd (List.mem_singleton.mpr rfl) (clean e)
    · exact ih clean
    · have rest : ∀ e, .error e ∉ inOrder rs := fun e member =>
        clean e (List.mem_cons_of_mem _ member)
      exact congrArg (.ok b :: ·) (ih rest)

/-- A failure is the end of the order. -/
theorem inOrder_append_of_failed {rs : List (Except Failure (Option β))} {e : Failure}
    (failed : .error e ∈ inOrder rs) (ss : List (Except Failure (Option β))) :
    inOrder (rs ++ ss) = inOrder rs := by
  induction rs with
  | nil => exact absurd failed List.not_mem_nil
  | cons r rs ih =>
    rcases r with e' | _ | b
    · rfl
    · exact ih failed
    · have rest : .error e ∈ inOrder rs := by simpa [inOrder] using failed
      exact congrArg (.ok b :: ·) (ih rest)

theorem inOrder_prefix_append (rs ss : List (Except Failure (Option β))) :
    inOrder rs <+: inOrder (rs ++ ss) := by
  by_cases failed : ∃ e, .error e ∈ inOrder rs
  · obtain ⟨e, failed⟩ := failed
    have same := inOrder_append_of_failed failed ss
    exact ⟨[], (List.append_nil _).trans same.symm⟩
  · rw [inOrder_append_of_clean fun e member => failed ⟨e, member⟩]
    exact List.prefix_append _ _

/-- What the first results come to stays, whatever comes behind them. -/
theorem inOrder_prefix_of_take (rs : List (Except Failure (Option β))) (n : Nat) :
    inOrder (rs.take n) <+: inOrder rs := by
  have all := inOrder_prefix_append (rs.take n) (rs.drop n)
  rwa [List.take_append_drop] at all

/-- What results come to, once a failure is among it, is all that they come to. -/
theorem inOrder_take_of_failed {rs : List (Except Failure (Option β))} {n : Nat} {e : Failure}
    (failed : .error e ∈ inOrder (rs.take n)) : inOrder (rs.take n) = inOrder rs := by
  have all := inOrder_append_of_failed failed (rs.drop n)
  rwa [List.take_append_drop, eq_comm] at all

/-- A failure in the order is its last entry. -/
theorem error_not_mem_dropLast_inOrder (rs : List (Except Failure (Option β))) (e : Failure) :
    .error e ∉ (inOrder rs).dropLast := by
  induction rs with
  | nil => exact List.not_mem_nil
  | cons r rs ih =>
    rcases r with e' | _ | b
    · exact List.not_mem_nil
    · exact ih
    · cases tail : inOrder rs with
      | nil => simp [inOrder, tail]
      | cons x xs => simpa [inOrder, tail] using ih

/-- Nothing comes behind a failure in the order. -/
theorem nil_of_inOrder_eq {rs : List (Except Failure (Option β))} {before after} {e : Failure}
    (same : inOrder rs = before ++ .error e :: after) : after = [] := by
  cases after with
  | nil => rfl
  | cons r rest =>
    refine absurd ?_ (error_not_mem_dropLast_inOrder rs e)
    rw [same, List.dropLast_append_of_ne_nil (List.cons_ne_nil _ _)]
    simp

/-- A failure in the order is one of the results. -/
theorem mem_of_error_mem_inOrder {rs : List (Except Failure (Option β))} {e : Failure}
    (failed : .error e ∈ inOrder rs) : .error e ∈ rs := by
  induction rs with
  | nil => exact absurd failed List.not_mem_nil
  | cons r rs ih =>
    rcases r with e' | _ | b
    · have same : e = e' := by simpa [inOrder] using failed
      rw [same]
      exact List.mem_cons_self
    · exact List.mem_cons_of_mem _ (ih failed)
    · have rest : .error e ∈ inOrder rs := by simpa [inOrder] using failed
      exact List.mem_cons_of_mem _ (ih rest)

/-- What a result delivers by itself, if anything. -/
def delivery : Except Failure (Option β) → Option (Except Failure β)
  | .ok (some b) => some (.ok b)
  | .ok none => none
  | .error e => some (.error e)

/-- Results without a failure deliver what each of them does. -/
theorem inOrder_of_clean {rs : List (Except Failure (Option β))} (clean : ∀ e, .error e ∉ rs) :
    inOrder rs = rs.filterMap delivery := by
  induction rs with
  | nil => rfl
  | cons r rs ih =>
    have rest : ∀ e, .error e ∉ rs := fun e member => clean e (List.mem_cons_of_mem _ member)
    rcases r with e | _ | b
    · exact absurd List.mem_cons_self (clean e)
    · exact ih rest
    · exact congrArg (.ok b :: ·) (ih rest)

/-- In another order they deliver the same in another order. -/
theorem inOrder_perm {rs ss : List (Except Failure (Option β))} (clean : ∀ e, .error e ∉ rs)
    (same : rs.Perm ss) : (inOrder rs).Perm (inOrder ss) := by
  have clean' : ∀ e, .error e ∉ ss := fun e member => clean e (same.mem_iff.mpr member)
  rw [inOrder_of_clean clean, inOrder_of_clean clean']
  exact same.filterMap _

/-! ### Sources and their results -/

/-- What a source hands out: its elements, and the failure behind them, if any. -/
def sourceOf (xs : List α) (fault : Option Failure) : List (Except Failure α) :=
  xs.map .ok ++ fault.toList.map .error

/-- The results of `result` at the elements of a source, each at its position, and the
failure of the source behind them. -/
def resultsOf (result : α → Nat → Except Failure γ) (xs : List α)
    (fault : Option Failure) : List (Except Failure γ) :=
  xs.mapIdx (fun i a => result a i) ++ fault.toList.map .error

variable (result : α → Nat → Except Failure γ) {xs : List α} (fault : Option Failure)

theorem length_resultsOf :
    (resultsOf result xs fault).length = xs.length + fault.toList.length := by
  simp [resultsOf]

/-- An element has its own result. -/
theorem resultsOf_element {i : Nat} {a : α} (there : xs[i]? = some a) :
    (resultsOf result xs fault)[i]? = some (result a i) := by
  have bound := (List.getElem?_eq_some_iff.mp there).1
  rw [resultsOf, List.getElem?_append_left (by simpa using bound)]
  simp [there]

/-- The failure of the source has the position behind the last element. -/
theorem resultsOf_fault (e : Failure) :
    (resultsOf result xs (some e))[xs.length]? = some (.error e) := by
  simp [resultsOf]

theorem length_sourceOf :
    (sourceOf xs fault).length = (resultsOf result xs fault).length := by
  simp [sourceOf, resultsOf]

variable {fault}

theorem sourceOf_element {i : Nat} {a : α} (there : (sourceOf xs fault)[i]? = some (.ok a)) :
    xs[i]? = some a := by
  rcases Nat.lt_or_ge i xs.length with inside | behind
  · rw [sourceOf, List.getElem?_append_left (by simpa using inside)] at there
    simpa using there
  · rw [sourceOf, List.getElem?_append_right (by simpa using behind)] at there
    simp at there

/-- A source fails behind its last element only. -/
theorem sourceOf_failure {i : Nat} {e : Failure}
    (there : (sourceOf xs fault)[i]? = some (.error e)) : i = xs.length ∧ fault = some e := by
  rcases Nat.lt_or_ge i xs.length with inside | behind
  · rw [sourceOf, List.getElem?_append_left (by simpa using inside)] at there
    simp at there
  · rw [sourceOf, List.getElem?_append_right (by simpa using behind)] at there
    cases fault with
    | none => simp at there
    | some e' =>
      have bound : i - (xs.map (Except.ok (ε := Failure))).length < 1 := by
        simpa using (List.getElem?_eq_some_iff.mp there).1
      rw [List.length_map] at bound
      have last : i = xs.length := by omega
      subst last
      exact ⟨rfl, by simpa using there⟩

/-- A failure that a source has handed out is its last entry. -/
theorem told_of_failed {told : List (Except Failure α)} (first : told <+: sourceOf xs fault)
    {e : Failure} (failed : .error e ∈ told) : told = sourceOf xs fault := by
  obtain ⟨i, bound, there⟩ := List.mem_iff_getElem.mp failed
  have entry : (sourceOf xs fault)[i]? = some (.error e) := by
    obtain ⟨rest, same⟩ := first
    rw [← same, List.getElem?_append_left bound, List.getElem?_eq_getElem bound, there]
  obtain ⟨rfl, rfl⟩ := sourceOf_failure entry
  refine first.eq_of_length (Nat.le_antisymm first.length_le ?_)
  rw [sourceOf, List.length_append, List.length_map]
  exact bound

theorem error_mem_sourceOf {e : Failure} : .error e ∈ sourceOf xs fault ↔ fault = some e := by
  cases fault <;> simp [sourceOf, eq_comm]

@[simp] theorem itemsOf_map_ok (xs : List α) : itemsOf (xs.map .ok) = xs := by
  induction xs with
  | nil => rfl
  | cons a xs ih => exact congrArg (a :: ·) ih

@[simp] theorem itemsOf_sourceOf : itemsOf (sourceOf xs fault) = xs := by
  rw [sourceOf, itemsOf_append, itemsOf_map_ok]
  cases fault <;> exact List.append_nil xs

end PullStream
