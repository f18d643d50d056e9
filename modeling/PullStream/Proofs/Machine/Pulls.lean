import PullStream.Proofs.Pulling

/-!
Pulls of a machine, told by its answers.

A pull is made of polls: it goes on until something arrives, and then the next one may begin. So
what a machine has answered tells how many pulls have been begun, the one that may be under way
included.

* `pullsBegun` — this number.
* `pullsBegun_concat` — a poll belongs to the pull behind those that have brought something.
* `Script.Begins.prefix_of_length_le`, `Machine.GoesBy.agree` — what scripts have in common that
  begin alike.
-/

namespace PullStream

variable {ω ω' α : Type}

/-! ### Counting -/

/-- How many pulls have been begun: all but the last have brought something. -/
def pullsBegun : List (Answer α) → Nat
  | [] => 0
  | answers => (arrivals answers.dropLast).length + 1

theorem pullsBegun_concat (answers : List (Answer α)) (a : Answer α) :
    pullsBegun (answers ++ [a]) = (arrivals answers).length + 1 := by
  cases answers with
  | nil => rfl
  | cons b answers =>
    rw [List.cons_append, pullsBegun, ← List.cons_append, List.dropLast_concat]
    exact nofun

theorem length_arrivals_concat (answers : List (Answer α)) (a : Answer α) :
    (arrivals (answers ++ [a])).length =
      (arrivals answers).length + if a.arrival?.isSome then 1 else 0 := by
  rw [arrivals_concat, List.length_append]
  cases a.arrival? <;> rfl

/-- Every arrival has come with a pull, and one pull may be under way. -/
theorem length_arrivals_le (answers : List (Answer α)) :
    (arrivals answers).length ≤ pullsBegun answers ∧
      pullsBegun answers ≤ (arrivals answers).length + 1 := by
  rcases List.eq_nil_or_concat answers with rfl | ⟨before, a, rfl⟩
  · exact ⟨Nat.le_refl _, Nat.zero_le _⟩
  · rw [List.concat_eq_append, pullsBegun_concat, length_arrivals_concat]
    constructor
    · split <;> omega
    · omega

/-- When something has just arrived, no pull is under way. -/
theorem pullsBegun_of_arrival (answers : List (Answer α)) {a : Answer α} {b : Arrival α}
    (arrives : a.arrival? = some b) :
    pullsBegun (answers ++ [a]) = (arrivals (answers ++ [a])).length := by
  rw [pullsBegun_concat, length_arrivals_concat, arrives]
  rfl

/-- If more may arrive, more might have arrived before. -/
theorem Unended.arrivals_dropLast {answers : List (Answer α)}
    (unended : Unended (arrivals answers)) : Unended (arrivals answers.dropLast) :=
  fun a member => unended a (((List.dropLast_sublist answers).filterMap _).subset member)

/-! ### Scripts -/

/-- The shorter one of two beginnings is a first part of the other. -/
theorem Script.Begins.prefix_of_length_le {script script' : Script α} {as bs : List (Arrival α)}
    (begins : script.Begins as) (begins' : script'.Begins bs) (shorter : as.length ≤ bs.length)
    (same : ∀ i < as.length, script i = script' i) : as <+: bs := by
  rw [List.prefix_iff_getElem?]
  intro i inside
  have there := begins (List.getElem?_eq_getElem inside)
  have there' := begins' (List.getElem?_eq_getElem (Nat.lt_of_lt_of_le inside shorter))
  rw [same i inside, there'] at there
  rw [List.getElem?_eq_getElem (Nat.lt_of_lt_of_le inside shorter), there]

/-- Arrivals with one failure or end at most, of which one has come further than the other. -/
theorem Agree.of_fronts {as bs : List (Arrival α)} (comparable : as <+: bs ∨ bs <+: as)
    (front : Unended as.dropLast) (front' : Unended bs.dropLast) : Agree as bs := by
  have whole : ∀ {as bs : List (Arrival α)}, Unended bs.dropLast → ¬ Unended as → as <+: bs →
      as = bs := by
    rintro as _ front finished ⟨rest, rfl⟩
    cases rest with
    | nil => exact (List.append_nil _).symm
    | cons a rest =>
      rw [List.dropLast_append_of_ne_nil (List.cons_ne_nil _ _), unended_append] at front
      exact absurd front.1 finished
  refine ⟨comparable, fun finished finished' => ?_⟩
  rcases comparable with first | first
  · exact whole front' finished first
  · exact (whole front finished' first).symm

/-- Drainings of machines that go by one script agree. -/
theorem Machine.GoesBy.agree {m : Machine ω α} {m' : Machine ω' α} {script : Script α}
    (goes : m.GoesBy script) (goes' : m'.GoesBy script) {s : m.State} {s' : m'.State}
    {as bs : List (Arrival α)} (draining : m.Draining s as) (draining' : m'.Draining s' bs) :
    Agree as bs := by
  have begins := goes draining
  have begins' := goes' draining'
  refine Agree.of_fronts ?_ draining.unended_dropLast draining'.unended_dropLast
  rcases Nat.le_total as.length bs.length with shorter | shorter
  · exact .inl (begins.prefix_of_length_le begins' shorter fun _ _ => rfl)
  · exact .inr (begins'.prefix_of_length_le begins shorter fun _ _ => rfl)

end PullStream
