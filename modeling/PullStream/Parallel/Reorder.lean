/-!
Reorder buffers: results that arrive in any order and leave in index order.

A result stays until those of all lower indices have left. `next` is the lowest
index that has not left.
-/

namespace PullStream

/-- Results by index, and the index whose turn it is. -/
structure Reorder (ρ : Type) where
  parked : List (Nat × ρ) := []
  next : Nat := 0
  deriving Repr

namespace Reorder

variable {ρ : Type}

/-- Parks the result of an index, in place of an earlier one of the same index. -/
def insert (b : Reorder ρ) (index : Nat) (result : ρ) : Reorder ρ :=
  { b with parked := (index, result) :: b.parked.filter (·.1 != index) }

/-- The result whose turn it is, and the buffer without it. -/
def popReady (b : Reorder ρ) : Option (ρ × Reorder ρ) :=
  (b.parked.find? (·.1 == b.next)).map fun (index, result) =>
    (result, { parked := b.parked.filter (·.1 != index), next := b.next + 1 })

/-- How many results are parked. -/
def size (b : Reorder ρ) : Nat :=
  b.parked.length

theorem size_lt_of_popReady {b b' : Reorder ρ} {r : ρ} (h : b.popReady = some (r, b')) :
    b'.size < b.size := by
  simp only [popReady, Option.map_eq_some_iff, Prod.mk.injEq, Prod.exists] at h
  obtain ⟨i, x, hfind, -, rfl⟩ := h
  simp only [size]
  exact List.length_filter_lt_length_iff_exists.2 ⟨(i, x), List.mem_of_find?_eq_some hfind, by simp⟩

end Reorder
end PullStream
