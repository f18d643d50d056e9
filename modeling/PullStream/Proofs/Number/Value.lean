import Mathlib.Algebra.Order.Field.Power
import Mathlib.Data.Rat.Cast.Order
import Mathlib.Tactic.Positivity
import Mathlib.Tactic.Ring
import PullStream.Number.Binary64

/-!
The value of a number, and where arithmetic is exact.

A finite number stands for a rational, and the order of numbers is the order of their values.
A natural number of at most 53 bits is rounded to an exponent that is at most zero, and two to
the power of 53 to the exponent one; either is a multiple of that power of two, so nothing is lost
(`exists_multiple`). A conversion, a sum or a product that comes to an integer of this size is
therefore exact, whatever the operands.

* `floorLog_le` — the exponent that is rounded to is not too great.
* `ofRatio_value` — rounding leaves such an integer alone.
* `ofNat_value`, `add_value`, `mul_value`, `toNat64_value` — exact operations.
* `atMost_iff` — the order of values.
-/

namespace PullStream.Binary64

/-- The rational that a finite number stands for. -/
def value? : Binary64 → Option ℚ
  | .finite s m e => some (signed s m * 2 ^ e)
  | _ => none

/-- The greatest natural number up to which nothing is rounded. -/
def exactLimit : Nat := 2 ^ 53

theorem finite_of_value {x : Binary64} {q : ℚ} (h : x.value? = some q) :
    ∃ s m e, x = .finite s m e ∧ (signed s m : ℚ) * 2 ^ e = q := by
  cases x with
  | nan => cases h
  | infinite => cases h
  | finite s m e => exact ⟨s, m, e, rfl, Option.some.inj h⟩

/-! ### Signs and scales -/

theorem signed_mul (s t : Bool) (m n : Nat) :
    signed s m * signed t n = signed (s != t) (m * n) := by
  cases s <;> cases t <;> simp [signed]

theorem signed_natAbs (z : Int) : signed (decide (z < 0)) z.natAbs = z := by
  by_cases negative : z < 0
  · simp only [signed, negative, decide_true, if_true]
    omega
  · simp only [signed, negative, decide_false]
    exact Int.natAbs_of_nonneg (Int.not_lt.mp negative)

/-- A lower exponent with a greater significand is the same number. -/
theorem shifted_value (s : Bool) (m : Nat) {e lower : Int} (below : lower ≤ e) :
    (signed s (shifted m e lower) : ℚ) * 2 ^ lower = signed s m * 2 ^ e := by
  have apart : e = (e - lower).toNat + lower := by omega
  have power : (2 : ℚ) ^ e = 2 ^ (e - lower).toNat * 2 ^ lower := by
    conv_lhs => rw [apart]
    rw [zpow_add₀ two_ne_zero, zpow_natCast]
  rw [power]
  cases s <;> simp [signed, shifted, twoTo, mul_assoc]

theorem scaleDown_pos (num : Nat) {den : Nat} (positive : 0 < den) (e : Int) :
    0 < (scaleDown num den e).2 := by
  unfold scaleDown
  split
  · exact Nat.mul_pos positive (Nat.two_pow_pos _)
  · exact positive

theorem scaleDown_value (num den : Nat) (e : Int) :
    ((scaleDown num den e).1 : ℚ) / (scaleDown num den e).2 = num / den / 2 ^ e := by
  unfold scaleDown
  split
  · rename_i up
    have power : (2 : ℚ) ^ e = 2 ^ e.toNat := by
      rw [← zpow_natCast, Int.toNat_of_nonneg up]
    simp [twoTo, power, div_div]
  · rename_i down
    have power : (2 : ℚ) ^ e = (2 ^ (-e).toNat)⁻¹ := by
      rw [← zpow_natCast, Int.toNat_of_nonneg (by omega), zpow_neg, inv_inv]
    simp [twoTo, power, mul_div_right_comm]

/-- A quotient that is a natural number has its numerator as a multiple. -/
theorem eq_mul_of_div {num den n : Nat} (positive : 0 < den) (whole : (num : ℚ) / den = n) :
    num = n * den := by
  have nonzero : (den : ℚ) ≠ 0 := by exact_mod_cast positive.ne'
  exact_mod_cast (div_eq_iff nonzero).mp whole

/-! ### Rounding -/

/-- The exponent of the leading bit is not too great. -/
theorem floorLog_le {num den : Nat} (numPos : 0 < num) (denPos : 0 < den) :
    (2 : ℚ) ^ floorLog num den ≤ num / den := by
  unfold floorLog
  dsimp only
  split
  · rename_i atLeast
    have scaled := scaleDown_value num den ((num.log2 : Int) - den.log2)
    have positive := scaleDown_pos num denPos ((num.log2 : Int) - den.log2)
    rw [eq_div_iff (by positivity)] at scaled
    rw [← scaled]
    refine le_mul_of_one_le_left (by positivity) ?_
    rw [one_le_div (by exact_mod_cast positive)]
    exact_mod_cast atLeast
  · have below : (2 : ℚ) ^ num.log2 ≤ num := by exact_mod_cast Nat.log2_self_le numPos.ne'
    have above : (den : ℚ) ≤ 2 ^ (den.log2 + 1) := by exact_mod_cast Nat.lt_log2_self.le
    have power : (2 : ℚ) ^ ((num.log2 : Int) - den.log2 - 1) =
        2 ^ num.log2 / 2 ^ (den.log2 + 1) := by
      rw [sub_sub, zpow_sub₀ two_ne_zero, zpow_natCast]
      norm_cast
    rw [power]
    exact div_le_div₀ (by positivity) below (by exact_mod_cast denPos) above

theorem roundQuotient_mul (n : Nat) {den : Nat} (positive : 0 < den) :
    roundQuotient (n * den) den = n := by
  simp [roundQuotient, Nat.mul_div_cancel _ positive, positive]

theorem carry_value (s : Bool) (m : Nat) {e : Int} (low : e < maxExponent) :
    (carry s m e).value? = some ((signed s m : ℚ) * 2 ^ e) := by
  unfold carry
  by_cases full : m = twoTo 53
  · have power : (2 : ℚ) ^ (e + 1) = 2 ^ e * 2 := zpow_add_one₀ two_ne_zero e
    simp only [full, if_true]
    rw [if_neg (by omega), value?, power]
    cases s <;> simp [signed, twoTo] <;> ring
  · simp only [full, if_false]
    rw [if_neg (by omega), value?]

/-- A natural number within the limit is a multiple of the power of two that it is rounded to,
which is two at most. -/
theorem exists_multiple {n : Nat} {k : Int} (small : n ≤ exactLimit) (fits : (2 : ℚ) ^ k ≤ n) :
    max minExponent (k - 52) < maxExponent ∧
      ∃ c : Nat, (c : ℚ) * 2 ^ max minExponent (k - 52) = n := by
  have bound : k ≤ 53 := by
    have limit : (2 : ℚ) ^ k ≤ 2 ^ (53 : Int) := fits.trans (by exact_mod_cast small)
    exact (zpow_le_zpow_iff_right₀ one_lt_two).mp limit
  refine ⟨by simp [minExponent, maxExponent]; omega, ?_⟩
  by_cases top : k = 53
  · subst top
    have all : n = exactLimit := le_antisymm small (by exact_mod_cast fits)
    refine ⟨2 ^ 52, ?_⟩
    rw [all]
    norm_num [exactLimit, minExponent]
  · generalize exponent : max minExponent (k - 52) = e
    have down : e ≤ 0 := by
      rw [← exponent]
      simp [minExponent]
      omega
    refine ⟨n * 2 ^ (-e).toNat, ?_⟩
    rw [Nat.cast_mul, Nat.cast_pow, Nat.cast_ofNat, ← zpow_natCast,
      Int.toNat_of_nonneg (by omega), mul_assoc, ← zpow_add₀ two_ne_zero, neg_add_cancel,
      zpow_zero, mul_one]

/-- Rounding leaves a quotient alone that is a natural number within the limit. -/
theorem ofRatio_value (s : Bool) {num den n : Nat} (positive : 0 < den)
    (whole : (num : ℚ) / den = n) (small : n ≤ exactLimit) :
    (ofRatio s num den).value? = some (signed s n : ℚ) := by
  have multiple := eq_mul_of_div positive whole
  unfold ofRatio
  split
  · rename_i none
    have zero : n = 0 := by simpa [none, positive.ne'] using multiple.symm
    cases s <;> simp [zero, Binary64.zero, value?, signed]
  · rename_i some
    have fits := floorLog_le (Nat.pos_of_ne_zero some) positive
    rw [whole] at fits
    obtain ⟨low, c, same⟩ := exists_multiple small fits
    dsimp only
    generalize max minExponent (floorLog num den - 52) = e at low same ⊢
    have scaled : ((scaleDown num den e).1 : ℚ) / (scaleDown num den e).2 = c := by
      rw [scaleDown_value, whole, ← same, mul_div_cancel_right₀ _ (by positivity)]
    have left := scaleDown_pos num positive e
    rw [eq_mul_of_div left scaled, roundQuotient_mul c left, carry_value s c low]
    have signs : (signed s c : ℚ) * 2 ^ e = signed s n := by
      cases s <;> simp [signed, ← same]
    rw [signs]

/-! ### Operations -/

theorem ofNat_value {n : Nat} (small : n ≤ exactLimit) : (ofNat n).value? = some (n : ℚ) :=
  ofRatio_value false one_pos (by simp) small

/-- A number whose value is an integer has its magnitude and its sign. -/
theorem magnitude_of_value {s : Bool} {m : Nat} {e z : Int}
    (whole : (signed s m : ℚ) * 2 ^ e = z) :
    (m : ℚ) * 2 ^ e = z.natAbs ∧ signed s z.natAbs = z := by
  have positive : (0 : ℚ) < 2 ^ e := by positivity
  have magnitude : (m : ℚ) * 2 ^ e = |(z : ℚ)| := by
    rw [← whole, abs_mul, abs_of_pos positive]
    cases s <;> simp [signed]
  refine ⟨by rw [magnitude, Nat.cast_natAbs, Int.cast_abs], ?_⟩
  have below : (0 : ℚ) ≤ m * 2 ^ e := by positivity
  cases s with
  | false =>
    have nonneg : (0 : ℚ) ≤ z := by simpa [signed, ← whole] using below
    exact Int.natAbs_of_nonneg (by exact_mod_cast nonneg)
  | true =>
    have nonpos : (z : ℚ) ≤ 0 := by simpa [signed, ← whole] using below
    have nonpos : z ≤ 0 := by exact_mod_cast nonpos
    simp only [signed, if_true]
    omega

theorem ofDyadic_value {s : Bool} {m : Nat} {e z : Int} (whole : (signed s m : ℚ) * 2 ^ e = z)
    (small : z.natAbs ≤ exactLimit) : (ofDyadic s m e).value? = some (z : ℚ) := by
  obtain ⟨magnitude, sign⟩ := magnitude_of_value whole
  have ratio : ofDyadic s m e = ofRatio s (scaleDown m 1 (-e)).1 (scaleDown m 1 (-e)).2 := rfl
  rw [ratio, ofRatio_value s (scaleDown_pos m one_pos (-e)) ?_ small, sign]
  rw [scaleDown_value, zpow_neg, div_inv_eq_mul, Nat.cast_one, div_one, magnitude]

/-- A sum that is an integer within the limit is exact. -/
theorem add_value {a b : Binary64} {x y : ℚ} {z : Int} (left : a.value? = some x)
    (right : b.value? = some y) (whole : x + y = z) (small : z.natAbs ≤ exactLimit) :
    (a + b).value? = some (z : ℚ) := by
  obtain ⟨s, m, e, rfl, rfl⟩ := finite_of_value left
  obtain ⟨t, n, f, rfl, rfl⟩ := finite_of_value right
  change (addFinite s m e t n f).value? = _
  unfold addFinite
  dsimp only
  have lined : ((signed s (shifted m e (min e f)) + signed t (shifted n f (min e f)) : Int) : ℚ) *
      2 ^ min e f = z := by
    rw [Int.cast_add, add_mul, shifted_value s m (min_le_left e f),
      shifted_value t n (min_le_right e f), whole]
  generalize signed s (shifted m e (min e f)) + signed t (shifted n f (min e f)) = total at lined ⊢
  split
  · rename_i none
    have zero : z = 0 := by simpa [none, eq_comm] using lined
    cases s <;> cases t <;> simp [zero, Binary64.zero, value?, signed]
  · refine ofDyadic_value ?_ small
    rw [signed_natAbs, lined]

/-- A product that is an integer within the limit is exact. -/
theorem mul_value {a b : Binary64} {x y : ℚ} {z : Int} (left : a.value? = some x)
    (right : b.value? = some y) (whole : x * y = z) (small : z.natAbs ≤ exactLimit) :
    (a * b).value? = some (z : ℚ) := by
  obtain ⟨s, m, e, rfl, rfl⟩ := finite_of_value left
  obtain ⟨t, n, f, rfl, rfl⟩ := finite_of_value right
  change (ofDyadic (s != t) (m * n) (e + f)).value? = _
  refine ofDyadic_value ?_ small
  rw [← signed_mul, Int.cast_mul, zpow_add₀ two_ne_zero, mul_mul_mul_comm, whole]

/-! ### Integers -/

theorem roundUpHalf_value {m n : Nat} {e : Int} (whole : (m : ℚ) * 2 ^ e = n) :
    roundUpHalf m e = n := by
  have scaled : ((scaleDown m 1 (-e)).1 : ℚ) / (scaleDown m 1 (-e)).2 = n := by
    rw [scaleDown_value, zpow_neg, div_inv_eq_mul, Nat.cast_one, div_one, whole]
  have positive := scaleDown_pos m one_pos (-e)
  unfold roundUpHalf
  dsimp only
  rw [eq_mul_of_div positive scaled]
  generalize (scaleDown m 1 (-e)).2 = den at positive
  have same : 2 * (n * den) + den = den + n * (2 * den) := by ring
  rw [same, Nat.add_mul_div_right _ _ (by omega), Nat.div_eq_of_lt (by omega), Nat.zero_add]

/-- An integer of at most 64 bits is read as it is. -/
theorem toNat64_value {x : Binary64} {z : Int} (value : x.value? = some (z : ℚ)) (nonneg : 0 ≤ z)
    (small : z < wordLimit) : (x.toNat64 : Int) = z := by
  obtain ⟨s, m, e, rfl, whole⟩ := finite_of_value value
  obtain ⟨magnitude, sign⟩ := magnitude_of_value whole
  rw [toNat64, toIntBetween, roundUpHalf_value magnitude, sign]
  omega

/-! ### Order -/

/-- Numbers are ordered by their values. -/
theorem atMost_iff {a b : Binary64} {x y : ℚ} (left : a.value? = some x)
    (right : b.value? = some y) : a.atMost b = true ↔ x ≤ y := by
  obtain ⟨s, m, e, rfl, rfl⟩ := finite_of_value left
  obtain ⟨t, n, f, rfl, rfl⟩ := finite_of_value right
  have positive : (0 : ℚ) < 2 ^ min e f := by positivity
  rw [← shifted_value s m (min_le_left e f), ← shifted_value t n (min_le_right e f),
    mul_le_mul_iff_left₀ positive, Int.cast_le]
  simp only [atMost, order?, compareFinite]
  generalize signed s (shifted m e (min e f)) = i
  generalize signed t (shifted n f (min e f)) = j
  cases order : compare i j with
  | gt => simpa using compare_gt_iff_gt.mp order
  | lt => simpa using (compare_lt_iff_lt.mp order).le
  | eq => simpa using (compare_eq_iff_eq.mp order).le

end PullStream.Binary64
