import PullStream.Number.Powers

/-!
Numbers of the binary64 format.

A finite number is a significand of at most 53 bits times a power of two, with a
sign that zero has too. Every operation computes the exact result and rounds it
once, to the nearest number of the format; of two that are equally near the one
with the even significand is taken. Beyond the largest number lies infinity.
-/

namespace PullStream

/-- A number of the binary64 format. -/
inductive Binary64 where
  | nan (negative : Bool)
  | infinite (negative : Bool)
  | finite (negative : Bool) (significand : Nat) (exponent : Int)
  deriving DecidableEq, Repr

namespace Binary64

/-- The least exponent. -/
def minExponent : Int := -1074

/-- The greatest exponent. -/
def maxExponent : Int := 971

/-- Zero with a sign. -/
def zero (negative : Bool) : Binary64 := .finite negative 0 minExponent

/-! ### Rounding -/

/-- The nearest natural number to a quotient; halfway, the even one. -/
def roundQuotient (num den : Nat) : Nat :=
  let q := num / den
  let r := num % den
  if 2 * r < den then q else if den < 2 * r then q + 1 else q + q % 2

/-- The quotient `num / den` divided by a power of two, as a quotient. -/
def scaleDown (num den : Nat) (exponent : Int) : Nat × Nat :=
  if 0 ≤ exponent then (num, den * twoTo exponent.toNat) else (num * twoTo (-exponent).toNat, den)

/-- The exponent of the greatest power of two that is not above `num / den`. -/
def floorLog (num den : Nat) : Int :=
  let k : Int := (num.log2 : Int) - (den.log2 : Int)
  let (n, d) := scaleDown num den k
  if d ≤ n then k else k - 1

/-- A significand that may have grown by a bit in rounding, made a number. -/
def carry (negative : Bool) (significand : Nat) (exponent : Int) : Binary64 :=
  let (m, e) :=
    if significand = twoTo 53 then (twoTo 52, exponent + 1) else (significand, exponent)
  if maxExponent < e then .infinite negative else .finite negative m e

/-- The number nearest to `num / den`; `den` is positive. -/
def ofRatio (negative : Bool) (num den : Nat) : Binary64 :=
  if num = 0 then zero negative
  else
    let e := max minExponent (floorLog num den - 52)
    let (n, d) := scaleDown num den e
    carry negative (roundQuotient n d) e

/-- The number nearest to a significand times a power of two. -/
def ofDyadic (negative : Bool) (significand : Nat) (exponent : Int) : Binary64 :=
  let (n, d) := scaleDown significand 1 (-exponent)
  ofRatio negative n d

/-- The number nearest to a natural number. -/
def ofNat (n : Nat) : Binary64 :=
  ofRatio false n 1

/-- The number nearest to an integer. -/
def ofInt (n : Int) : Binary64 :=
  ofRatio (decide (n < 0)) n.natAbs 1

/-- The number nearest to `digits` times a power of ten. -/
def ofDecimal (negative : Bool) (digits : Nat) (exponent : Int) : Binary64 :=
  let length : Int := (Nat.toDigits 10 digits).length
  if digits = 0 ∨ length + exponent < -340 then zero negative
  else if 320 < length + exponent then .infinite negative
  else if 0 ≤ exponent then ofRatio negative (digits * tenTo exponent.toNat) 1
  else ofRatio negative digits (tenTo (-exponent).toNat)

/-! ### Arithmetic -/

/-- An integer with a sign of its own. -/
def signed (negative : Bool) (n : Nat) : Int :=
  if negative then -(n : Int) else n

/-- The significand of a finite number at a lower exponent. -/
def shifted (significand : Nat) (exponent lower : Int) : Nat :=
  significand * twoTo (exponent - lower).toNat

/-- The sum of two finite numbers. -/
def addFinite (s : Bool) (m : Nat) (e : Int) (t : Bool) (n : Nat) (f : Int) : Binary64 :=
  let lower := min e f
  let total := signed s (shifted m e lower) + signed t (shifted n f lower)
  if total = 0 then zero (s && t) else ofDyadic (decide (total < 0)) total.natAbs lower

/-- The sum. -/
def add : Binary64 → Binary64 → Binary64
  | .nan s, _ | _, .nan s => .nan s
  | .infinite s, .infinite t => if s = t then .infinite s else .nan false
  | .infinite s, .finite _ _ _ | .finite _ _ _, .infinite s => .infinite s
  | .finite s m e, .finite t n f => addFinite s m e t n f

/-- The product. -/
def mul : Binary64 → Binary64 → Binary64
  | .nan s, _ | _, .nan s => .nan s
  | .infinite s, .infinite t => .infinite (s != t)
  | .infinite s, .finite t n _ | .finite t n _, .infinite s =>
    if n = 0 then .nan false else .infinite (s != t)
  | .finite s m e, .finite t n f => ofDyadic (s != t) (m * n) (e + f)

instance : Add Binary64 := ⟨add⟩
instance : Mul Binary64 := ⟨mul⟩

/-! ### Order -/

/-- The order of two finite numbers. -/
def compareFinite (s : Bool) (m : Nat) (e : Int) (t : Bool) (n : Nat) (f : Int) : Ordering :=
  let lower := min e f
  compare (signed s (shifted m e lower)) (signed t (shifted n f lower))

/-- The order of two numbers; a number that is none has no place in it. -/
def order? : Binary64 → Binary64 → Option Ordering
  | .nan _, _ | _, .nan _ => none
  | .infinite s, .infinite t => some (compare t s)
  | .infinite s, .finite _ _ _ => some (if s then .lt else .gt)
  | .finite _ _ _, .infinite s => some (if s then .gt else .lt)
  | .finite s m e, .finite t n f => some (compareFinite s m e t n f)

/-- Less, as numbers: the two zeros are equal. -/
def less (a b : Binary64) : Bool := a.order? b == some .lt

/-- Not greater, as numbers. -/
def atMost (a b : Binary64) : Bool :=
  match a.order? b with
  | some .gt | none => false
  | _ => true

/-- Neither infinite nor none. -/
def isFinite : Binary64 → Bool
  | .finite _ _ _ => true
  | _ => false

/-! ### Integers -/

/-- The natural number nearest to a finite number without its sign; halfway, the
greater one. -/
def roundUpHalf (significand : Nat) (exponent : Int) : Nat :=
  let (n, d) := scaleDown significand 1 (-exponent)
  (2 * n + d) / (2 * d)

/-- The integer nearest to a number, halves away from zero, kept between two
bounds; zero for a number that is none. -/
def toIntBetween (low high : Int) : Binary64 → Int
  | .nan _ => 0
  | .infinite s => if s then low else high
  | .finite s m e => max low (min high (signed s (roundUpHalf m e)))

/-- The natural number of at most 64 bits that is nearest. -/
def toNat64 (a : Binary64) : Nat :=
  (a.toIntBetween 0 (wordLimit - 1)).toNat

/-- The natural number of at most 64 bits that is nearest from below; zero for
numbers below zero and for a number that is none. -/
def floorNat64 : Binary64 → Nat
  | .nan _ => 0
  | .infinite s => if s then 0 else wordLimit - 1
  | .finite s m e =>
    let (n, d) := scaleDown m 1 (-e)
    if s then 0 else min (n / d) (wordLimit - 1)

/-! ### Bits -/

/-- The sign bit. -/
def signBit (negative : Bool) : Nat := if negative then twoTo 63 else 0

/-- The 64 bits of a number. -/
def toBits : Binary64 → Nat
  | .nan s => signBit s + 0x7ff8000000000000
  | .infinite s => signBit s + 0x7ff0000000000000
  | .finite s m e =>
    signBit s + if m < twoTo 52 then m else (e + 1075).toNat * twoTo 52 + (m - twoTo 52)

example : (ofDecimal false 1 (-1)).toBits = 0x3fb999999999999a := by decide +kernel
example : (ofDecimal false 5 (-324)).toBits = 1 := by decide +kernel
example : (ofDecimal false 1 308).toBits = 0x7fe1ccf385ebc8a0 := by decide +kernel
example : (ofDecimal false 2 308).toBits = 0x7ff0000000000000 := by decide +kernel
example : (ofNat 18446744073709551615).toBits = 0x43f0000000000000 := by decide +kernel
example : ((ofDecimal false 1 (-1)) + (ofDecimal false 2 (-1))).toBits =
    0x3fd3333333333334 := by decide +kernel

end Binary64
end PullStream
