import PullStream.Number.Binary64

/-!
The shortest decimal text of a number.

Of all decimals that read back as a number, one with the fewest digits is taken,
and of those the nearest, the greater one when two are equally near. It is
written without an exponent, and without a point if it is an integer.
-/

namespace PullStream.Binary64

/-- The exponent of the greatest power of ten that is not above `num / den`, both
positive, found from a guess that is at most one off. -/
def floorLogTen (num den : Nat) : Int :=
  let guess : Int := ((Nat.toDigits 10 num).length : Int) - ((Nat.toDigits 10 den).length : Int)
  let above : Bool :=
    if 0 ≤ guess then decide (den * tenTo guess.toNat ≤ num)
    else decide (den ≤ num * tenTo (-guess).toNat)
  if above then guess else guess - 1

/-- The decimals of `count` digits on either side of `num / den`, with the
exponent of their last digit. -/
def neighbours (num den : Nat) (count : Nat) : List (Nat × Int) :=
  let e := floorLogTen num den - (count : Int) + 1
  let down := if 0 ≤ e then num / (den * tenTo e.toNat) else num * tenTo (-e).toNat / den
  [(down, e), (down + 1, e)]

/-- The distance of a decimal from `num / den`, times a factor that depends on
the exponent only. -/
def distance (num den : Nat) (decimal : Nat × Int) : Nat :=
  let (a, b) :=
    if 0 ≤ decimal.2 then (decimal.1 * tenTo decimal.2.toNat * den, num)
    else (decimal.1 * den, num * tenTo (-decimal.2).toNat)
  (a - b) + (b - a)

/-- The decimal that is nearest to `num / den`, the last of those that are equally
near. -/
def nearest (num den : Nat) : List (Nat × Int) → Option (Nat × Int)
  | [] => none
  | d :: rest =>
    match nearest num den rest with
    | none => some d
    | some d' => if distance num den d' ≤ distance num den d then some d' else some d

/-- A decimal without the zero that a carry leaves at its end. -/
def carried (decimal : Nat × Int) : Nat × Int :=
  if decimal.1 % 10 = 0 then (decimal.1 / 10, decimal.2 + 1) else decimal

/-- The digits, and the exponent of the last, of the shortest decimal of a finite
number that is not zero. Only a carry can leave a zero at the end, for without it
one digit fewer would have done. -/
def shortest (significand : Nat) (exponent : Int) : Nat × Int :=
  let (num, den) := scaleDown significand 1 (-exponent)
  let candidate (count : Nat) : Option (Nat × Int) :=
    nearest num den ((neighbours num den count).filter fun d =>
      ofDecimal false d.1 d.2 = .finite false significand exponent)
  (((List.range 17).map (· + 1)).findSome? candidate).elim (significand, 0) carried

/-- Digits with a point before the last `places` of them. -/
def positional (digits : Nat) (places : Nat) : String :=
  let text := toString digits
  let padded := "".pushn '0' (places + 1 - text.length) ++ text
  (padded.take (padded.length - places)).toString ++ "." ++
    (padded.drop (padded.length - places)).toString

/-- The text of a number. -/
def render : Binary64 → String
  | .nan _ => "NaN"
  | .infinite s => if s then "-inf" else "inf"
  | .finite s m e =>
    (if s then "-" else "") ++
      if m = 0 then "0"
      else
        let (digits, exponent) := shortest m e
        if 0 ≤ exponent then toString (digits * tenTo exponent.toNat)
        else positional digits (-exponent).toNat

end PullStream.Binary64
