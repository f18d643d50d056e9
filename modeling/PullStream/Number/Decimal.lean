import PullStream.Number.Binary64
import PullStream.Text.Digits

/-!
Binary64 numbers from decimal text.

A number is written with digits before a point, behind it, or both, and possibly
an exponent; a sign may come first. The words for infinity and for no number are
read in any mixture of capital and small letters. The nearest number is taken.
-/

namespace PullStream.Binary64

open Text (digits sign)

/-- The fraction behind the digits before the point: the value of all digits, how
many are behind the point, and the rest. -/
def readFraction (value : Nat) : List Char → Nat × Nat × List Char
  | '.' :: cs => digits value 0 cs
  | cs => (value, 0, cs)

/-- The exponent, zero if there is none. It must be all that is left. -/
def readExponent : List Char → Option Int
  | [] => some 0
  | c :: cs =>
    if c = 'e' ∨ c = 'E' then
      let (negative, cs) := sign cs
      (Text.natural? cs).map (signed negative)
    else none

/-- The words for numbers that are not finite. -/
def readWord (negative : Bool) (cs : List Char) : Option Binary64 :=
  match String.ofList (cs.map Char.toLower) with
  | "inf" | "infinity" => some (.infinite negative)
  | "nan" => some (.nan negative)
  | _ => none

/-- Digits with a point and an exponent. -/
def readDigits (negative : Bool) (cs : List Char) : Option Binary64 := do
  let (whole, before, rest) := digits 0 0 cs
  let (value, behind, rest) := readFraction whole rest
  if before + behind = 0 then none
  let exponent ← readExponent rest
  some (ofDecimal negative value (exponent - behind))

/-- The number that a text writes. -/
def parse? (text : String) : Option Binary64 :=
  let (negative, cs) := sign text.toList
  match readWord negative cs with
  | some x => some x
  | none => readDigits negative cs

example : ["1.", ".5", "-2e-1", "+1E2", ".", "e5", "", "1e", "InF"].map
    (fun t => (parse? t).map toBits) =
    [some 0x3ff0000000000000, some 0x3fe0000000000000, some 0xbfc999999999999a,
      some 0x4059000000000000, none, none, none, none, some 0x7ff0000000000000] := by
  decide +kernel

end PullStream.Binary64
