/-!
Decimal digits and the integers they write.
-/

namespace PullStream.Text

/-- The value of a decimal digit. -/
def digit? (c : Char) : Option Nat :=
  if '0' ≤ c ∧ c ≤ '9' then some (c.toNat - '0'.toNat) else none

/-- The digits at the front of a text: their value, following on `value`, how
many they are, following on `count`, and the rest. -/
def digits (value count : Nat) : List Char → Nat × Nat × List Char
  | [] => (value, count, [])
  | c :: cs =>
    match digit? c with
    | some d => digits (10 * value + d) (count + 1) cs
    | none => (value, count, c :: cs)

/-- A sign at the front of a text, whether it is a minus, and the rest. -/
def sign : List Char → Bool × List Char
  | '-' :: cs => (true, cs)
  | '+' :: cs => (false, cs)
  | cs => (false, cs)

/-- The number that a text of digits writes. -/
def natural? (cs : List Char) : Option Nat :=
  match digits 0 0 cs with
  | (n, count, []) => if count = 0 then none else some n
  | _ => none

/-- The integer that a text writes: digits behind a sign or none. -/
def integer? (text : String) : Option Int :=
  let (negative, cs) := sign text.toList
  (natural? cs).map fun n => if negative then -(n : Int) else n

/-- The natural number that a text writes: digits behind a plus or nothing. -/
def unsigned? (text : String) : Option Nat :=
  match text.toList with
  | '+' :: cs => natural? cs
  | cs => natural? cs

example : ["12", "-3", "+7", "", "-", "1 ", "0x1"].map integer? =
    [some 12, some (-3), some 7, none, none, none, none] := by decide +kernel

end PullStream.Text
