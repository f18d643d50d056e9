import PullStream.Number.Binary64
import PullStream.Text.Digits

/-!
JSON texts.

A number without point and exponent is an integer; any other number is read to the
nearest binary64 number. Neither may be beyond the largest of these. The
entries of an object stay in the order of the text; of entries with one name the
last counts. Nesting is limited to `maxDepth`.
-/

namespace PullStream.Text

/-- A JSON value. -/
inductive Json where
  | null
  | bool (value : Bool)
  | integer (value : Int)
  | decimal (value : Binary64)
  | string (value : String)
  | array (items : List Json)
  | object (entries : List (String × Json))
  deriving Repr, Inhabited

namespace Json

/-- How deep arrays and objects may nest. -/
def maxDepth : Nat := 127

/-- A reader: what it read and the rest of the text. -/
abbrev Reader (α : Type) := List Char → Option (α × List Char)

/-- Skips white space. -/
def skipSpace (cs : List Char) : List Char :=
  cs.dropWhile fun c => c == ' ' || c == '\n' || c == '\t' || c == '\r'

/-- Skips a word that must come next. -/
def expect : List Char → List Char → Option (List Char)
  | [], cs => some cs
  | _ :: _, [] => none
  | w :: ws, c :: cs => if w = c then expect ws cs else none

/-! ### Numbers -/

/-- The fraction of a number: its digits after those before the point, and how
many they are. No point, no fraction. -/
def fraction (value : Nat) : List Char → Option (Nat × Nat × List Char)
  | '.' :: cs =>
    let (value, count, cs) := digits value 0 cs
    if count = 0 then none else some (value, count, cs)
  | cs => some (value, 0, cs)

/-- The exponent of a number, if it has one. -/
def exponent : List Char → Option (Option Int × List Char)
  | c :: cs =>
    if c = 'e' ∨ c = 'E' then
      let (negative, cs) := sign cs
      let (value, count, cs) := digits 0 0 cs
      if count = 0 then none
      else some (some (if negative then -(value : Int) else value), cs)
    else some (none, c :: cs)
  | [] => some (none, [])

/-- A number, behind its sign. A zero may not be followed by a digit. A negative
zero is no integer. -/
def unsigned (negative : Bool) (cs : List Char) : Option (Json × List Char) := do
  let (whole, count, rest) := digits 0 0 cs
  if count = 0 ∨ (cs.head? = some '0' ∧ 1 < count) then none
  let (value, places, rest) ← fraction whole rest
  let (power, rest) ← exponent rest
  if places = 0 ∧ power = none ∧ ¬(negative = true ∧ value = 0) then
    if (Binary64.ofNat value).isFinite then
      some (.integer (Binary64.signed negative value), rest)
    else none
  else
    let x := Binary64.ofDecimal negative value (power.getD 0 - places)
    if x.isFinite then some (.decimal x, rest) else none

/-- A number. -/
def number : Reader Json
  | '-' :: cs => unsigned true cs
  | cs => unsigned false cs

/-! ### Strings -/

/-- The value of a hexadecimal digit. -/
def hexDigit? (c : Char) : Option Nat :=
  if '0' ≤ c ∧ c ≤ '9' then some (c.toNat - '0'.toNat)
  else if 'a' ≤ c ∧ c ≤ 'f' then some (c.toNat - 'a'.toNat + 10)
  else if 'A' ≤ c ∧ c ≤ 'F' then some (c.toNat - 'A'.toNat + 10)
  else none

/-- Four hexadecimal digits. -/
def fourHex : Reader Nat
  | a :: b :: c :: d :: cs => do
    let a ← hexDigit? a
    let b ← hexDigit? b
    let c ← hexDigit? c
    let d ← hexDigit? d
    some (4096 * a + 256 * b + 16 * c + d, cs)
  | _ => none

/-- The second half of a surrogate pair, given the first. -/
def lowSurrogate (high : Nat) : Reader Char
  | '\\' :: 'u' :: cs => do
    let (low, cs) ← fourHex cs
    if 0xDC00 ≤ low ∧ low ≤ 0xDFFF then
      some (Char.ofNat (0x10000 + (high - 0xD800) * 0x400 + (low - 0xDC00)), cs)
    else none
  | _ => none

/-- The character of an escape, behind its backslash. A surrogate must come with
its other half. -/
def escape : Reader Char
  | '"' :: cs => some ('"', cs)
  | '\\' :: cs => some ('\\', cs)
  | '/' :: cs => some ('/', cs)
  | 'b' :: cs => some ('\x08', cs)
  | 'f' :: cs => some ('\x0c', cs)
  | 'n' :: cs => some ('\n', cs)
  | 'r' :: cs => some ('\r', cs)
  | 't' :: cs => some ('\t', cs)
  | 'u' :: cs => do
    let (n, cs) ← fourHex cs
    if 0xD800 ≤ n ∧ n ≤ 0xDBFF then lowSurrogate n cs
    else if 0xDC00 ≤ n ∧ n ≤ 0xDFFF then none
    else some (Char.ofNat n, cs)
  | _ => none

/-- A string, behind its opening quote; `taken` is what has been read, reversed.
The fuel is the length of the text. -/
def stringFrom (taken : List Char) : Nat → Reader String
  | 0, _ => none
  | _ + 1, [] => none
  | _ + 1, '"' :: cs => some (String.ofList taken.reverse, cs)
  | fuel + 1, '\\' :: cs => do
    let (c, cs) ← escape cs
    stringFrom (c :: taken) fuel cs
  | fuel + 1, c :: cs => if c.toNat < 0x20 then none else stringFrom (c :: taken) fuel cs

/-- A string, behind its opening quote. -/
def quoted (cs : List Char) : Option (String × List Char) :=
  stringFrom [] (cs.length + 1) cs

/-! ### Values -/

mutual

/-- A value at a depth. The fuel bounds the number of values and entries. -/
def valueAt (depth : Nat) : Nat → Reader Json
  | 0, _ => none
  | fuel + 1, cs =>
    match skipSpace cs with
    | 'n' :: rest => (expect "ull".toList rest).map (.null, ·)
    | 't' :: rest => (expect "rue".toList rest).map (.bool true, ·)
    | 'f' :: rest => (expect "alse".toList rest).map (.bool false, ·)
    | '"' :: rest => (quoted rest).map fun (s, rest) => (.string s, rest)
    | '[' :: rest =>
      if depth = 0 then none
      else
        match skipSpace rest with
        | ']' :: rest => some (.array [], rest)
        | rest => (itemsAt (depth - 1) fuel rest).map fun (items, rest) => (.array items, rest)
    | '{' :: rest =>
      if depth = 0 then none
      else
        match skipSpace rest with
        | '}' :: rest => some (.object [], rest)
        | rest =>
          (entriesAt (depth - 1) fuel rest).map fun (entries, rest) => (.object entries, rest)
    | rest => number rest

/-- The items of an array up to its closing bracket. -/
def itemsAt (depth : Nat) : Nat → Reader (List Json)
  | 0, _ => none
  | fuel + 1, cs => do
    let (item, rest) ← valueAt depth fuel cs
    match skipSpace rest with
    | ',' :: rest =>
      let (items, rest) ← itemsAt depth fuel rest
      some (item :: items, rest)
    | ']' :: rest => some ([item], rest)
    | _ => none

/-- The entries of an object up to its closing brace. -/
def entriesAt (depth : Nat) : Nat → Reader (List (String × Json))
  | 0, _ => none
  | fuel + 1, cs => do
    let rest ← expect ['"'] (skipSpace cs)
    let (name, rest) ← quoted rest
    let rest ← expect [':'] (skipSpace rest)
    let (value, rest) ← valueAt depth fuel rest
    match skipSpace rest with
    | ',' :: rest =>
      let (entries, rest) ← entriesAt depth fuel rest
      some ((name, value) :: entries, rest)
    | '}' :: rest => some ([(name, value)], rest)
    | _ => none

end

/-- Reads a text that holds one value and nothing else. -/
def parse? (text : String) : Option Json := do
  let cs := text.toList
  let (value, rest) ← valueAt maxDepth (2 * cs.length + 2) cs
  if (skipSpace rest).isEmpty then some value else none

/-! ### Looking into values -/

/-- The last entry of an object with a name. -/
def get? (name : String) : Json → Option Json
  | .object entries => entries.reverse.lookup name
  | _ => none

end Json
end PullStream.Text
