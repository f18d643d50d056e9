import PullStream.Configuration.Value
import PullStream.Number.Decimal
import PullStream.Number.Shortest
import PullStream.Settings.Reading

/-!
Reading settings from configuration values.

A configuration comes from files and variables of several kinds, so its values are
converted freely: numbers stand for one another and for truth values, truth values
for numbers, and a text for whatever it writes, a few words for truth values among
it. Nothing is never converted. A list may stand for a group of settings, in
order, whatever follows behind.
-/

namespace PullStream.Configuration.Value

/-- The truth value of a word. -/
def truth? (text : String) : Option Bool :=
  match Text.lowercase text with
  | "true" | "on" | "yes" => some true
  | "false" | "off" | "no" => some false
  | _ => none

/-- A truth value as a number. -/
def bit (b : Bool) : Nat := if b then 1 else 0

/-- A natural number of at most 64 bits. A decimal is rounded, halves away from
zero, and kept in range; an integer must be in range. -/
def toNatural? : Value → Option Nat
  | .integer n => if 0 ≤ n then some n.toNat else none
  | .decimal x => some x.toNat64
  | .bool b => some (bit b)
  | .text s =>
    match truth? s with
    | some b => some (bit b)
    | none => (Text.unsigned? s).filter (· < wordLimit)
  | _ => none

/-- A number. -/
def toNumber? : Value → Option Binary64
  | .integer n => some (.ofInt n)
  | .decimal x => some x
  | .bool b => some (.ofNat (bit b))
  | .text s =>
    match truth? s with
    | some b => some (.ofNat (bit b))
    | none => Binary64.parse? s
  | _ => none

/-- A truth value: of a number, whether it differs from zero. -/
def toFlag? : Value → Option Bool
  | .bool b => some b
  | .integer n => some (n != 0)
  | .decimal x => some (x.order? (.zero false) != some .eq)
  | .text s => if s = "1" then some true else if s = "0" then some false else truth? s
  | _ => none

/-- A text. -/
def toText? : Value → Option String
  | .text s => some s
  | .bool b => some (toString b)
  | .integer n => some (toString n)
  | .decimal x => some x.render
  | _ => none

/-- The items of a list, each a text. -/
def toTexts? : Value → Option (List String)
  | .list items => items.mapM toText?
  | _ => none

/-- The strategy of a name in any mixture of capital and small letters. -/
def strategyOfName? (text : String) : Option Settings.Strategy :=
  Settings.Strategy.ofName? (Text.lowercase text)

/-- The strategy that a text names, or the only entry of a table. -/
def toStrategy? : Value → Option Settings.Strategy
  | .text s => strategyOfName? s
  | .table [(name, _)] => strategyOfName? name
  | _ => none

/-- The fields of a group. -/
def fields? (_count : Nat) : Value → Option (Settings.Fields Value)
  | .table t => some (.named fun name => Table.get? t name)
  | .list items => some (.listed items)
  | _ => none

/-- The dialect of configurations. -/
def dialect : Settings.Dialect Value where
  fields? := fields?
  natural? := toNatural?
  number? := toNumber?
  flag? := toFlag?
  strategy? := toStrategy?

end PullStream.Configuration.Value
