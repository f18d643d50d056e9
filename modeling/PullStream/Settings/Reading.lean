import PullStream.Settings
import PullStream.Text.Json

/-!
Reading settings from values.

Settings are read alike from every kind of value: a group of settings is a table
of its fields or a list of them in order, and a field that is missing has its
default. What differs is what may stand for a number, a flag or a name: that is a
`Dialect`. `strict` is the dialect of JSON texts, where every field has its one
type.
-/

namespace PullStream.Settings

/-- The fields of a group, by name or by position. -/
inductive Fields (V : Type) where
  | named (find? : String → Option V)
  | listed (values : List V)

/-- The value of a field. -/
def Fields.get? {V : Type} (f : Fields V) (position : Nat) (name : String) : Option V :=
  match f with
  | .named find? => find? name
  | .listed values => values[position]?

/-- How values stand for settings. -/
structure Dialect (V : Type) where
  /-- The fields of a group that has so many. -/
  fields? : (count : Nat) → V → Option (Fields V)
  /-- A natural number of at most 64 bits. -/
  natural? : V → Option Nat
  number? : V → Option Binary64
  flag? : V → Option Bool
  /-- The strategy that a value names. -/
  strategy? : V → Option Strategy

/-- Reads a field. -/
def Fields.read {V α : Type} (f : Fields V) (position : Nat) (name : String)
    (read? : V → Option α) (default : α) : Option α :=
  match f.get? position name with
  | some v => read? v
  | none => some default

variable {V : Type}

/-- Reads the settings of a growing delay. -/
def Backoff.read? (d : Dialect V) (v : V) : Option Backoff := do
  let f ← d.fields? 5 v
  let default : Backoff := {}
  let strategy ← f.read 0 "strategy" d.strategy? default.strategy
  let initial ← f.read 1 "initial_delay_ms" d.natural? default.initial
  let increase ← f.read 2 "increase" d.number? default.increase
  let maximum ← f.read 3 "maximum_delay_ms" d.natural? default.maximum
  let jitter ← f.read 4 "jitter" d.number? default.jitter
  some { strategy, initial, increase, maximum, jitter }

/-- Reads the settings of a parallel stage. -/
def Parallel.read? (d : Dialect V) (v : V) : Option Parallel := do
  let f ← d.fields? 2 v
  let default : Parallel := {}
  let concurrency ← f.read 0 "concurrency" d.natural? default.concurrency
  let keepOrder ← f.read 1 "keep_order" d.flag? default.keepOrder
  some { concurrency, keepOrder }

/-- Reads the settings of a buffer. -/
def Buffer.read? (d : Dialect V) (v : V) : Option Buffer := do
  let f ← d.fields? 1 v
  let size ← f.read 0 "size" d.natural? ({} : Buffer).size
  some { size }

/-! ### JSON texts -/

namespace Strict

open Text (Json)

/-- The fields of an object, or of an array that is not longer than the group. -/
def fields? (count : Nat) : Json → Option (Fields Json)
  | .object entries => some (.named fun name => (Json.object entries).get? name)
  | .array items => if items.length ≤ count then some (.listed items) else none
  | _ => none

/-- An integer in range. -/
def natural? : Json → Option Nat
  | .integer n => if 0 ≤ n ∧ n < wordLimit then some n.toNat else none
  | _ => none

/-- Any number. -/
def number? : Json → Option Binary64
  | .integer n => some (.ofInt n)
  | .decimal x => some x
  | _ => none

/-- A truth value. -/
def flag? : Json → Option Bool
  | .bool b => some b
  | _ => none

/-- A name, or the only entry of an object that holds nothing for it. -/
def strategy? : Json → Option Strategy
  | .string name => Strategy.ofName? name
  | .object [(name, .null)] => Strategy.ofName? name
  | _ => none

end Strict

/-- The dialect of JSON texts. -/
def strict : Dialect Text.Json where
  fields? := Strict.fields?
  natural? := Strict.natural?
  number? := Strict.number?
  flag? := Strict.flag?
  strategy? := Strict.strategy?

end PullStream.Settings
