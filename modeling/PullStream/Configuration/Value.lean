import PullStream.Number.Binary64
import PullStream.Text.Json
import PullStream.Text.Lowercase

/-!
Configuration values and how layers of them are put on top of each other.

A configuration is a table of values. A layer is put on entry by entry: a table is
merged into the table that is there, anything else replaces what is there, and an
empty table replaces nothing. Names are compared in small letters. The name of an
entry of a layer may be a path through tables, its steps divided by points.
-/

namespace PullStream.Configuration

/-- A configuration value. -/
inductive Value where
  | null
  | bool (value : Bool)
  | integer (value : Int)
  | decimal (value : Binary64)
  | text (value : String)
  | list (items : List Value)
  | table (entries : List (String × Value))
  deriving Repr, Inhabited

/-- Named values, each name once. -/
abbrev Table := List (String × Value)

namespace Value

/-- The entries of a table; anything else has none. -/
def entries : Value → Table
  | .table t => t
  | _ => []

/-- The integers that a value can hold. -/
def isInteger (n : Int) : Bool := -(twoTo 63 : Int) ≤ n && n < twoTo 63

/-- The value of an integer, as a decimal when it is too large. -/
def ofInt (n : Int) : Value :=
  if isInteger n then .integer n else .decimal (.ofInt n)

mutual

/-- The value of a JSON text. Of entries with one name the last counts. -/
def ofJson : Text.Json → Value
  | .null => .null
  | .bool b => .bool b
  | .integer n => ofInt n
  | .decimal x => .decimal x
  | .string s => .text s
  | .array items => .list (ofJsons items)
  | .object entries => .table (ofEntries entries)

/-- The values of JSON texts. -/
def ofJsons : List Text.Json → List Value
  | [] => []
  | j :: rest => ofJson j :: ofJsons rest

/-- The entries of a JSON object. -/
def ofEntries : List (String × Text.Json) → Table
  | [] => []
  | (name, j) :: rest =>
    let later := ofEntries rest
    if later.any (·.1 = name) then later else (name, ofJson j) :: later

end

end Value

namespace Table

/-- The value of a name. -/
def get? (t : Table) (name : String) : Option Value := t.lookup name

/-- Gives a name a value, in its place or behind all others. -/
def put (t : Table) (name : String) (v : Value) : Table :=
  match t with
  | [] => [(name, v)]
  | (n, old) :: rest => if n = name then (n, v) :: rest else (n, old) :: put rest name v

theorem get?_put (t : Table) (name : String) (v : Value) :
    (t.put name v).get? name = some v := by
  induction t with
  | nil => simp [put, get?]
  | cons e rest ih =>
    obtain ⟨n, old⟩ := e
    by_cases h : n = name
    · simp [put, get?, h]
    · have h' : (name == n) = false := by simpa using fun e => h e.symm
      simpa [put, get?, h, List.lookup_cons, h'] using ih

end Table

/-! ### Layers -/

mutual

/-- Puts a value on the entry of a name; what is no table becomes one first. -/
def assign (name : String) (v : Value) (root : Value) : Value :=
  let entries : Table := root.entries
  match v with
  | .table incoming =>
    let target := (entries.get? name).getD (.table [])
    .table (entries.put name (absorb incoming target))
  | v => .table (entries.put name v)
termination_by sizeOf v

/-- Puts the entries of a table on a value, one by one. -/
def absorb (incoming : List (String × Value)) (target : Value) : Value :=
  match incoming with
  | [] => target
  | (name, v) :: rest => absorb rest (assign (Text.lowercase name) v target)
termination_by sizeOf incoming

end

/-- Puts a value on the entry at the end of a path. -/
def place : List String → Value → Value → Value
  | [], _, root => root
  | [name], v, root => assign name v root
  | name :: rest, v, root =>
    let entries : Table := root.entries
    .table (entries.put name (place rest v ((entries.get? name).getD .null)))

/-- A character of a step of a path. -/
def isStepChar (c : Char) : Bool :=
  c.isAlphanum || c == '_' || c == '-' || c == ' '

/-- The path that a name stands for: its steps if each is made of letters, digits,
underscores, hyphens and spaces, else the name as a whole. -/
def pathOf (name : String) : List String :=
  let steps := name.splitOn "."
  if steps.all fun step => !step.isEmpty && step.toList.all isStepChar then steps else [name]

/-- Puts a layer on a configuration. -/
def overlay (layer : Table) (root : Value) : Value :=
  layer.foldl (fun root entry => place (pathOf (Text.lowercase entry.1)) entry.2 root) root

/-- A configuration of layers, the first at the bottom. -/
def ofLayers (layers : List Table) : Value :=
  layers.foldl (fun root layer => overlay layer root) (.table [])

end PullStream.Configuration
