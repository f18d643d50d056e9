import PullStream.Configuration.Environment
import PullStream.Configuration.Value
import PullStream.Number.Decimal

/-!
The layer of overrides that the variables of a program hold.

A variable counts whose name starts with the mark of the program, in capital or
small letters. The rest of its name is the name of an entry; a double underscore
divides the steps of a path. Its value is the first of a truth value, an integer
and a decimal that the text writes, else the text; of the entries that are meant
to be lists, a text is cut at its commas.
-/

namespace PullStream.Configuration

/-- What the names of overrides start with. -/
def overrideMark : String := "app_"

/-- The value that a text of its own writes. -/
def plainValue? (text : String) : Option Value :=
  match Text.lowercase text with
  | "true" => some (.bool true)
  | "false" => some (.bool false)
  | _ =>
    match (Text.integer? text).filter Value.isInteger with
    | some n => some (.integer n)
    | none => (Binary64.parse? text).map .decimal

/-- The value of an override for an entry. -/
def overrideValue (lists : List String) (name text : String) : Value :=
  match plainValue? text with
  | some v => v
  | none => if lists.contains name then .list ((text.splitOn ",").map .text) else .text text

/-- The entry that a variable overrides. -/
def override? (lists : List String) (name text : String) : Option (String × Value) :=
  let small := Text.lowercase name
  if small.startsWith overrideMark then
    let entry := String.intercalate "." (((small.drop overrideMark.length).toString).splitOn "__")
    some (entry, overrideValue lists entry text)
  else none

/-- The layer of overrides; `lists` names the entries that are meant to be
lists. -/
def overrides (lists : List String) (vars : Variables) : Table :=
  vars.filterMap fun v => override? lists v.1 v.2

end PullStream.Configuration
