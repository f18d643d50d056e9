import PullStream.Text.Lowercase

/-!
The environment a program runs in, and the variables it is started with.
-/

namespace PullStream.Configuration

/-- Variables by name. -/
abbrev Variables := List (String × String)

/-- What a program runs for. -/
inductive Environment where
  | development
  | production
  deriving DecidableEq, Repr

namespace Environment

/-- The name of an environment. -/
def name : Environment → String
  | .development => "dev"
  | .production => "prod"

/-- What is said of a name of no environment. -/
def refusal (small : String) : String :=
  s!"{small} is not a supported environment. Use either `{development.name}` or " ++
    s!"`{production.name}`."

/-- The environment of a name, in any mixture of capital and small letters. -/
def ofName (text : String) : Except String Environment :=
  let small := Text.lowercase text
  if small = development.name then .ok .development
  else if small = production.name then .ok .production
  else .error (refusal small)

/-- The variable that names the environment. -/
def variableName : String := "APP_ENVIRONMENT"

/-- The environment that the variables name; development if they name none. -/
def ofVariables (vars : Variables) : Except String Environment :=
  match vars.lookup variableName with
  | some text => ofName text
  | none => .ok .development

theorem ofName_name (e : Environment) : (ofName e.name).toOption = some e := by
  cases e <;> decide +kernel

end Environment
end PullStream.Configuration
