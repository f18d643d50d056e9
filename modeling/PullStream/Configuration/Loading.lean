import PullStream.Configuration.Conversion
import PullStream.Configuration.Overrides
import PullStream.Configuration.Yaml.Document

/-!
Loading a configuration from a directory and the variables of a program.

The directory holds a base file and a file for each environment, each as YAML or
as JSON. Both files are looked for before either is read. The environment's file
is put on the base, and the overrides of the variables on both.
-/

namespace PullStream.Configuration

/-- Files by name; what has no text is no file. -/
abbrev Files := List (String × Option String)

/-- Where configurations lie: the path of the directory, and its files if it is
there. -/
structure Directory where
  path : String
  files? : Option Files

/-- Which file of a configuration. -/
inductive Part where
  | base
  | environment (e : Environment)
  deriving DecidableEq, Repr

namespace Part

/-- The name of a part's file, without its ending. -/
def stem : Part → String
  | .base => "base"
  | .environment e => e.name

/-- What a part is called. -/
def description : Part → String
  | .base => "base configuration"
  | .environment e => s!"{e.name} environment configuration"

end Part

/-- How a file is written. -/
inductive Format where
  | yaml
  | json
  deriving DecidableEq, Repr

/-- The endings of files, in the order in which they are tried. -/
def endings : List (String × Format) :=
  [("yaml", .yaml), ("yml", .yaml), ("json", .json)]

/-- Why a configuration could not be loaded. -/
inductive LoadFailure where
  | missingDirectory (path : String)
  | missingFile (part : Part) (directory : String) (attempted : List String)
  | unreadableFile (part : Part) (path : String)
  | unknownEnvironment (message : String)
  /-- The files were read, and their values do not fit the settings. -/
  | misfit
  deriving DecidableEq, Repr

/-- What is said of a failure that names no file. -/
def LoadFailure.message : LoadFailure → String
  | .missingDirectory path => s!"configuration directory `{path}` does not exist"
  | .missingFile part directory attempted =>
    let list := String.intercalate ", " (attempted.map fun path => s!"`{path}`")
    s!"could not locate {part.description} in `{directory}`; attempted: {list}"
  | .unreadableFile part path => s!"failed to load {part.description} from `{path}`"
  | .unknownEnvironment message =>
    s!"failed to determine runtime environment: {message}"
  | .misfit => "failed to deserialize configuration"

/-! ### Files -/

/-- A file that has been found. -/
structure Found where
  path : String
  format : Format
  text : String

/-- The path of a file in a directory. -/
def pathIn (directory name : String) : String := s!"{directory}/{name}"

/-- Looks for the file of a part, in the order of the endings. -/
def locate (directory : String) (files : Files) (part : Part) : Except LoadFailure Found :=
  let found? := endings.findSome? fun e =>
    let name := s!"{part.stem}.{e.1}"
    match files.lookup name with
    | some (some text) => some { path := pathIn directory name, format := e.2, text }
    | _ => none
  match found? with
  | some found => .ok found
  | none =>
    .error (.missingFile part directory
      (endings.map fun e => pathIn directory s!"{part.stem}.{e.1}"))

/-- The text without the mark of its byte order. -/
def withoutOrderMark (text : String) : String :=
  match text.toList with
  | '\uFEFF' :: cs => String.ofList cs
  | _ => text

/-- The table that a text writes in a format. -/
def Format.parse? (format : Format) (text : String) : Option Table :=
  match format with
  | .yaml => Yaml.parse? text
  | .json =>
    match (Text.Json.parse? text).map Value.ofJson with
    | some (.table t) => some t
    | _ => none

/-- Reads the file of a part. -/
def Found.read (f : Found) (part : Part) : Except LoadFailure Table :=
  match f.format.parse? (withoutOrderMark f.text) with
  | some t => .ok t
  | none => .error (.unreadableFile part f.path)

/-! ### Loading -/

/-- What a program wants of its configuration: which entries are lists, and how
its settings are read. -/
structure Schema (α : Type) where
  lists : List String := []
  read? : Table → Option α

/-- Loads the configuration of an environment. -/
def loadFrom {α : Type} (schema : Schema α) (directory : Directory) (vars : Variables)
    (e : Environment) : Except LoadFailure α :=
  match directory.files? with
  | none => .error (.missingDirectory directory.path)
  | some files => do
    let part := Part.environment e
    let baseFile ← locate directory.path files .base
    let environmentFile ← locate directory.path files part
    let base ← baseFile.read .base
    let environment ← environmentFile.read part
    let value := ofLayers [base, environment, overrides schema.lists vars]
    match schema.read? value.entries with
    | some settings => .ok settings
    | none => .error .misfit

/-- Loads the configuration of the environment that the variables name. -/
def load {α : Type} (schema : Schema α) (directory : Directory) (vars : Variables) :
    Except LoadFailure α :=
  match Environment.ofVariables vars with
  | .ok e => loadFrom schema directory vars e
  | .error message => .error (.unknownEnvironment message)

end PullStream.Configuration
