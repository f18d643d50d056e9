import PullStream.Configuration.Loading

/-!
Two programs and what they want of their configuration.

One works on batches and has all settings of this library, each with its default.
The other has tags and a label beside the settings of its backoff, which it must
be given.
-/

namespace PullStream.Scenario

open PullStream.Configuration

/-- Reads an entry that has a default. -/
def entryOr {α : Type} (t : Table) (name : String) (read? : Value → Option α) (default : α) :
    Option α :=
  match t.get? name with
  | some v => read? v
  | none => some default

/-- The settings of a program that works on batches. -/
structure BatchProgram where
  batchSize : Nat := 16
  backoff : Settings.Backoff := {}
  parallel : Settings.Parallel := {}
  buffer : Settings.Buffer := {}
  deriving DecidableEq, Repr

/-- How they are read. -/
def BatchProgram.schema : Schema BatchProgram where
  read? t := do
    let batchSize ← entryOr t "batch_size" Value.toNatural? 16
    let backoff ← entryOr t "backoff" (Settings.Backoff.read? Value.dialect) {}
    let parallel ← entryOr t "parallel" (Settings.Parallel.read? Value.dialect) {}
    let buffer ← entryOr t "buffer" (Settings.Buffer.read? Value.dialect) {}
    some { batchSize, backoff, parallel, buffer }

/-- The settings of a program with tags. -/
structure TaggedProgram where
  tags : List String := []
  label : Option String := none
  backoff : Settings.Backoff
  deriving DecidableEq, Repr

/-- Reads a label; nothing stands for none. -/
def label? : Value → Option (Option String)
  | .null => some none
  | v => v.toText?.map some

/-- How they are read. -/
def TaggedProgram.schema : Schema TaggedProgram where
  lists := ["tags"]
  read? t := do
    let tags ← entryOr t "tags" Value.toTexts? []
    let label ← entryOr t "label" label? none
    let backoff ← (t.get? "backoff").bind (Settings.Backoff.read? Value.dialect)
    some { tags, label, backoff }

end PullStream.Scenario
