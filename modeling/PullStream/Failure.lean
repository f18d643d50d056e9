import PullStream.Text.Blank

/-!
Failures: what a sequence, a feed or a worker answers instead of an item.

A failure has a kind, a description, and optionally a detail and the text of the
error behind it. Two failures agree when kind, description and detail agree; the
error behind one is not compared. The failures that the library itself raises
are named here, so that every module raises them with one wording.
-/

namespace PullStream

/-- What went wrong, by who is to blame. -/
inductive Failure.Kind where
  | operationFailed
  | sourceFailed
  | assertionFailed
  | feedClosed
  | consumerAlreadyAttached
  | invalidArgument
  | emptySequence
  | multipleElements
  | duplicateGroupKey
  | workerPanic
  | unknown
  deriving DecidableEq, Repr

namespace Failure.Kind

/-- Every kind, in order of declaration. -/
def all : List Failure.Kind :=
  [.operationFailed, .sourceFailed, .assertionFailed, .feedClosed,
    .consumerAlreadyAttached, .invalidArgument, .emptySequence,
    .multipleElements, .duplicateGroupKey, .workerPanic, .unknown]

/-- The name under which a kind is reported. -/
def name : Failure.Kind → String
  | .operationFailed => "OperationFailed"
  | .sourceFailed => "SourceFailed"
  | .assertionFailed => "AssertionFailed"
  | .feedClosed => "FeedClosed"
  | .consumerAlreadyAttached => "ConsumerAlreadyAttached"
  | .invalidArgument => "InvalidArgument"
  | .emptySequence => "EmptySequence"
  | .multipleElements => "MultipleElements"
  | .duplicateGroupKey => "DuplicateGroupKey"
  | .workerPanic => "WorkerPanic"
  | .unknown => "Unknown"

/-- The kind of a name; a name of no kind is `unknown`. -/
def ofName (text : String) : Failure.Kind :=
  (all.find? (·.name == text)).getD .unknown

/-- The kinds that blame the caller rather than the data. -/
def isProtocolViolation : Failure.Kind → Bool
  | .feedClosed | .consumerAlreadyAttached | .invalidArgument
  | .emptySequence | .multipleElements | .duplicateGroupKey => true
  | .operationFailed | .sourceFailed | .assertionFailed
  | .workerPanic | .unknown => false

end Failure.Kind

/-- A failure: its kind, what happened, the particulars if any, and the text of
the error behind it if there is one. -/
structure Failure where
  kind : Failure.Kind
  description : String
  detail : Option String := none
  origin : Option String := none
  deriving DecidableEq, Repr

namespace Failure

/-- Agreement of two failures: kind, description and detail. The error behind
them is left out. -/
def agrees (a b : Failure) : Bool :=
  a.kind == b.kind && a.description == b.description && a.detail == b.detail

/-- The part of a failure that decides its bucket in a table: failures that
agree share it, and so do failures that differ in detail only. -/
def bucket (a : Failure) : Kind × String :=
  (a.kind, a.description)

theorem agrees_refl (a : Failure) : a.agrees a = true := by
  simp [agrees]

theorem bucket_eq_of_agrees {a b : Failure} (h : a.agrees b = true) :
    a.bucket = b.bucket := by
  simp only [agrees, Bool.and_eq_true, beq_iff_eq] at h
  simp [bucket, h.1.1, h.1.2]

/-! ### Wrapping a caller's error -/

/-- An operation of the caller failed with this error. -/
def ofOperation (text : String) : Failure :=
  { kind := .operationFailed, description := "Operation failed",
    detail := some text, origin := some text }

/-- Reading or writing failed with this error. -/
def ofInputOutput (text : String) : Failure :=
  { kind := .sourceFailed, description := "I/O operation failed",
    detail := some text, origin := some text }

/-! ### Failures that the library raises -/

/-- An argument that the operation refuses. -/
def invalidArgument (description : String) : Failure :=
  { kind := .invalidArgument, description }

/-- A batch of no elements cannot be formed. -/
def zeroBatch : Failure := invalidArgument "Batch size must be greater than 0"

/-- A buffer of no elements cannot be filled. -/
def zeroBuffer : Failure := invalidArgument "Buffer size must be greater than 0"

/-- A fan-out needs an output. -/
def zeroOutputs : Failure := invalidArgument "Multiplex count must be greater than 0"

/-- A dispatcher needs room for a worker. -/
def zeroConcurrency : Failure := invalidArgument "Concurrency must be greater than 0"

/-- Giving way every zero elements is not a rule. -/
def zeroInterval : Failure := invalidArgument "Interrupt interval must be greater than 0"

/-- Giving way zero times a second is not a rule. -/
def zeroRate : Failure := invalidArgument "Interrupts per second must be greater than 0"

/-- Only an immediate sequence can be walked without waiting. -/
def notImmediate : Failure :=
  { invalidArgument "Sequence is not synchronous" with
    detail := some
      "materialize the sequence with `to_sync` before iterating it synchronously" }

/-- The element at `index` broke the assertion. -/
def assertionFailed (index : Nat) : Failure :=
  { kind := .assertionFailed, description := "Sequence assertion failed",
    detail := some s!"element at index {index} did not satisfy the assertion" }

/-- Feeding a feed that has been closed. -/
def feedClosed : Failure :=
  { kind := .feedClosed, description := "Cannot feed a closed sequence" }

/-- Throwing into a feed that has been closed. -/
def throwClosed : Failure :=
  { kind := .feedClosed, description := "Cannot throw into a closed sequence" }

/-- A feed has one consumer at most. -/
def consumerAttached : Failure :=
  { kind := .consumerAlreadyAttached, description := "Feed already has a consumer" }

/-- The operation `name` needs an element and the sequence had none; `need`
says how many it needs. -/
def noElements (name need : String) : Failure :=
  { kind := .emptySequence, description := "Sequence contains no elements",
    detail := some s!"`{name}` requires {need} one element" }

/-- There was an element after the only one. -/
def moreThanOne : Failure :=
  { kind := .multipleElements, description := "Sequence contains more than one element" }

/-- The element at `index` has the key of an earlier one. -/
def duplicateKey (index : Nat) : Failure :=
  { kind := .duplicateGroupKey, description := "Group has more than one element",
    detail := some s!"element at index {index} repeats an existing key" }

/-- The worker of element `index` panicked with `message`. -/
def workerPanicked (index : Nat) (message : String) : Failure :=
  { kind := .workerPanic, description := "Worker panicked",
    detail := some s!"worker for element {index} panicked: {message}" }

/-! ### The report of a failure -/

/-- The lines of a block below its heading; a blank line keeps its indentation
only. -/
private def block (text : String) : String :=
  String.join ((Text.lines text).map fun line =>
    if Text.allBlank line then "\n    " else s!"\n    {line}")

/-- The detail block of a report. -/
private def detailBlock : Option String → String
  | none => ""
  | some text => if Text.allBlank text then "\n  Detail: <empty>" else "\n  Detail:" ++ block text

/-- The trace that is reported where traces are not captured. -/
def noBacktrace : String := "disabled backtrace"

/-- The report of a failure raised at `location`: a heading, the detail and the
captured trace. -/
def report (a : Failure) (location : String) : String :=
  s!"[{a.kind.name}] {a.description} @ {location}" ++ detailBlock a.detail ++
    "\n  Backtrace:" ++ block noBacktrace

end Failure
end PullStream
