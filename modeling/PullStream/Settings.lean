import PullStream.Number.Binary64
import PullStream.Machine

/-!
Settings: what the waiting and the parallel parts of a program are set to.

Every setting has a default. A setting may hold any value of its type; `validate`
says whether it is one that can be used, and names the first field that is not
together with the constraint it breaks.
-/

namespace PullStream.Settings

/-- How a delay grows from one wait to the next. -/
inductive Strategy where
  /-- By an amount. -/
  | linear
  /-- By a factor. -/
  | exponential
  deriving DecidableEq, Repr

namespace Strategy

/-- Every strategy. -/
def all : List Strategy := [.linear, .exponential]

/-- The name of a strategy. -/
def name : Strategy → String
  | .linear => "linear"
  | .exponential => "exponential"

/-- The strategy of a name. -/
def ofName? (text : String) : Option Strategy :=
  all.find? (·.name == text)

theorem ofName?_name (s : Strategy) : ofName? s.name = some s := by
  cases s <;> decide

end Strategy

/-- A field that cannot be used as it is, and the constraint it breaks. -/
structure Invalid where
  field : String
  constraint : String
  deriving DecidableEq, Repr

/-- The message about a field that cannot be used. -/
def Invalid.message (i : Invalid) : String :=
  s!"Invalid value for `{i.field}`: {i.constraint}"

/-- The constraint of a count that must not be zero. -/
def positive : String := "must be greater than 0"

/-- The growth of a delay: lengths in milliseconds, the amount or factor of a
step, and the fraction of a delay that may be added to it at random. -/
structure Backoff where
  strategy : Strategy := .exponential
  initial : Nat := 100
  increase : Binary64 := .ofNat 2
  maximum : Nat := 5000
  jitter : Binary64 := .zero false
  deriving DecidableEq, Repr

namespace Backoff

/-- Growth by a factor, without jitter. -/
def exponential (initial : Nat) (factor : Binary64) (maximum : Nat) : Backoff :=
  { strategy := .exponential, initial, increase := factor, maximum }

/-- Growth by a number of milliseconds, without jitter. -/
def linear (initial step maximum : Nat) : Backoff :=
  { strategy := .linear, initial, increase := .ofNat step, maximum }

/-- The same growth with another jitter. -/
def withJitter (b : Backoff) (jitter : Binary64) : Backoff :=
  { b with jitter }

/-- The constraint of a maximum. -/
def atLeastInitial : String := "must be greater than or equal to `initial_delay_ms`"

/-- Checks the bounds, the growth and the jitter, in this order. -/
def validate (b : Backoff) : Except Invalid Unit :=
  if b.initial = 0 then .error ⟨"backoff.initial_delay_ms", positive⟩
  else if b.maximum < b.initial then .error ⟨"backoff.maximum_delay_ms", atLeastInitial⟩
  else if !b.increase.isFinite || b.increase.atMost (.zero false) then
    .error ⟨"backoff.increase", "must be a finite number greater than 0"⟩
  else if b.strategy = .exponential ∧ b.increase.less (.ofNat 1) then
    .error ⟨"backoff.increase", "must be at least 1 for the exponential strategy"⟩
  else if !((Binary64.zero false).atMost b.jitter && b.jitter.atMost (.ofNat 1)) then
    .error ⟨"backoff.jitter", "must be between 0 and 1"⟩
  else .ok ()

end Backoff

/-- How many workers run at a time, and whether results keep the order of their
elements. -/
structure Parallel where
  concurrency : Nat := 8
  keepOrder : Bool := true
  deriving DecidableEq, Repr

/-- Checks that there is room for a worker. -/
def Parallel.validate (p : Parallel) : Except Invalid Unit :=
  if p.concurrency = 0 then .error ⟨"parallel.concurrency", positive⟩ else .ok ()

/-- How many elements are pulled ahead. -/
structure Buffer where
  size : Nat := 10
  deriving DecidableEq, Repr

/-- Checks that there is room for an element. -/
def Buffer.validate (b : Buffer) : Except Invalid Unit :=
  if b.size = 0 then .error ⟨"buffer.size", positive⟩ else .ok ()

/-- A length in milliseconds, in nanoseconds. -/
def nanoseconds (length : Time) : Nat := length * 1000000

end PullStream.Settings
