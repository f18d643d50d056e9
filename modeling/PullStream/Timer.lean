import PullStream.Machine
import PullStream.Text.Duration

/-!
Waits that a stop can cut short.

A wait starts at `now` and is due a while later. The stop is known by the instant
at which it comes, if it ever does. A wait that starts after the stop is over at
once, and one that the stop reaches before it is due ends at the stop. Being cut
short is reported, it is no failure.
-/

namespace PullStream.Timer

/-- How a wait ends. -/
inductive Outcome where
  /-- It lasted its full length. -/
  | elapsed
  /-- The stop came first. -/
  | cancelled
  deriving DecidableEq, Repr

/-- The end of a wait: how, and when. -/
structure End where
  outcome : Outcome
  time : Time
  deriving DecidableEq, Repr

/-- Waits from `now` for `length`, or until the stop. -/
def wait (now length : Time) (stop : Option Time) : End :=
  match stop with
  | none => ⟨.elapsed, now + length⟩
  | some c =>
    if c ≤ now then ⟨.cancelled, now⟩
    else if c < now + length then ⟨.cancelled, c⟩
    else ⟨.elapsed, now + length⟩

/-- A wait never ends before it starts, nor after it is due. -/
theorem wait_time (now length : Time) (stop : Option Time) :
    now ≤ (wait now length stop).time ∧ (wait now length stop).time ≤ now + length := by
  unfold wait
  split
  · exact ⟨Nat.le_add_right _ _, Nat.le_refl _⟩
  · split
    · exact ⟨Nat.le_refl _, Nat.le_add_right _ _⟩
    · rename_i h
      split
      · rename_i hc
        exact ⟨Nat.le_of_not_le h, Nat.le_of_lt hc⟩
      · exact ⟨Nat.le_add_right _ _, Nat.le_refl _⟩

/-- Drives something that takes `length` to its result, unless the stop comes
first, which abandons it. -/
def drive {α : Type} (now length : Time) (stop : Option Time) (result : α) :
    Option α × Time :=
  match wait now length stop with
  | ⟨.elapsed, t⟩ => (some result, t)
  | ⟨.cancelled, t⟩ => (none, t)

/-! ### Limits -/

/-- A limit on how long anything may take. -/
structure Limit where
  length : Time := 30000
  deriving DecidableEq, Repr

/-- What is said of something that the limit has ended. -/
def Limit.message (l : Limit) : String :=
  s!"Test wait timed out after {Text.Duration.render l.length}. " ++
    "The awaited signal was most likely never fired."

/-- The text of a limit in a log. -/
def Limit.render (l : Limit) : String :=
  s!"TimedWait \x7b timeout_duration: {Text.Duration.render l.length} \x7d"

/-- Lets something that takes `length` run under the limit: the message if it
takes longer, and when it is over. Just as long is not longer. -/
def Limit.wait (l : Limit) (now length : Time) : Option String × Time :=
  if length ≤ l.length then (none, now + length) else (some l.message, now + l.length)

end PullStream.Timer
