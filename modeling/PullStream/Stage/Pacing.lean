import PullStream.Stage.Retrying

/-!
Stages that change when elements come and nothing else.

Throttling waits before each of its pulls but the first. The two giving-way
stages let other work go first: after every so many elements, or when enough
time has passed since they last did. All three drop their input at its end and
must not be polled after it.
-/

namespace PullStream

/-- The wait before a pull: how long it takes, after what it does to the world
when it begins. -/
abbrev Pause (ω : Type) := Time → ω → Time × ω

namespace Transducer

variable {ω α : Type}

/-- Where a throttled sequence stands. -/
inductive Throttling where
  /-- The next pull is the first and waits for nothing. -/
  | first
  /-- A wait comes before the next pull. -/
  | between
  /-- A wait is under way. -/
  | waiting (due : Time)
  /-- The wait is over: the input is asked. -/
  | asking
  /-- The input has ended. -/
  | spent
  deriving DecidableEq, Repr

/-- The same elements, with a wait before each pull but the first. -/
def throttle (pause : Pause ω) : Transducer ω α α where
  Memory := Throttling
  start := .first
  before m now w :=
    match m with
    | .first => none
    | .between =>
      let (delay, w) := pause now w
      some (.skip, .waiting (now + delay), w)
    | .waiting due => if now < due then some (.wait, m, w) else some (.skip, .asking, w)
    | .asking => none
    | .spent => some (.spent, m, w)
  item _ a _ w := (.item a, .between, w)
  fail _ e _ w := (.fail e, .between, w)
  done _ _ w := (.done, .spent, w)
  holds m := m != .spent
  alarms m := match m with | .waiting due => [due] | _ => []

/-- Where a sequence that gives way after every so many elements stands. -/
structure Counting where
  yielded : Nat := 0
  gaveWay : Bool := false
  spent : Bool := false
  deriving DecidableEq, Repr

/-- The same elements; after each `count` of them other work goes first. -/
def interruptEvery (count : Nat) : Transducer ω α α where
  Memory := Counting
  start := {}
  before m _ w :=
    if m.spent then some (.spent, m, w)
    else if 0 < m.yielded ∧ m.yielded % count = 0 ∧ m.gaveWay = false then
      some (.pause, { m with gaveWay := true }, w)
    else none
  item m a _ w := (.item a, { m with yielded := m.yielded + 1, gaveWay := false }, w)
  fail m e _ w := (.fail e, { m with yielded := m.yielded + 1, gaveWay := false }, w)
  done m _ w := (.done, { m with spent := true }, w)
  holds m := !m.spent

/-- Where a sequence that gives way so many times a second stands: when it last
did, and whether the clock has been looked at for this pull. -/
structure Rating where
  last : Time
  looked : Bool := false
  spent : Bool := false
  deriving DecidableEq, Repr

/-- Nanoseconds in a millisecond. -/
def nanosPerMilli : Nat := 1000000

/-- Nanoseconds in a second. -/
def nanosPerSecond : Nat := 1000000000

/-- The same elements; before a pull that comes a `times`-th of a second or more
after the last time, other work goes first. The clock is looked at once for each
pull, before the input is asked. `created` is when the stage was made. -/
def interruptPerSecond (times : Nat) (created : Time) : Transducer ω α α where
  Memory := Rating
  start := { last := created }
  before m now w :=
    if m.spent then some (.spent, m, w)
    else if m.looked then none
    else if nanosPerSecond / times ≤ (now - m.last) * nanosPerMilli then
      some (.pause, { m with last := now, looked := true }, w)
    else some (.skip, { m with looked := true }, w)
  item m a _ w := (.item a, { m with looked := false }, w)
  fail m e _ w := (.fail e, { m with looked := false }, w)
  done m _ w := (.done, { m with spent := true }, w)
  holds m := !m.spent

end Transducer
end PullStream
