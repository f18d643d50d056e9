import PullStream.Cancellation
import PullStream.Element
import PullStream.Failure
import PullStream.Timer

/-!
Scenarios with cancellation tokens and timers.

Commands create, clone, set and drop handles of tokens, each known by its number
in order of creation, and waiters that hold a token until they are woken. After
each command the state of every handle and waiter is noted. A command to a handle
that is not there does nothing.
-/

namespace PullStream.Scenario

open PullStream

namespace Stopping

/-- A command to tokens; the number is that of a handle, or of a waiter. -/
inductive Command where
  | create
  | clone (handle : Nat)
  | child (handle : Nat) (mode : ChildMode)
  | set (handle : Nat)
  | drop (handle : Nat)
  | wait (handle : Nat)
  | dropWait (waiter : Nat)
  deriving Repr

/-- Where a waiter stands. -/
inductive Waiting where
  | holding (token : Nat)
  | woken
  | dropped
  deriving DecidableEq, Repr

/-- Tokens, the handles with the token each stands for, and the waiters. -/
structure State where
  tokens : Tokens := {}
  handles : List (Option Nat) := []
  waiters : List Waiting := []

/-- Which handles are set, `none` for a dropped one, and which waiters are woken. -/
structure Note where
  set : List (Option Bool)
  resolved : List Bool
  deriving DecidableEq, Repr

/-- Adds a handle to a new token. -/
def State.adopt (s : State) (made : Nat × Tokens) : State :=
  { s with tokens := made.2, handles := s.handles ++ [some made.1] }

/-- Does something to the token of a handle that is there. -/
def State.withHandle (s : State) (k : Nat) (f : Nat → State) : State :=
  match s.handles[k]? with
  | some (some token) => f token
  | _ => s

/-- Executes a command. -/
def State.execute (s : State) : Command → State
  | .create => s.adopt s.tokens.create
  | .clone k => s.withHandle k fun t => s.adopt (t, s.tokens.hold t)
  | .child k mode => s.withHandle k fun t => s.adopt (s.tokens.createChild t mode)
  | .set k => s.withHandle k fun t => { s with tokens := s.tokens.set t }
  | .drop k =>
    s.withHandle k fun t =>
      { s with tokens := s.tokens.release t, handles := s.handles.set k none }
  | .wait k =>
    s.withHandle k fun t =>
      { s with tokens := s.tokens.hold t, waiters := s.waiters ++ [.holding t] }
  | .dropWait k =>
    match s.waiters[k]? with
    | some (.holding t) =>
      { s with tokens := s.tokens.release t, waiters := s.waiters.set k .dropped }
    | _ => s

/-- Wakes the waiters whose tokens are set; a woken waiter lets go of its token. -/
def wake : List Waiting → Tokens → List Waiting × Tokens
  | [], tokens => ([], tokens)
  | .holding t :: rest, tokens =>
    if tokens.isSet t then
      let (rest, tokens) := wake rest (tokens.release t)
      (.woken :: rest, tokens)
    else
      let (rest, tokens) := wake rest tokens
      (.holding t :: rest, tokens)
  | w :: rest, tokens =>
    let (rest, tokens) := wake rest tokens
    (w :: rest, tokens)

/-- Wakes the waiters that can be woken. -/
def State.settle (s : State) : State :=
  let (waiters, tokens) := wake s.waiters s.tokens
  { s with waiters, tokens }

/-- The state of every handle and waiter. -/
def State.note (s : State) : Note :=
  { set := s.handles.map (·.map s.tokens.isSet)
    resolved := s.waiters.map (· == .woken) }

/-- Executes commands in order, with a note after each. -/
def runAll : List Command → State → List Note
  | [], _ => []
  | c :: rest, s =>
    let s := (s.execute c).settle
    s.note :: runAll rest s

/-- Executes commands from nothing. -/
def run (commands : List Command) : List Note := runAll commands {}

end Stopping

/-! ### Timers -/

/-- When a scenario sets a token, counted from the token's making: never, at
once, or some time later. -/
structure Stop where
  after : Option Time := none
  deriving DecidableEq, Repr

/-- The instant at which a token that is made at `now` is set. -/
def Stop.time (s : Stop) (now : Time) : Option Time := s.after.map (now + ·)

namespace Timing

/-- What a timer answers. -/
inductive Reply where
  | outcome (o : Timer.Outcome)
  /-- What something driven under a token has come to, `none` if it was
  abandoned. -/
  | driven (result : Option (Except Failure Element))

/-- A plain wait, or something with a result driven under a token. -/
inductive Task where
  | wait
  | drive (result : Except Failure Element)

/-- Runs a timer from the start of the clock; says when it ended. -/
def run (task : Task) (length : Time) (stop : Stop) : Reply × Time :=
  match task with
  | .wait =>
    let e := Timer.wait 0 length (stop.time 0)
    (.outcome e.outcome, e.time)
  | .drive result =>
    let (result, time) := Timer.drive 0 length (stop.time 0) result
    (.driven result, time)

end Timing

/-- The text of the waits between pulls in a log: of a fixed length, or computed
by a function. -/
def waitsText : Option Time → String
  | some length => s!"Delay({Text.Duration.render length})"
  | none => "Function(..)"

end PullStream.Scenario
