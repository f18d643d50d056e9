import PullStream.Polling
import PullStream.Scenario.Stopping

/-!
Scenarios with growing delays: waits one by one, a polling loop, and a generator
of rounds.

Every scenario starts at instant zero. Waits are counted without what a jitter
adds to them; of a wait that a jitter may have lengthened only the bounds are
noted.
-/

namespace PullStream.Scenario

open PullStream

/-- Whether a stop has come by an instant. -/
def hasCome (stop : Option Time) (now : Time) : Bool := stop.any (· ≤ now)

/-! ### Waits -/

namespace Delaying

/-- A command to a delay. -/
inductive Command where
  | advance
  | reset
  /-- Goes on with a copy. -/
  | copy
  /-- Waits, under a token that is made at the start of the wait. -/
  | wait (stop : Stop)
  deriving Repr

/-- How long a wait took. -/
inductive Waited where
  | exactly (length : Time)
  /-- A jitter may have lengthened it: whether it kept to its bounds. -/
  | bounded (within : Bool)
  deriving DecidableEq, Repr

/-- The delay after a command, and the wait if the command was one. -/
structure Note where
  delay : Nat
  wait : Option (Timer.Outcome × Waited) := none
  deriving DecidableEq, Repr

/-- Whether a wait of `length` is at least the delay, and no longer than the
jitter allows. -/
def withinBounds (b : Backoff) (length : Time) : Bool :=
  b.current ≤ length &&
    (Binary64.ofNat length).atMost
      (Binary64.ofNat b.current * (Binary64.ofNat 1 + b.settings.jitter))

/-- Executes a command at instant zero of its own clock. -/
def execute (b : Backoff) : Command → Note × Backoff
  | .advance => ({ delay := b.advance.current }, b.advance)
  | .reset => ({ delay := b.reset.current }, b.reset)
  | .copy => ({ delay := b.current }, b)
  | .wait stop =>
    let (e, next) := b.wait Backoff.leastDraw 0 (stop.time 0)
    let steady := b.settings.jitter.atMost (.zero false)
    let waited :=
      if steady ∨ e.outcome = .cancelled then Waited.exactly e.time
      else .bounded (withinBounds b e.time)
    ({ delay := next.current, wait := some (e.outcome, waited) }, next)

/-- Executes commands in order, with a note on each. -/
def runAll : List Command → Backoff → List Note
  | [], _ => []
  | c :: rest, b =>
    let (note, b) := execute b c
    note :: runAll rest b

/-- Executes commands on a fresh delay. -/
def run (settings : Settings.Backoff) (commands : List Command) :
    Except Failure (List Note) :=
  (Backoff.create settings).map (runAll commands)

end Delaying

/-! ### Loops -/

namespace Looping

/-- What becomes of a polling loop: the instants of its rounds, how and when it
ended, and whether the token it was given was set by then. -/
structure Report where
  polls : List Time
  ending : Polling.Ending
  time : Time
  stopped : Bool

/-- The round that a script is followed by: it stops the loop. -/
def lastRound : Polling.Round := { setsOwn := true, outcome := .ok .made }

/-- Runs a polling loop through a script of rounds. -/
def run (settings : Settings.Backoff) (stop : Stop) (script : List Polling.Round) : Report :=
  let given := stop.time 0
  match Backoff.create settings with
  | .error e => { polls := [], ending := .failed e, time := 0, stopped := hasCome given 0 }
  | .ok backoff =>
    let (polls, ending, last) := Polling.loop (script ++ [lastRound]) { backoff, given }
    { polls, ending, time := last.now, stopped := hasCome last.given last.now }

end Looping

/-! ### Generators -/

namespace Generating

/-- A command to the user of a generator. -/
inductive Command where
  | next
  /-- Says that a round was idle, by its number or the last one. -/
  | idle (round : Option Nat)
  | work (length : Time)
  /-- Sets the token. -/
  | set
  deriving Repr

/-- What a command answers. -/
inductive Reply where
  | round
  | ended
  | marked
  /-- There is no such round. -/
  | noRound
  | worked
  | set
  deriving DecidableEq, Repr

/-- A generator on the clock, the instant of its stop, and how many rounds it has
handed out. -/
structure State where
  generator : Polling.Generator
  now : Time := 0
  stop : Option Time
  rounds : Nat := 0

/-- Whether the stop has come. -/
def State.stopped (s : State) : Bool := hasCome s.stop s.now

/-- Asks the generator once, at the present instant. -/
def State.ask (s : State) : Polling.Answer × State :=
  let (answer, generator) := s.generator.next Backoff.leastDraw s.now s.stopped
  (answer, { s with generator })

/-- Moves the clock to the end of the wait that is under way. -/
def State.sleep (s : State) : State :=
  { s with now := ((s.generator.alarms ++ s.stop.toList).min?).getD s.now }

/-- Asks the generator, waiting if it has to. -/
def State.next (s : State) : Reply × State :=
  let (answer, s) :=
    match s.ask with
    | (.wait, s) => s.sleep.ask
    | r => r
  match answer with
  | .round => (.round, { s with rounds := s.rounds + 1 })
  | _ => (.ended, s)

/-- Says that a round was idle. Only the last round still counts. -/
def State.mark (s : State) (round : Option Nat) : Reply × State :=
  match s.rounds with
  | 0 => (.noRound, s)
  | last + 1 =>
    let k := round.getD last
    if last < k then (.noRound, s)
    else if k = last then (.marked, { s with generator := s.generator.idle })
    else (.marked, s)

/-- Executes a command. -/
def State.execute (s : State) : Command → Reply × State
  | .next => s.next
  | .idle round => s.mark round
  | .work length => (.worked, { s with now := s.now + length })
  | .set => (.set, { s with stop := Polling.earliest s.stop (some s.now) })

/-- Executes commands until the generator ends. -/
def runAll : List Command → State → List (Reply × Time)
  | [], _ => []
  | c :: rest, s =>
    let (reply, s) := s.execute c
    (reply, s.now) :: if reply = .ended then [] else runAll rest s

/-- Executes commands on a fresh generator. -/
def run (settings : Settings.Backoff) (stop : Stop) (commands : List Command) :
    Except Failure (List (Reply × Time)) :=
  (Polling.Generator.create settings).map fun generator =>
    runAll commands { generator, stop := stop.time 0 }

end Generating
end PullStream.Scenario
