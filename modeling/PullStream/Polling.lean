import PullStream.Backoff

/-!
Polling with a growing delay between idle rounds.

A loop runs round after round until its stop. A round that made progress brings
the delay back and is followed by the next at once; an idle round is followed by
a wait. A round that fails ends the loop. The loop has a stop of its own beside
the one it was given: a round can set either, and a round under way is always
finished. A generator hands the rounds out instead: its user works, and says of a
round that it was idle before asking for the next.
-/

namespace PullStream

/-- What a round of polling has achieved. -/
inductive Progress where
  /-- Work was done. -/
  | made
  /-- There was nothing to do. -/
  | idle
  deriving DecidableEq, Repr

namespace Polling

/-! ### Loops -/

/-- A round: how long it works, which stops it sets at its end, what it has
achieved, and the draw for the wait behind it. -/
structure Round where
  work : Time := 0
  setsGiven : Bool := false
  setsOwn : Bool := false
  outcome : Except Failure Progress
  draw : Binary64 := Backoff.leastDraw

/-- A loop between two rounds: the delay, the instant, and the instants of the
two stops, as far as they are known. -/
structure State where
  backoff : Backoff
  now : Time := 0
  given : Option Time
  own : Option Time := none
  deriving DecidableEq, Repr

/-- The earlier of two instants, if there are any. -/
def earliest : Option Time → Option Time → Option Time
  | some s, some t => some (min s t)
  | some s, none => some s
  | none, t => t

/-- The instant at which the loop is stopped. -/
def State.stop (s : State) : Option Time := earliest s.given s.own

/-- Whether the loop is stopped now. -/
def State.stopped (s : State) : Bool := s.stop.any (· ≤ s.now)

/-- How a loop ends. -/
inductive Ending where
  /-- By its stop. -/
  | stopped
  /-- By the failure of a round. -/
  | failed (failure : Failure)
  /-- Not yet: the rounds have run out. -/
  | unfinished
  deriving DecidableEq, Repr

/-- The work of a round, and the stops that it sets. -/
def State.after (s : State) (r : Round) : State :=
  let now := s.now + r.work
  { s with
    now
    given := if r.setsGiven then earliest s.given (some now) else s.given
    own := if r.setsOwn then earliest s.own (some now) else s.own }

/-- What follows a round that achieved something. -/
def State.proceed (s : State) (p : Progress) (draw : Binary64) : State :=
  match p with
  | .made => { s with backoff := s.backoff.reset }
  | .idle =>
    let (e, backoff) := s.backoff.wait draw s.now s.stop
    { s with backoff, now := e.time }

/-- Runs rounds until the loop ends: the instants at which they started, how the
loop ended, and its last state. -/
def loop : List Round → State → List Time × Ending × State
  | rounds, s =>
    if s.stopped then ([], .stopped, s)
    else
      match rounds with
      | [] => ([], .unfinished, s)
      | r :: rest =>
        let ended := s.after r
        match r.outcome with
        | .error e => ([s.now], .failed e, ended)
        | .ok p =>
          let (polls, ending, last) := loop rest (ended.proceed p r.draw)
          (s.now :: polls, ending, last)

/-! ### Generators -/

/-- Where a generator stands. -/
inductive Phase where
  /-- No round has been handed out. -/
  | fresh
  /-- The last round is with the user, who may have said that it was idle. -/
  | out (idle : Bool)
  /-- The wait behind an idle round. -/
  | waiting (due : Time)
  /-- The stop has been noticed. -/
  | spent
  deriving DecidableEq, Repr

/-- A generator of rounds. -/
structure Generator where
  backoff : Backoff
  phase : Phase := .fresh
  deriving DecidableEq, Repr

/-- What a generator answers. -/
inductive Answer where
  /-- A round to work on. -/
  | round
  /-- The stop. -/
  | stop
  /-- A wait is under way. -/
  | wait
  /-- It was asked again after the stop. -/
  | misused
  deriving DecidableEq, Repr

namespace Generator

/-- A generator, if the settings can be used. -/
def create (settings : Settings.Backoff) : Except Failure Generator :=
  (Backoff.create settings).map fun backoff => { backoff }

/-- Hands out a round unless stopped. -/
def handOut (g : Generator) (stopped : Bool) : Answer × Generator :=
  if stopped then (.stop, { g with phase := .spent })
  else (.round, { g with phase := .out false })

/-- Goes on with a wait, which ends when it is due or by the stop. -/
def keepWaiting (g : Generator) (due now : Time) (stopped : Bool) : Answer × Generator :=
  if stopped ∨ due ≤ now then { g with backoff := g.backoff.advance }.handOut stopped
  else (.wait, { g with phase := .waiting due })

/-- Asks for a round at `now`; the last one is settled first. `draw` is the draw
for the wait that this may begin. -/
def next (g : Generator) (draw : Binary64) (now : Time) (stopped : Bool) :
    Answer × Generator :=
  match g.phase with
  | .fresh => g.handOut stopped
  | .out false => { g with backoff := g.backoff.reset }.handOut stopped
  | .out true => g.keepWaiting (now + g.backoff.length draw) now stopped
  | .waiting due => g.keepWaiting due now stopped
  | .spent => (.misused, g)

/-- Says that the last round was idle. -/
def idle (g : Generator) : Generator :=
  match g.phase with
  | .out _ => { g with phase := .out true }
  | _ => g

/-- The instant at which a wait goes on. -/
def alarms (g : Generator) : List Time :=
  match g.phase with
  | .waiting due => [due]
  | _ => []

end Generator
end Polling
end PullStream
