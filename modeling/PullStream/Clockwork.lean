import PullStream.Consumer
import PullStream.Fanout
import PullStream.Number.Powers

/-!
Clockwork: consumers, background work and one clock.

Everything runs in one thread, in turns. A consumer runs until it has nothing to
do, then background work runs until none of it can move, and so on until nobody
can move; only then does the clock advance, to the next instant at which somebody
can. Computing takes no time.

A run is bounded by fuel, one unit for each turn; running out is an ending of its
own. `patience` is the fuel of a run that is meant to end by itself.
-/

namespace PullStream

/-- A hub at some instant, in some world. -/
structure Setting (ω α : Type) (hub : Hub ω α) where
  now : Time
  world : ω
  state : hub.State

/-- How a run ends. -/
inductive Ending (ρ : Type) where
  /-- With the results of the consumers. -/
  | finished (results : List ρ)
  /-- The deadline came first. -/
  | timedOut
  /-- Nobody can ever move again. -/
  | stuck
  /-- A machine broke down. -/
  | crashed (message : String)
  | outOfFuel
  deriving DecidableEq, Repr

namespace Setting

variable {ω α ρ : Type} {hub : Hub ω α}

/-- Fuel for a run that is meant to end by itself. -/
def patience : Nat := twoTo 60

/-- The hub at its start. -/
def initially (hub : Hub ω α) (now : Time) (world : ω) : Setting ω α hub :=
  { now, world, state := hub.start }

/-- Runs background work until it is at rest; says whether there was a step.
`moved` is whether there has been one in the round that is going on, `stirred`
whether there has been one at all. -/
def settleFrom : Nat → Bool → Bool → Setting ω α hub → Bool × Setting ω α hub
  | 0, _, stirred, s => (stirred, s)
  | fuel + 1, moved, stirred, s =>
    match hub.tick s.state s.now s.world with
    | (true, state, world) => settleFrom fuel true true { s with state, world }
    | (false, state, world) =>
      if moved then settleFrom fuel false stirred { s with state, world }
      else (stirred, { s with state, world })

/-- Runs background work until it is at rest; says whether there was a step. -/
def settle (s : Setting ω α hub) : Bool × Setting ω α hub :=
  settleFrom patience false false s

/-- The instants after now at which background work or a waiting stage goes on. -/
def alarms (s : Setting ω α hub) : List Time :=
  (hub.alarms s.state).filter (s.now < ·)

/-! ### Consumers -/

/-- A consumer at an output. -/
structure Reader (c : Consumer ω α ρ) where
  output : Nat
  memory : c.Memory

/-- What one turn of a reader comes to. -/
inductive Turn (ω α : Type) {ρ : Type} (hub : Hub ω α) (c : Consumer ω α ρ) where
  /-- It can go on at once. -/
  | moved (reader : Reader c) (setting : Setting ω α hub)
  /-- It has moved and lets others go first. -/
  | paused (reader : Reader c) (setting : Setting ω α hub)
  /-- It has its result or waits. -/
  | still (reader : Reader c) (setting : Setting ω α hub)
  | crashed (message : String) (setting : Setting ω α hub)

/-- Hands an arrival to a reader. -/
def Reader.receive {c : Consumer ω α ρ} (r : Reader c) (arrival : Arrival α)
    (s : Setting ω α hub) : Turn ω α hub c :=
  let (memory, world) := c.receive r.memory arrival s.now s.world
  .moved { r with memory } { s with world }

/-- One turn of a reader. -/
def Reader.turn {c : Consumer ω α ρ} (r : Reader c) (s : Setting ω α hub) :
    Turn ω α hub c :=
  match c.want r.memory with
  | .finish _ => .still r s
  | .rest due =>
    if s.now < due then .still r s
    else
      let (memory, world) := c.wake r.memory s.now s.world
      .moved { r with memory } { s with world }
  | .pull =>
    let (answer, state, world) := hub.poll r.output s.state s.now s.world
    let s := { s with state, world }
    match answer with
    | .item a => r.receive (.item a) s
    | .fail e => r.receive (.failure e) s
    | .done => r.receive .ended s
    | .skip => .moved r s
    | .pause => .paused r s
    | .wait => .still r s
    | .crash message => .crashed message s

/-- Lets a reader take turns until it stands still; says whether it moved, and
`moved` whether it has already. -/
def Reader.go {c : Consumer ω α ρ} :
    Nat → Bool → Reader c → Setting ω α hub →
      Except String (Bool × Reader c) × Setting ω α hub
  | 0, moved, r, s => (.ok (moved, r), s)
  | fuel + 1, moved, r, s =>
    match r.turn s with
    | .moved r s => Reader.go fuel true r s
    | .paused r s => (.ok (true, r), s)
    | .still r s => (.ok (moved, r), s)
    | .crashed message s => (.error message, s)

/-- Lets every reader go once, in order. -/
def goAll {c : Consumer ω α ρ} (fuel : Nat) :
    List (Reader c) → Setting ω α hub →
      Except String (Bool × List (Reader c)) × Setting ω α hub
  | [], s => (.ok (false, []), s)
  | r :: rest, s =>
    match r.go fuel false s with
    | (.error message, s) => (.error message, s)
    | (.ok (moved, r), s) =>
      let (result, s) := goAll fuel rest s
      (result.map fun x => (moved || x.1, r :: x.2), s)

/-- The result of a reader that has one. -/
def Reader.result? {c : Consumer ω α ρ} (r : Reader c) : Option ρ :=
  match c.want r.memory with
  | .finish result => some result
  | _ => none

/-- The instant after now at which a resting reader goes on. -/
def Reader.alarm? {c : Consumer ω α ρ} (now : Time) (r : Reader c) : Option Time :=
  match c.want r.memory with
  | .rest due => if now < due then some due else none
  | _ => none

/-- Runs readers until each has its result, or until `deadline`. A result that
comes at the deadline counts. -/
def run {c : Consumer ω α ρ} (deadline : Option Time) :
    Nat → List (Reader c) → Setting ω α hub → Ending ρ × Setting ω α hub
  | 0, _, s => (.outOfFuel, s)
  | fuel + 1, readers, s =>
    match goAll patience readers s with
    | (.error message, s) => (.crashed message, s)
    | (.ok (moved, readers), s) =>
      match readers.mapM Reader.result? with
      | some results => (.finished results, s)
      | none =>
        let (stirred, s) := s.settle
        if moved || stirred then run deadline fuel readers s
        else if deadline.any (· ≤ s.now) then (.timedOut, s)
        else
          match (s.alarms ++ readers.filterMap (Reader.alarm? s.now) ++ deadline.toList).min? with
          | none => (.stuck, s)
          | some t => run deadline fuel readers { s with now := t }

/-- Runs one consumer at an output to its result. -/
def consume (c : Consumer ω α ρ) (output : Nat) (s : Setting ω α hub) :
    Ending ρ × Setting ω α hub :=
  run none patience [{ output, memory := c.start : Reader c }] s

/-- The consumer of a single pull. -/
def onePull : Consumer ω α (Arrival α) where
  Memory := Option (Arrival α)
  start := none
  want
    | none => .pull
    | some a => .finish a
  receive _ arrival _ w := (some arrival, w)

/-- Pulls once at an output, for `wait` milliseconds at most. -/
def pull (output : Nat) (wait : Time) (s : Setting ω α hub) :
    Ending (Arrival α) × Setting ω α hub :=
  let c : Consumer ω α (Arrival α) := onePull
  run (some (s.now + wait)) patience [{ output, memory := c.start : Reader c }] s

/-! ### Resting -/

/-- Lets background work go on until `due`. -/
def restUntil (due : Time) : Nat → Setting ω α hub → Setting ω α hub
  | 0, s => s
  | fuel + 1, s =>
    let s := s.settle.2
    if due ≤ s.now then s
    else restUntil due fuel { s with now := (s.alarms ++ [due]).min?.getD due }

/-- Lets `length` milliseconds pass; none at all if it is zero. -/
def rest (length : Time) (s : Setting ω α hub) : Setting ω α hub :=
  if length = 0 then s else restUntil (s.now + length) patience s

/-- Drops an output. -/
def drop (output : Nat) (s : Setting ω α hub) : Setting ω α hub :=
  { s with state := hub.drop output s.state }

end Setting
end PullStream
