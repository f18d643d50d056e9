import PullStream.Clockwork
import PullStream.Element

/-!
Scenarios on one feed: commands given one by one, and events at their instants.

In the first kind producers, the consumer and waiters for the two signals are all
driven by commands; after each the state of the feed and of every waiter is
noted. In the second kind producers act at given instants while the consumer
pulls to the end and rests after every item.
-/

namespace PullStream.Scenario

open PullStream

/-- What a producer does to a feed. -/
inductive Production where
  | feed (e : Element)
  | throw (failure : Failure)
  | close
  deriving Repr

/-- Lets a producer act; a refusal leaves the feed as it was. -/
def Production.apply (p : Production) (f : Feed Element) : Except Failure (Feed Element) :=
  match p with
  | .feed e => f.feed e
  | .throw failure => f.throw failure
  | .close => .ok f.close

/-- What an answer of a feed's consumer says, `none` if it has nothing yet. -/
def arrivalOf : Answer Element → Option (Arrival Element)
  | .item e => some (.item e)
  | .fail e => some (.failure e)
  | .done => some .ended
  | _ => none

/-! ### Commands -/

namespace Feeding

/-- A command to a feed. -/
inductive Command where
  | produce (p : Production)
  | consume
  | next
  | drop
  | watch (event : Feed.Event)
  | inspect
  deriving Repr

/-- What a command answers. -/
inductive Reply where
  | done
  | refused (failure : Failure)
  | arrival (a : Arrival Element)
  | pending
  | noConsumer
  | dropped (something : Bool)
  | text (s : String)

/-- A feed with its waiters, and whether its consumer is there. -/
structure State where
  feed : Feed Element := {}
  consumer : Bool := false
  waiters : List Feed.Waiter := []

/-- The answer to a command and the state after it. -/
structure Note where
  reply : Reply
  closed : Bool
  size : Nat
  abandoned : Bool
  /-- Which waiters have been woken, in order of creation. -/
  signals : List Bool

/-- Takes over a changed feed, or reports the refusal. -/
def State.update (s : State) (change : State → State) :
    Except Failure (Feed Element) → Reply × State
  | .ok feed => (.done, change { s with feed })
  | .error e => (.refused e, s)

/-- Executes a command. -/
def State.execute (s : State) : Command → Reply × State
  | .produce p => s.update id (p.apply s.feed)
  | .consume => s.update (fun s => { s with consumer := true }) s.feed.consume
  | .next =>
    if s.consumer then
      let (answer, feed) := s.feed.poll
      (((arrivalOf answer).map .arrival).getD .pending, { s with feed })
    else (.noConsumer, s)
  | .drop =>
    if s.consumer then (.dropped true, { s with feed := s.feed.drop, consumer := false })
    else (.dropped false, s)
  | .watch event => (.done, { s with waiters := s.waiters ++ [s.feed.waiter event] })
  | .inspect => (.text s.feed.render, s)

/-- The note on a command. -/
def State.note (s : State) (reply : Reply) : Note :=
  { reply, closed := s.feed.closed, size := s.feed.pending, abandoned := s.feed.abandoned
    signals := s.waiters.map (·.resolved s.feed) }

/-- Executes commands in order, with a note on each. -/
def runAll : List Command → State → List Note
  | [], _ => []
  | c :: rest, s =>
    let (reply, s) := s.execute c
    s.note reply :: runAll rest s

/-- Executes commands on a fresh feed. -/
def run (commands : List Command) : List Note := runAll commands {}

end Feeding

/-! ### Events at their instants -/

namespace TimedFeeding

/-- A feed, the events to come and the refusals so far, latest first. -/
structure State where
  feed : Feed Element := {}
  coming : List (Time × Production)
  refusals : List (Time × Failure) := []

/-- Lets the first event happen that is due. -/
def State.happen (now : Time) (s : State) : Bool × State :=
  match s.coming.find? (·.1 ≤ now) with
  | none => (false, s)
  | some event =>
    let s := { s with coming := s.coming.eraseP (·.1 ≤ now) }
    match event.2.apply s.feed with
    | .ok feed => (true, { s with feed })
    | .error e => (true, { s with refusals := (now, e) :: s.refusals })

/-- The consumer's side of a feed, with the events as background work. -/
def hub (events : List (Time × Production)) : Hub Unit Element where
  State := State
  start := { coming := events.mergeSort fun a b => a.1 ≤ b.1 }
  outputs := 1
  poll _ s _ w :=
    let (answer, feed) := s.feed.poll
    (answer, { s with feed }, w)
  tick s now w :=
    let (moved, s) := s.happen now
    (moved, s, w)
  alarms s := s.coming.map (·.1)
  drop _ s := { s with feed := s.feed.drop }

/-- What the consumer has got so far, latest first, and where it stands. -/
structure Collected where
  got : List (Time × Arrival Element) := []
  resting : Option Time := none
  ended : Option Time := none

/-- Pulls to the end and rests after each item and each failure. -/
def collector (pause : Time) :
    Consumer Unit Element (List (Time × Arrival Element) × Time) where
  Memory := Collected
  start := {}
  want m :=
    match m.ended, m.resting with
    | some t, _ => .finish (m.got.reverse, t)
    | none, some due => .rest due
    | none, none => .pull
  receive m arrival now w :=
    match arrival with
    | .ended => ({ m with ended := some now }, w)
    | a => ({ m with got := (now, a) :: m.got, resting := some (now + pause) }, w)
  wake m _ w := ({ m with resting := none }, w)

/-- How long producers may go on once the consumer has ended. -/
def grace : Time := 100000

/-- What the consumer got and when, when it ended, which events were refused, and
what was left in the feed. -/
structure Report where
  got : List (Time × Arrival Element)
  time : Time
  refusals : List (Time × Failure)
  size : Nat

/-- Runs the consumer against the events; `none` if it never ends. -/
def run (events : List (Time × Production)) (pause : Time) : Option Report :=
  match (Setting.initially (hub events) 0 ()).consume (collector pause) 0 with
  | (.finished ((got, time) :: _), s) =>
    let s := s.rest grace
    some { got, time, refusals := s.state.refusals.reverse, size := s.state.feed.pending }
  | _ => none

end TimedFeeding
end PullStream.Scenario
