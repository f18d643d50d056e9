import PullStream.Element
import PullStream.Machine

/-!
The log of a scenario: what happened when, and how often.

Every event has an instant, the label of the place it happened at, what happened,
an index and something to show. The log also keeps the counts that scripted
steps go by.
-/

namespace PullStream.Scenario

open PullStream

/-- What happened. -/
inductive What where
  /-- An element was taken from a source. -/
  | pull
  /-- A source reported its end for the first time. -/
  | exhausted
  /-- A step was called. -/
  | call
  /-- A step that takes a while has finished. -/
  | done
  /-- A judge was asked about a failed attempt. -/
  | ask
  /-- A wait between two pulls began. -/
  | wait
  deriving DecidableEq, Repr

/-- The name under which an event is reported. -/
def What.name : What → String
  | .pull => "pull"
  | .exhausted => "end"
  | .call => "call"
  | .done => "done"
  | .ask => "ask"
  | .wait => "wait"

/-- What an event shows: an element, or the failure that a judge was asked about
and the element that failed. -/
inductive Shown where
  | element (e : Element)
  | question (failure : Failure) (e : Element)
  deriving Repr

/-- Something that happened. -/
structure Event where
  time : Time
  label : String
  what : What
  index : Nat
  shown : Shown
  deriving Repr

/-- What scripted steps count. -/
inductive Tally where
  /-- Attempts on the element of this index. -/
  | attempts (index : Nat)
  /-- Failed attempts on the element of this index. -/
  | failures (index : Nat)
  /-- Questions to the judge. -/
  | questions
  /-- Waits between pulls. -/
  | waits
  deriving DecidableEq, Repr

/-- Events, newest first, and counts by label. -/
structure Log where
  events : List Event := []
  tallies : List ((String × Tally) × Nat) := []
  deriving Repr

namespace Log

/-- Adds an event. -/
def add (log : Log) (time : Time) (label : String) (what : What) (index : Nat)
    (shown : Shown) : Log :=
  { log with events := { time, label, what, index, shown } :: log.events }

/-- How often something has been counted. -/
def tally (log : Log) (label : String) (t : Tally) : Nat :=
  (log.tallies.lookup (label, t)).getD 0

/-- Counts something once more; answers how often it had been counted before. -/
def count (log : Log) (label : String) (t : Tally) : Nat × Log :=
  let n := log.tally label t
  (n, { log with
    tallies := ((label, t), n + 1) :: log.tallies.filter fun x => x.1 ≠ (label, t) })

/-- The events in the order in which they happened. -/
def inOrder (log : Log) : List Event :=
  log.events.reverse

/-- The order of events by instant, label, name and index. -/
def Event.notAfter (a b : Event) : Bool :=
  ((compare a.time b.time).then ((compare a.label b.label).then
    ((compare a.what.name b.what.name).then (compare a.index b.index)))) != .gt

/-- The events by instant, label, name and index. -/
def sorted (log : Log) : List Event :=
  log.inOrder.mergeSort Event.notAfter

/-- How many events of one sort there are. -/
def occurrences (log : Log) (what : What) : Nat :=
  log.events.countP (·.what = what)

end Log
end PullStream.Scenario
