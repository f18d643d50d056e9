import PullStream.Machine

/-!
Feeds: a push side and one consumer that pulls.

Producers put items into a shared buffer until the feed is closed, by an end or
by a thrown failure. The consumer works on a batch of its own: when the batch has
run dry it takes the whole shared buffer for it. `pending` counts the items that
have been accepted and not handed out, wherever they are.

Two signals let producers pace themselves. `reads` counts the items handed out,
`empties` the times when that left nothing pending; both also count the drop of
the consumer. A waiter remembers the count it saw when it was made, and is woken
when the count has grown.
-/

namespace PullStream

/-- What producers put into a feed. -/
inductive Feed.Entry (α : Type) where
  | item (value : α)
  | failure (failure : Failure)
  deriving DecidableEq, Repr

/-- A feed and its consumer. -/
structure Feed (α : Type) where
  /-- Entries that the consumer has not taken yet. -/
  shared : List (Feed.Entry α) := []
  closed : Bool := false
  /-- Whether a consumer has ever been attached. -/
  attached : Bool := false
  /-- Items accepted and not handed out. -/
  pending : Nat := 0
  /-- Whether the consumer has been dropped. -/
  abandoned : Bool := false
  reads : Nat := 0
  empties : Nat := 0
  /-- The consumer's own batch. -/
  drained : List (Feed.Entry α) := []
  /-- Whether the consumer has reported the end or a failure. -/
  finished : Bool := false
  /-- Whether the consumer waits to be woken. -/
  parked : Bool := false
  deriving DecidableEq, Repr

namespace Feed

variable {α : Type}

/-! ### Producers -/

/-- Adds an item behind all others and wakes the consumer. -/
def feed (f : Feed α) (a : α) : Except Failure (Feed α) :=
  if f.closed then .error .feedClosed
  else .ok { f with shared := f.shared ++ [.item a], pending := f.pending + 1, parked := false }

/-- Closes the feed behind a failure and wakes the consumer. -/
def throw (f : Feed α) (e : Failure) : Except Failure (Feed α) :=
  if f.closed then .error .throwClosed
  else .ok { f with shared := f.shared ++ [.failure e], closed := true, parked := false }

/-- Closes the feed and wakes the consumer. A closed feed may be closed again. -/
def close (f : Feed α) : Feed α :=
  { f with closed := true, parked := false }

/-! ### The consumer -/

/-- Attaches the consumer; there is one at most, ever. -/
def consume (f : Feed α) : Except Failure (Feed α) :=
  if f.attached then .error .consumerAttached else .ok { f with attached := true }

/-- Takes the shared buffer when the own batch has run dry. -/
def refill (f : Feed α) : Feed α :=
  if f.drained.isEmpty then { f with drained := f.shared, shared := [] } else f

/-- Hands out the next entry of the consumer's batch. -/
def handOut (f : Feed α) : Answer α × Feed α :=
  match f.drained with
  | .item a :: rest =>
    let pending := f.pending - 1
    (.item a,
      { f with
        drained := rest, pending, reads := f.reads + 1
        empties := if pending = 0 then f.empties + 1 else f.empties })
  | .failure e :: _ => (.fail e, { f with drained := [], finished := true })
  | [] =>
    if f.closed then (.done, { f with finished := true })
    else (.wait, { f with parked := true })

/-- Asks the consumer for an item. -/
def poll (f : Feed α) : Answer α × Feed α :=
  if f.finished then (.done, f) else f.refill.handOut

/-- Drops the consumer with its batch; both signals go off. -/
def drop (f : Feed α) : Feed α :=
  { f with
    drained := [], finished := true, abandoned := true
    reads := f.reads + 1, empties := f.empties + 1 }

/-! ### Signals -/

/-- Which signal a waiter waits for. -/
inductive Event where
  | read
  | empty
  deriving DecidableEq, Repr

/-- A waiter: the signal and the count it saw when it was made. -/
structure Waiter where
  event : Event
  seen : Nat
  deriving DecidableEq, Repr

/-- How often a signal has gone off. -/
def count (f : Feed α) : Event → Nat
  | .read => f.reads
  | .empty => f.empties

/-- A waiter for the next time that the signal goes off. -/
def waiter (f : Feed α) (event : Event) : Waiter :=
  { event, seen := f.count event }

/-- Whether the signal has gone off since the waiter was made. -/
def Waiter.resolved (t : Waiter) (f : Feed α) : Bool :=
  t.seen < f.count t.event

/-- The text of a feed in a log. -/
def render (f : Feed α) : String :=
  s!"FeedableSequence \x7b closed: {f.closed}, pending: {f.pending}, abandoned: {f.abandoned} \x7d"

end Feed
end PullStream
