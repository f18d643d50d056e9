import PullStream.Feed
import PullStream.Parallel.Reorder

/-!
The dispatcher: elements to workers, results to a feed.

A dispatcher hands elements of its source to workers and their results to a
feed, in the order in which the workers finish or in the order of the elements.
At most `concurrency` elements are in flight, be they with a worker or parked
for their turn, and no element is taken while `concurrency` results wait in the
feed. The first failure that reaches the feed closes it; a panic of a worker is a
failure of its element, a failure of the source takes the place of the element
after the last. Workers that are running then are detached, never stopped.

The dispatcher is a small machine of its own. `survey` is the head of its loop:
it stops, or settles what may happen next and starts to select. While it selects,
exactly one of four things ends the round: a worker is joined, the source
answers, or an item is read from the feed. What the workers and the source do in
the meantime is not its business, so every order of completion, every pace of the
consumer and every source is a list of calls of these functions. Workers are of
any type `τ`.
-/

namespace PullStream

/-- What a panic carries: a text, or something without one. -/
inductive Payload where
  | text (message : String)
  | other
  deriving DecidableEq, Repr

/-- The text of a panic. -/
def Payload.message : Payload → String
  | .text message => message
  | .other => "unknown panic payload"

/-- How a worker ends. -/
inductive Outcome (β : Type) where
  /-- With a result to deliver. -/
  | value (b : β)
  /-- With nothing to deliver. -/
  | nothing
  | failed (failure : Failure)
  | panicked (payload : Payload)
  deriving DecidableEq, Repr

/-- The result of the worker of element `index`. -/
def Outcome.result {β : Type} (index : Nat) : Outcome β → Except Failure (Option β)
  | .value b => .ok (some b)
  | .nothing => .ok none
  | .failed e => .error e
  | .panicked payload => .error (.workerPanicked index payload.message)

/-- What becomes of the attempt to start a worker. -/
inductive Launch (τ : Type) where
  | started (worker : τ)
  | panicked (payload : Payload)
  deriving DecidableEq, Repr

/-- Where a dispatcher stands. -/
inductive Dispatcher.Phase where
  /-- Nothing has been asked of it. -/
  | idle
  /-- At the head of its loop. -/
  | surveying
  /-- Selecting, with leave to take an element or without; the waiter was made
  at the head of the loop. -/
  | selecting (mayPull : Bool) (read : Feed.Waiter)
  | stopped
  deriving DecidableEq, Repr

/-- A dispatcher with workers of type `τ` and results of type `β`. -/
structure Dispatcher (τ β : Type) where
  concurrency : Nat
  keepOrder : Bool
  phase : Dispatcher.Phase := .idle
  /-- The workers that have not been joined, by element. -/
  workers : List (Nat × τ) := []
  /-- Workers that nobody will join. -/
  detached : List (Nat × τ) := []
  reorder : Reorder (Except Failure (Option β)) := {}
  /-- How many elements have been taken. -/
  dispatched : Nat := 0
  exhausted : Bool := false
  feed : Feed β := {}

namespace Dispatcher

variable {τ β : Type}

/-! ### The head of the loop -/

/-- Elements with a worker or parked. -/
def inFlight (d : Dispatcher τ β) : Nat :=
  d.workers.length + d.reorder.size

/-- Whether an element may be taken. -/
def mayPull (d : Dispatcher τ β) : Bool :=
  !d.exhausted && decide (d.feed.pending < d.concurrency) && decide (d.inFlight < d.concurrency)

/-- Leaves the loop; the workers run on by themselves. -/
def stop (d : Dispatcher τ β) : Dispatcher τ β :=
  { d with phase := .stopped, detached := d.detached ++ d.workers, workers := [] }

/-- The head of the loop: stop if nobody consumes, end if all is done, else
select. -/
def survey (d : Dispatcher τ β) : Dispatcher τ β :=
  if d.feed.abandoned then d.stop
  else if d.exhausted && d.workers.isEmpty then { d.stop with feed := d.feed.close }
  else { d with phase := .selecting d.mayPull (d.feed.waiter .read) }

/-! ### Delivery -/

/-- Puts a result into the feed; `false` when the feed takes no more. -/
def deliver (f : Feed β) : Except Failure (Option β) → Feed β × Bool
  | .ok (some b) =>
    match f.feed b with
    | .ok f => (f, true)
    | .error _ => (f, false)
  | .ok none => (f, true)
  | .error e =>
    match f.throw e with
    | .ok f => (f, false)
    | .error _ => (f, false)

/-- Delivers what is ready in a reorder buffer, lowest index first, until
nothing is ready or the feed takes no more. -/
def release (b : Reorder (Except Failure (Option β))) (f : Feed β) :
    Reorder (Except Failure (Option β)) × Feed β × Bool :=
  match h : b.popReady with
  | none => (b, f, true)
  | some (r, b') =>
    match deliver f r with
    | (f, false) => (b', f, false)
    | (f, true) =>
      have := Reorder.size_lt_of_popReady h
      release b' f
termination_by b.size

/-- Ends a round: on to the head of the loop, or out of it. -/
def next (d : Dispatcher τ β) (goOn : Bool) : Dispatcher τ β :=
  if goOn then { d with phase := .surveying } else d.stop

/-- Takes the result of element `index`, at once or in its turn. -/
def complete (d : Dispatcher τ β) (index : Nat) (r : Except Failure (Option β)) :
    Dispatcher τ β :=
  if d.keepOrder then
    let (reorder, feed, goOn) := release (d.reorder.insert index r) d.feed
    { d with reorder, feed }.next goOn
  else
    let (feed, goOn) := deliver d.feed r
    { d with feed }.next goOn

/-! ### The four ends of a round -/

/-- The worker of element `index` has been joined. -/
def joined (d : Dispatcher τ β) (index : Nat) (outcome : Outcome β) : Dispatcher τ β :=
  { d with workers := d.workers.filter (·.1 != index) }.complete index (outcome.result index)

/-- An element has been taken, and its worker started or not. -/
def pulled (d : Dispatcher τ β) (launch : Launch τ) : Dispatcher τ β :=
  let index := d.dispatched
  let d := { d with dispatched := index + 1 }
  match launch with
  | .started worker => { d with workers := d.workers ++ [(index, worker)] }.next true
  | .panicked payload => d.complete index ((Outcome.panicked payload).result index)

/-- The source has failed. -/
def pulledFailure (d : Dispatcher τ β) (e : Failure) : Dispatcher τ β :=
  { d with exhausted := true }.complete d.dispatched (.error e)

/-- The source has ended. -/
def pulledEnd (d : Dispatcher τ β) : Dispatcher τ β :=
  { d with exhausted := true }.next true

/-- An item has been read from the feed, or its consumer dropped. -/
def noticedRead (d : Dispatcher τ β) : Dispatcher τ β :=
  d.next true

/-! ### The consumer -/

/-- Asks the output for an item. The first time only starts the dispatcher, which
is progress. -/
def poll (d : Dispatcher τ β) : Answer β × Dispatcher τ β :=
  if d.phase = .idle then (.skip, { d with phase := .surveying })
  else
    let (a, feed) := d.feed.poll
    (a, { d with feed })

/-- Drops the output. A dispatcher that was never started never will be. -/
def drop (d : Dispatcher τ β) : Dispatcher τ β :=
  { (if d.phase = .idle then d.stop else d) with feed := d.feed.drop }

end Dispatcher
end PullStream
