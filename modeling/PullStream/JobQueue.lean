import PullStream.Machine
import PullStream.Polling

/-!
A queue of jobs with acknowledgement, and sequences that consume it.

Jobs are handed out in order of arrival and stay in flight until they are
acknowledged. A consuming sequence polls the queue until its stop: a round that
finds jobs hands them over, and one that finds none is idle.
-/

namespace PullStream

/-- A job: its number in order of arrival, and what is to be done. -/
structure Job where
  id : Nat
  payload : String
  deriving DecidableEq, Repr

/-- Jobs that wait and jobs that have been handed out. -/
structure JobQueue where
  nextId : Nat := 0
  /-- Jobs that wait, first come first. -/
  ready : List Job := []
  /-- Jobs that have been handed out and not acknowledged. -/
  inFlight : List Job := []
  deriving DecidableEq, Repr

namespace JobQueue

/-- Adds a job behind all others, and says its number. -/
def enqueue (q : JobQueue) (payload : String) : Nat × JobQueue :=
  (q.nextId,
    { q with nextId := q.nextId + 1, ready := q.ready ++ [⟨q.nextId, payload⟩] })

/-- Hands out up to `limit` jobs. -/
def dequeueMany (q : JobQueue) (limit : Nat) : List Job × JobQueue :=
  let jobs := q.ready.take limit
  (jobs, { q with ready := q.ready.drop limit, inFlight := q.inFlight ++ jobs })

/-- Hands out a job, if there is one. -/
def dequeue (q : JobQueue) : Option Job × JobQueue :=
  let (jobs, q) := q.dequeueMany 1
  (jobs.head?, q)

/-- Completes a job that is in flight; says whether it was. -/
def acknowledge (q : JobQueue) (id : Nat) : Bool × JobQueue :=
  (q.inFlight.any (·.id = id), { q with inFlight := q.inFlight.filter (·.id ≠ id) })

/-! ### Consuming sequences -/

/-- What a consuming sequence works in: the queue, whether its stop has been set, and
what would be drawn for a wait that begins now. -/
structure Workplace where
  queue : JobQueue := {}
  stopped : Bool := false
  draw : Binary64 := Backoff.leastDraw
  deriving DecidableEq, Repr

/-- Polls the queue in rounds of a generator: `take` hands over what a round
finds, or nothing. -/
def consumerWith {α : Type} (g : Polling.Generator)
    (take : JobQueue → Option α × JobQueue) : Machine Workplace α where
  State := Polling.Generator
  start := g
  poll g now w :=
    match g.next w.draw now w.stopped with
    | (.round, g) =>
      match take w.queue with
      | (some a, queue) => (.item a, g, { w with queue })
      | (none, queue) => (.skip, g.idle, { w with queue })
    | (.stop, g) => (.done, g, w)
    | (.wait, g) => (.wait, g, w)
    | (.misused, g) => (.spent, g, w)
  tick g _ w := (false, g, w)
  alarms g := g.alarms
  drop g := g

/-- The jobs of a queue, one by one. -/
def consumer (settings : Settings.Backoff) : Except Failure (Machine Workplace Job) :=
  (Polling.Generator.create settings).map fun g => consumerWith g dequeue

/-- The jobs of a queue, up to `size` at a time. -/
def batchConsumer (size : Nat) (settings : Settings.Backoff) :
    Except Failure (Machine Workplace (List Job)) :=
  if size = 0 then .error .zeroBatch
  else
    (Polling.Generator.create settings).map fun g => consumerWith g fun q =>
      match q.dequeueMany size with
      | ([], q) => (none, q)
      | (jobs, q) => (some jobs, q)

end JobQueue
end PullStream
