import PullStream.Clockwork
import PullStream.JobQueue
import PullStream.Scenario.Stopping
import PullStream.Stage.Elementwise

/-!
Scenarios on one queue of jobs: commands to producers, to workers and to one
consuming sequence at a time, on one clock. A sequence that breaks down breaks the whole
run.

Jobs may also arrive by themselves at some instant, and the token of the consuming
sequences may be set at one. A pull that its time limit cuts short can be taken up
again: the wait that it was in goes on.
-/

namespace PullStream.Scenario

open PullStream

namespace Queueing

/-- What happens by itself. -/
inductive Happening where
  | arrival (payload : String)
  | stop
  deriving DecidableEq, Repr

/-- What a consuming sequence hands over. -/
inductive Handed where
  | one (job : Job)
  | many (jobs : List Job)
  deriving DecidableEq, Repr

/-- A command to a queue. -/
inductive Command where
  | enqueue (payload : String)
  /-- A job arrives by itself, so much later. -/
  | enqueueAfter (delay : Time) (payload : String)
  | dequeue
  | dequeueMany (limit : Nat)
  | acknowledge (id : Nat)
  /-- Sets the token. -/
  | set
  | sleep (length : Time)
  /-- Starts a consuming sequence, of single jobs or of batches. -/
  | consume (settings : Settings.Backoff) (batch : Option Nat)
  | next (wait : Time)
  deriving Repr

/-- What a command answers. -/
inductive Reply where
  | done
  | slept
  | enqueued (id : Nat)
  | job (job : Option Job)
  | jobs (jobs : List Job)
  | acknowledged (known : Bool)
  | refused (failure : Failure)
  | arrival (a : Arrival Handed)
  | pending
  | noConsumer
  | endless
  deriving Repr

/-- The answer to a command, the instant, and how many jobs wait and are in
flight. -/
structure Note where
  reply : Reply
  time : Time
  ready : Nat
  inFlight : Nat
  deriving Repr

/-- Lets something happen. -/
def Happening.apply (h : Happening) (w : JobQueue.Workplace) : JobQueue.Workplace :=
  match h with
  | .arrival payload => { w with queue := (w.queue.enqueue payload).2 }
  | .stop => { w with stopped := true }

/-- A consuming sequence as the only output, with what happens by itself as
background work. -/
def hub (m : Machine JobQueue.Workplace Handed) (coming : List (Time × Happening)) :
    Hub JobQueue.Workplace Handed where
  State := m.State × List (Time × Happening)
  start := (m.start, coming)
  outputs := 1
  poll _ s now w :=
    let (a, r, w) := m.poll s.1 now w
    (a, (r, s.2), w)
  tick s now w :=
    match s.2.find? (·.1 ≤ now) with
    | some event => (true, (s.1, s.2.eraseP (·.1 ≤ now)), event.2.apply w)
    | none => (false, s, w)
  alarms s := m.alarms s.1 ++ s.2.map (·.1)
  drop _ s := (m.drop s.1, s.2)

/-- Adds what will happen, in order of the instants. -/
def schedule (due : Time) (h : Happening) (coming : List (Time × Happening)) :
    List (Time × Happening) :=
  coming.takeWhile (·.1 ≤ due) ++ (due, h) :: coming.dropWhile (·.1 ≤ due)

/-- The clock, what has not happened yet, the queue, and the consuming sequence if
there is one. -/
structure Session : Type 1 where
  now : Time := 0
  coming : List (Time × Happening) := []
  workplace : JobQueue.Workplace := {}
  consumer : Option (Machine JobQueue.Workplace Handed) := none

namespace Session

/-- The consuming sequence, or one without jobs. -/
def machine (s : Session) : Machine JobQueue.Workplace Handed :=
  s.consumer.getD (.ofList [])

/-- The session on the clock. -/
def setting (s : Session) : Setting JobQueue.Workplace Handed (hub s.machine s.coming) :=
  Setting.initially _ s.now s.workplace

/-- The session after time has passed. -/
def resume (s : Session) (later : Setting JobQueue.Workplace Handed (hub s.machine s.coming)) :
    Session :=
  { now := later.now, coming := later.state.2, workplace := later.world
    consumer := s.consumer.map fun _ => s.machine.resumed later.state.1 }

/-- Does something to the queue. -/
def withQueue {β : Type} (s : Session) (f : JobQueue → β × JobQueue) (reply : β → Reply) :
    Reply × Session :=
  let (answer, queue) := f s.workplace.queue
  (reply answer, { s with workplace := { s.workplace with queue } })

/-- Starts a consuming sequence in place of the present one. -/
def start (s : Session) (m : Except Failure (Machine JobQueue.Workplace Handed)) :
    Reply × Session :=
  match m with
  | .ok m => (.done, { s with consumer := some m })
  | .error e => (.refused e, s)

/-- The consuming sequence of single jobs, or of batches. -/
def consuming (settings : Settings.Backoff) :
    Option Nat → Except Failure (Machine JobQueue.Workplace Handed)
  | none =>
    (JobQueue.consumer settings).map fun m =>
      m.via (.map (Step.pure fun job _ => .ok (.one job)))
  | some size =>
    (JobQueue.batchConsumer size settings).map fun m =>
      m.via (.map (Step.pure fun jobs _ => .ok (.many jobs)))

/-- What a pull answers that may have been cut short. -/
def pulledReply : Ending (Arrival Handed) → Except String Reply
  | .finished (a :: _) => .ok (.arrival a)
  | .finished [] | .timedOut => .ok .pending
  | .crashed message => .error message
  | .stuck | .outOfFuel => .ok .endless

/-- The session behind an answer: a consuming sequence that has ended is dropped. -/
def after (s : Session) : Reply → Session
  | .arrival .ended => { s with consumer := none }
  | _ => s

/-- Pulls the consuming sequence. -/
def next (s : Session) (wait : Time) : Except String (Reply × Session) :=
  match s.consumer with
  | none => .ok (.noConsumer, s)
  | some _ =>
    let (ending, later) := s.setting.pull 0 wait
    (pulledReply ending).map fun reply => (reply, (s.resume later).after reply)

/-- Executes a command. -/
def execute (s : Session) : Command → Except String (Reply × Session)
  | .enqueue payload => .ok (s.withQueue (·.enqueue payload) .enqueued)
  | .enqueueAfter delay payload =>
    .ok (.done, { s with coming := schedule (s.now + delay) (.arrival payload) s.coming })
  | .dequeue => .ok (s.withQueue (·.dequeue) .job)
  | .dequeueMany limit => .ok (s.withQueue (·.dequeueMany limit) .jobs)
  | .acknowledge id => .ok (s.withQueue (·.acknowledge id) .acknowledged)
  | .set => .ok (.done, { s with workplace := { s.workplace with stopped := true } })
  | .sleep length => .ok (.slept, s.resume (s.setting.rest length))
  | .consume settings batch => .ok (s.start (consuming settings batch))
  | .next wait => s.next wait

/-- The note on a command. -/
def note (s : Session) (reply : Reply) : Note :=
  { reply, time := s.now, ready := s.workplace.queue.ready.length
    inFlight := s.workplace.queue.inFlight.length }

/-- Executes commands in order, with a note on each. -/
def executeAll : List Command → Session → Except String (List Note)
  | [], _ => .ok []
  | c :: rest, s =>
    match s.execute c with
    | .error message => .error message
    | .ok (reply, s) => (executeAll rest s).map (s.note reply :: ·)

end Session

/-- The session of a token: one that is set at once, later, or never. -/
def Session.ofStop (stop : Stop) : Session :=
  match stop.after with
  | none => {}
  | some 0 => { workplace := { stopped := true } }
  | some later => { coming := [(later, .stop)] }

/-- Executes commands on a fresh queue. -/
def run (stop : Stop) (commands : List Command) : Except String (List Note) :=
  (Session.ofStop stop).executeAll commands

end Queueing
end PullStream.Scenario
