import PullStream.Parallel.Dispatcher

/-!
Parallel stages: a dispatcher over a machine, with workers on the clock.

The dispatcher's work is the background work of the machine. In each round the
dispatcher goes on until it has to wait; then every worker that is due finishes.
While the dispatcher selects, a worker that has finished is joined before the
source is asked, and the source is asked before a read is noticed. Workers finish
in order of their due times, those of one instant in the order in which they were
started.
-/

namespace PullStream

/-- A worker function: from an element and its index to a worker on its way. -/
abbrev Worker (ω α β : Type) :=
  α → Nat → Time → ω → Launch (Deferred ω (Outcome β)) × ω

namespace Parallel

variable {ω α β : Type}

/-- A worker on the clock, or one that has finished and waits to be joined. -/
inductive Running (ω β : Type) where
  | onClock (pending : Pending ω (Outcome β))
  | finished

/-- When a worker is due. -/
def Running.due? {ω β : Type} : Running ω β → Option Time
  | .onClock p => some p.due
  | .finished => none

/-- The state of a parallel stage: its source, its dispatcher, the outcomes that
wait to be joined, oldest first, and whether the dispatcher has had its turn in
this round. -/
structure State (ω σ β : Type) where
  source : σ
  dispatcher : Dispatcher (Running ω β) β
  outcomes : List (Nat × Outcome β) := []
  waited : Bool := false

/-- The earliest due time among workers, if any is on the clock. -/
def earliest (workers : List (Nat × Running ω β)) : Option Time :=
  (workers.filterMap (·.2.due?)).min?

/-- Runs the first worker that is due at `now`: its index, its outcome, the
workers with it marked as finished. -/
def finishOne (workers : List (Nat × Running ω β)) (now : Time) (w : ω) :
    Option (Nat × Outcome β × List (Nat × Running ω β) × ω) :=
  match earliest workers with
  | none => none
  | some due =>
    if now < due then none
    else
      match workers.find? (fun x => x.2.due? == some due) with
      | some (index, .onClock p) =>
        let (outcome, w) := p.finish now w
        some (index, outcome,
          workers.map (fun x => if x.1 == index then (index, .finished) else x), w)
      | _ => none

/-- Lets one worker that is due finish, a joinable one or a detached one. -/
def finishWorker {σ : Type} (s : State ω σ β) (now : Time) (w : ω) :
    Bool × State ω σ β × ω :=
  let d := s.dispatcher
  match finishOne d.workers now w with
  | some (index, outcome, workers, w) =>
    (true, { s with
      dispatcher := { d with workers }
      outcomes := s.outcomes ++ [(index, outcome)] }, w)
  | none =>
    match finishOne d.detached now w with
    | some (index, _, detached, w) =>
      (true, { s with
        dispatcher := { d with detached := detached.filter (·.1 != index) } }, w)
    | none => (false, s, w)

/-- Puts a worker on the clock. -/
def launched (now : Time) : Launch (Deferred ω (Outcome β)) → Launch (Running ω β)
  | .started d => .started (.onClock (d.askedAt now))
  | .panicked payload => .panicked payload

/-- The source after the dispatcher moved on: it is dropped when the dispatcher
stops. -/
def settle (source : Machine ω α) (s : source.State) (outcomes : List (Nat × Outcome β))
    (before after : Dispatcher (Running ω β) β) : State ω source.State β where
  source := if after.phase = .stopped ∧ before.phase ≠ .stopped then source.drop s else s
  dispatcher := after
  outcomes := if after.phase = .stopped then [] else outcomes

/-- One step of the dispatcher over its source. -/
def dispatch (source : Machine ω α) (work : Worker ω α β)
    (s : State ω source.State β) (now : Time) (w : ω) :
    Stir × State ω source.State β × ω :=
  let d := s.dispatcher
  match d.phase with
  | .idle | .stopped => (.blocked, s, w)
  | .surveying => (.moved, settle source s.source s.outcomes d d.survey, w)
  | .selecting mayPull read =>
    match s.outcomes with
    | (index, outcome) :: outcomes =>
      (.moved, settle source s.source outcomes d (d.joined index outcome), w)
    | [] =>
      let (answer, r, w) :=
        if mayPull then source.poll s.source now w else (.wait, s.source, w)
      match answer with
      | .item a =>
        let (launch, w) := work a d.dispatched now w
        (.moved, settle source r [] d (d.pulled (launched now launch)), w)
      | .fail e => (.moved, settle source r [] d (d.pulledFailure e), w)
      | .done => (.moved, settle source r [] d d.pulledEnd, w)
      | .skip => (.moved, { s with source := r }, w)
      | .pause => (.paused, { s with source := r }, w)
      | .crash _ =>
        (.moved, settle source r [] d { d with phase := .stopped, workers := [] }, w)
      | .wait =>
        if read.resolved d.feed then (.moved, settle source r [] d d.noticedRead, w)
        else (.blocked, { s with source := r }, w)

/-- One step of the workers, behind the dispatcher: the last one ends the round. -/
def afterwards {σ : Type} (s : State ω σ β) (now : Time) (w : ω) :
    Stir × State ω σ β × ω :=
  match finishWorker s now w with
  | (true, s, w) => (.moved, { s with waited := true }, w)
  | (false, s, w) => (.blocked, { s with waited := false }, w)

/-- One step of the dispatcher, or of a worker when the dispatcher has had its
turn. -/
def advance (source : Machine ω α) (work : Worker ω α β)
    (s : State ω source.State β) (now : Time) (w : ω) :
    Stir × State ω source.State β × ω :=
  if s.waited then afterwards s now w
  else
    match dispatch source work s now w with
    | (.moved, s, w) => (.moved, s, w)
    | (.paused, s, w) => (.moved, { s with waited := true }, w)
    | (.blocked, s, w) => afterwards s now w

end Parallel

/-- The outcomes of workers on the elements of a machine. The dispatcher starts
at the first poll. -/
def Machine.parallel {ω α β : Type} (source : Machine ω α) (concurrency : Nat)
    (keepOrder : Bool) (work : Worker ω α β) : Machine ω β where
  State := Parallel.State ω source.State β × Turn
  start := ({ source := source.start, dispatcher := { concurrency, keepOrder } }, .below)
  poll s _ w :=
    let (p, turn) := s
    let (a, dispatcher) := p.dispatcher.poll
    (a, ({ p with dispatcher }, turn), w)
  tick s now w :=
    s.2.step
      (fun s w =>
        let (moved, r, w) := source.tick s.source now w
        (moved, { s with source := r }, w))
      (fun s w => Parallel.advance source work s now w) s.1 w
  alarms s :=
    source.alarms s.1.source ++
      (s.1.dispatcher.workers ++ s.1.dispatcher.detached).filterMap (·.2.due?)
  drop s :=
    let (p, turn) := s
    (Parallel.settle source p.source p.outcomes p.dispatcher p.dispatcher.drop, turn)

end PullStream
