import PullStream.Feed

/-!
Fan-out: one source, several outputs, and a pump between them.

The pump is started once, by the first output that is asked for an item. Before
each pull it goes through the outputs in order and waits at each until it has
room: until fewer than `buffer` items are undelivered there, or it has been
dropped. A `buffer` of zero means unlimited room. Then the pump stops if every
output has been dropped, and else asks its source. Items go to the outputs that
are still there, a failure and the end to all of them.
-/

namespace PullStream

/-- Where the pump stands. -/
inductive Fanout.Phase where
  | idle
  /-- About to look for room at the output of this number; past the last output
  it looks whether anybody is left. -/
  | checking (output : Nat)
  /-- Waiting for room at an output. -/
  | waiting (output : Nat) (read : Feed.Waiter)
  /-- The source has been asked. -/
  | pulling
  | stopped
  deriving DecidableEq, Repr

/-- A pump and the feeds of its outputs. -/
structure Fanout (α : Type) where
  buffer : Nat
  feeds : List (Feed α)
  phase : Fanout.Phase := .idle
  deriving DecidableEq, Repr

namespace Fanout

variable {ω α : Type}

/-- A fan-out to `count` outputs. -/
def create (count buffer : Nat) : Fanout α :=
  { buffer, feeds := List.replicate count {} }

/-- Whether every output has been dropped. -/
def abandoned (p : Fanout α) : Bool :=
  p.feeds.all (·.abandoned)

/-- Whether an output need not be waited for. -/
def hasRoom (p : Fanout α) (f : Feed α) : Bool :=
  f.abandoned || p.buffer == 0 || decide (f.pending < p.buffer)

/-- Looks for room at the output of number `k`. -/
def check (p : Fanout α) (k : Nat) : Fanout α :=
  match p.feeds[k]? with
  | some f =>
    if p.hasRoom f then { p with phase := .checking (k + 1) }
    else { p with phase := .waiting k (f.waiter .read) }
  | none => { p with phase := if p.abandoned then .stopped else .pulling }

/-- Feeds an item to an output that is still there. -/
def offer (a : α) (f : Feed α) : Feed α :=
  if f.abandoned then f
  else
    match f.feed a with
    | .ok f => f
    | .error _ => f

/-- The source has answered with an item. -/
def pulled (p : Fanout α) (a : α) : Fanout α :=
  { p with phase := .checking 0, feeds := p.feeds.map (offer a) }

/-- Throws a failure into an output. -/
def throwInto (e : Failure) (f : Feed α) : Feed α :=
  match f.throw e with
  | .ok f => f
  | .error _ => f

/-- The source has failed. -/
def pulledFailure (p : Fanout α) (e : Failure) : Fanout α :=
  { p with phase := .stopped, feeds := p.feeds.map (throwInto e) }

/-- The source has ended. -/
def pulledEnd (p : Fanout α) : Fanout α :=
  { p with phase := .stopped, feeds := p.feeds.map Feed.close }

/-- Something has been read from the output of number `k` while the pump waited
for room there. -/
def noticedRead (p : Fanout α) (k : Nat) : Fanout α :=
  { p with phase := .checking k }

/-- Asks an output for an item. The first time that any is asked only starts the
pump, which is progress. An output that does not exist has ended. -/
def poll (p : Fanout α) (k : Nat) : Answer α × Fanout α :=
  match p.feeds[k]? with
  | none => (.done, p)
  | some f =>
    if p.phase = .idle then (.skip, { p with phase := .checking 0 })
    else
      let (a, f) := f.poll
      (a, { p with feeds := p.feeds.set k f })

/-- Drops an output. A pump that was never started never will be once all its
outputs are gone. -/
def drop (p : Fanout α) (k : Nat) : Fanout α :=
  let p := { p with feeds := p.feeds.modify k Feed.drop }
  if p.phase = .idle ∧ p.abandoned then { p with phase := .stopped } else p

/-- The pump's source after the pump moved on: it is dropped when the pump
stops. -/
def settle (source : Machine ω α) (s : source.State) (before after : Fanout α) :
    source.State × Fanout α :=
  (if after.phase = .stopped ∧ before.phase ≠ .stopped then source.drop s else s, after)

/-- One step of the pump. -/
def advance (source : Machine ω α) (s : source.State × Fanout α) (now : Time) (w : ω) :
    Stir × (source.State × Fanout α) × ω :=
  let (r, p) := s
  match p.phase with
  | .idle | .stopped => (.blocked, s, w)
  | .checking k => (.moved, settle source r p (p.check k), w)
  | .waiting k read =>
    if (p.feeds[k]?).all read.resolved then (.moved, settle source r p (p.noticedRead k), w)
    else (.blocked, s, w)
  | .pulling =>
    match source.poll r now w with
    | (.item a, r, w) => (.moved, settle source r p (p.pulled a), w)
    | (.fail e, r, w) => (.moved, settle source r p (p.pulledFailure e), w)
    | (.done, r, w) => (.moved, settle source r p p.pulledEnd, w)
    | (.skip, r, w) => (.moved, (r, p), w)
    | (.pause, r, w) => (.paused, (r, p), w)
    | (.wait, r, w) => (.blocked, (r, p), w)
    | (.crash _, r, w) => (.moved, settle source r p { p with phase := .stopped }, w)

end Fanout

/-- A state with several outputs that are asked by number. -/
structure Hub (ω α : Type) : Type 1 where
  State : Type
  start : State
  outputs : Nat
  /-- Asks an output for an item. -/
  poll : Nat → State → Time → ω → Answer α × State × ω
  /-- One step of a round of background work; `false` when the round is over. -/
  tick : State → Time → ω → Bool × State × ω
  /-- When waiting parts can go on. -/
  alarms : State → List Time
  /-- Nobody will ask this output again. -/
  drop : Nat → State → State

/-- A machine as a hub with one output. -/
def Machine.hub {ω α : Type} (m : Machine ω α) : Hub ω α where
  State := m.State
  start := m.start
  outputs := 1
  poll _ := m.poll
  tick := m.tick
  alarms := m.alarms
  drop _ := m.drop

/-- The elements of a machine, all of them at each of `count` outputs. -/
def Machine.fanout {ω α : Type} (source : Machine ω α) (count buffer : Nat) : Hub ω α where
  State := (source.State × Fanout α) × Turn
  start := ((source.start, .create count buffer), .below)
  outputs := count
  poll k s _ w :=
    let ((r, p), turn) := s
    let (a, p) := p.poll k
    (a, ((r, p), turn), w)
  tick s now w :=
    s.2.step
      (fun s w =>
        let (moved, r, w) := source.tick s.1 now w
        (moved, (r, s.2), w))
      (fun s w => Fanout.advance source s now w) s.1 w
  alarms s := source.alarms s.1.1
  drop k s := (Fanout.settle source s.1.1 s.1.2 (s.1.2.drop k), s.2)

end PullStream
