import PullStream.Feed

/-!
Reading ahead: a pump that fills a feed from a machine while the consumer does
other things.

Before each pull the pump sees whether the feed is abandoned, and waits for a
read while `size` items are undelivered. Once it has asked its source it does not
look at the consumer until the source has answered. The pump starts when the
output is first asked for an item.
-/

namespace PullStream

/-- Where the pump stands. -/
inductive ReadAhead.Phase where
  | idle
  /-- At the head of its loop. -/
  | surveying
  /-- Waiting for room. -/
  | waiting (read : Feed.Waiter)
  /-- The source has been asked. -/
  | pulling
  | stopped
  deriving DecidableEq, Repr

/-- A pump and the feed that it fills. -/
structure ReadAhead (α : Type) where
  size : Nat
  phase : ReadAhead.Phase := .idle
  feed : Feed α := {}
  deriving DecidableEq, Repr

namespace ReadAhead

variable {ω α : Type}

/-- The head of the loop: stop if nobody consumes, wait if there is no room,
else ask the source. -/
def survey (p : ReadAhead α) : ReadAhead α :=
  if p.feed.abandoned then { p with phase := .stopped }
  else if p.size ≤ p.feed.pending then { p with phase := .waiting (p.feed.waiter .read) }
  else { p with phase := .pulling }

/-- The source has answered with an item. -/
def pulled (p : ReadAhead α) (a : α) : ReadAhead α :=
  match p.feed.feed a with
  | .ok feed => { p with phase := .surveying, feed }
  | .error _ => { p with phase := .stopped }

/-- The source has failed. -/
def pulledFailure (p : ReadAhead α) (e : Failure) : ReadAhead α :=
  match p.feed.throw e with
  | .ok feed => { p with phase := .stopped, feed }
  | .error _ => { p with phase := .stopped }

/-- The source has ended. -/
def pulledEnd (p : ReadAhead α) : ReadAhead α :=
  { p with phase := .stopped, feed := p.feed.close }

/-- An item has been read while the pump waited for room. -/
def noticedRead (p : ReadAhead α) : ReadAhead α :=
  { p with phase := .surveying }

/-- Asks the output for an item. The first time only starts the pump, which is
progress. -/
def poll (p : ReadAhead α) : Answer α × ReadAhead α :=
  if p.phase = .idle then (.skip, { p with phase := .surveying })
  else
    let (a, feed) := p.feed.poll
    (a, { p with feed })

/-- Drops the output. A pump that was never started never will be. -/
def drop (p : ReadAhead α) : ReadAhead α :=
  { p with phase := if p.phase = .idle then .stopped else p.phase, feed := p.feed.drop }

/-- The pump's source after the pump moved on: it is dropped when the pump
stops. -/
def settle (source : Machine ω α) (s : source.State) (before after : ReadAhead α) :
    source.State × ReadAhead α :=
  (if after.phase = .stopped ∧ before.phase ≠ .stopped then source.drop s else s, after)

/-- One step of the pump. -/
def advance (source : Machine ω α) (s : source.State × ReadAhead α) (now : Time) (w : ω) :
    Stir × (source.State × ReadAhead α) × ω :=
  let (r, p) := s
  match p.phase with
  | .idle | .stopped => (.blocked, s, w)
  | .surveying => (.moved, settle source r p p.survey, w)
  | .waiting read =>
    if read.resolved p.feed then (.moved, settle source r p p.noticedRead, w)
    else (.blocked, s, w)
  | .pulling =>
    match source.poll r now w with
    | (.item a, r, w) => (.moved, settle source r p (p.pulled a), w)
    | (.fail e, r, w) => (.moved, settle source r p (p.pulledFailure e), w)
    | (.done, r, w) => (.moved, settle source r p p.pulledEnd, w)
    | (.skip, r, w) => (.moved, (r, p), w)
    | (.pause, r, w) => (.paused, (r, p), w)
    | (.wait, r, w) => (.blocked, (r, p), w)
    | (.crash _, r, w) => (.moved, settle source r p { p with phase := .stopped }, w)

end ReadAhead

/-- The elements of a machine, read ahead by up to `size`. -/
def Machine.readAhead {ω α : Type} (source : Machine ω α) (size : Nat) : Machine ω α where
  State := (source.State × ReadAhead α) × Turn
  start := ((source.start, { size }), .below)
  poll s _ w :=
    let ((r, p), turn) := s
    let (a, p) := p.poll
    (a, ((r, p), turn), w)
  tick s now w :=
    s.2.step
      (fun s w =>
        let (moved, r, w) := source.tick s.1 now w
        (moved, (r, s.2), w))
      (fun s w => ReadAhead.advance source s now w) s.1 w
  alarms s := source.alarms s.1.1
  drop s := (ReadAhead.settle source s.1.1 s.1.2 s.1.2.drop, s.2)

end PullStream
