import PullStream.Fanout
import PullStream.Parallel
import PullStream.ReadAhead
import PullStream.Stage.Collecting
import PullStream.Stage.Elementwise
import PullStream.Stage.Nesting
import PullStream.Stage.Pacing
import PullStream.Stage.Waiting

/-!
Sequences: machines with a mode, and the stages on them.

An immediate sequence answers every poll without waiting; a waiting one may
wait. Stages whose step functions answer at once keep the mode, all others give a
waiting sequence. Every sequence that a stage gives ends at its first failure.

The mode of a sequence decides little else: after their end, immediate sequences
ask their input again where waiting ones stay at the end, and the other way
round; reading ahead leaves immediate sequences alone.
-/

namespace PullStream

/-- Whether a sequence may wait. -/
inductive Mode where
  | immediate
  | waiting
  deriving DecidableEq, Repr

/-- A machine to pull, and whether it may wait. -/
structure Sequence (ω α : Type) : Type 1 where
  mode : Mode
  machine : Machine ω α

namespace Sequence

variable {ω α β ι κ : Type}

/-! ### Sources -/

/-- The items of a list. -/
def ofList (items : List α) : Sequence ω α :=
  ⟨.immediate, .ofList items⟩

/-- The results of a list, up to the first failure. -/
def ofResults (items : List (Except Failure α)) : Sequence ω α :=
  ⟨.immediate, (Machine.ofResults items).guarded⟩

/-- The items that a machine hands out without waiting, up to the first failure. -/
def ofMachine (m : Machine ω α) : Sequence ω α :=
  ⟨.immediate, m.guarded⟩

/-- The items of a machine that may wait, up to the first failure. -/
def ofWaiting (m : Machine ω α) : Sequence ω α :=
  ⟨.waiting, m.guarded⟩

/-- No items. -/
def empty : Sequence ω α :=
  ofList []

/-- The integers from `first` to `last`, both included. -/
def range (first last : Int64) : Sequence ω Int64 :=
  ⟨.immediate, .immediate first.toInt fun n _ w =>
    if n ≤ last.toInt then (.item (Int64.ofInt n), n + 1, w) else (.done, n, w)⟩

/-- The items of a list, each `delay` milliseconds after it is asked for. -/
def delayed (items : List α) (delay : Time) : Sequence ω α :=
  ⟨.waiting, (Machine.ofList items).via (.arriving fun _ => delay)⟩

/-! ### Stages that keep the mode -/

/-- A stage that leaves the mode alone. -/
private def stage (s : Sequence ω α) (t : Transducer ω α β) : Sequence ω β :=
  ⟨s.mode, (s.machine.via t).guarded⟩

/-- Each element replaced by the step function's result. -/
def map (s : Sequence ω α) (f : Step ω α β) : Sequence ω β :=
  s.stage (.map f)

/-- The elements on which the step function says yes. -/
def filter (s : Sequence ω α) (p : Step ω α Bool) : Sequence ω α :=
  s.stage (.filter p)

/-- The elements themselves, after the step function has looked at each. -/
def intercept (s : Sequence ω α) (f : Step ω α Unit) : Sequence ω α :=
  s.stage (.intercept f)

/-- The elements themselves; one on which the step function says no fails the
sequence. -/
def assert (s : Sequence ω α) (p : Step ω α Bool) : Sequence ω α :=
  s.stage (.assert p)

/-- The elements whose key no earlier element had. -/
def distinct [DecidableEq κ] (s : Sequence ω α) (key : α → κ) : Sequence ω α :=
  s.stage (.distinct key)

/-- Each element with the one before it. -/
def pairwise (s : Sequence ω α) : Sequence ω (α × α) :=
  s.stage .pairwise

/-- Everything but the first `count` elements. -/
def skip (s : Sequence ω α) (count : Nat) : Sequence ω α :=
  s.stage (.skipFirst count)

/-- The first `count` elements. -/
def take (s : Sequence ω α) (count : Nat) : Sequence ω α :=
  s.stage (.takeFirst (s.mode == .waiting) count)

/-- The elements before the first on which the step function says no. An
immediate sequence goes on behind that element when it is pulled again. -/
def takeWhile (s : Sequence ω α) (p : Step ω α Bool) : Sequence ω α :=
  s.stage (.takeWhile (s.mode == .waiting) p)

/-- The elements of the collections that the step function gives. -/
def flatMap (s : Sequence ω α) (f : Step ω α (List β)) : Sequence ω β :=
  s.stage (.flatMap (s.mode == .immediate) f)

/-- The elements themselves, or `value` alone if there are none. -/
def defaultIfEmpty (s : Sequence ω α) (value : α) : Sequence ω α :=
  s.stage (.defaultIfEmpty value)

/-- The elements in order; equal ones as they came. -/
def sort (s : Sequence ω α) (notAfter : α → α → Bool) : Sequence ω α :=
  s.stage (.sort notAfter)

/-- The results of an operation, repeated while the judge asks for it. -/
def retry (s : Sequence ω α) (failing : Bool) (judge : Judge ω α) (f : Step ω α β) :
    Sequence ω β :=
  s.stage (.retry failing judge f)

/-- The elements in batches of `size`; an element has `width` bytes. -/
def batch (s : Sequence ω α) (size width : Nat) : Except Failure (Sequence ω (List α)) :=
  if size = 0 then .error .zeroBatch else .ok (s.stage (.batch size width))

/-- What becomes of putting a stage on. -/
inductive Construction (ω α : Type) : Type 1 where
  | built (s : Sequence ω α)
  | refused (failure : Failure)
  /-- The stage has broken down while it was made. -/
  | crashed (message : String)

/-- Puts batches of `size` on. A stage that may wait reserves room for its first
batch there and then. -/
def putBatch (s : Sequence ω α) (size width : Nat) : Construction ω (List α) :=
  match s.batch size width with
  | .error e => .refused e
  | .ok batches =>
    if s.mode = .waiting ∧ Transducer.roomFor width < size then .crashed Transducer.noRoom
    else .built batches

/-- The elements of one sequence after those of another. The result may wait if
either may. -/
def append (s t : Sequence ω α) : Sequence ω α :=
  ⟨if s.mode = .immediate ∧ t.mode = .immediate then .immediate else .waiting,
    (s.machine.append t.machine).guarded⟩

/-! ### Stages that may wait -/

/-- A stage that may wait. -/
private def slowStage (s : Sequence ω α) (t : Transducer ω α β) : Sequence ω β :=
  ⟨.waiting, (s.machine.via t).guarded⟩

/-- Each element replaced by the step function's result. -/
def mapAsync (s : Sequence ω α) (f : SlowStep ω α β) : Sequence ω β :=
  s.slowStage (.mapAsync f)

/-- The elements on which the step function says yes. -/
def filterAsync (s : Sequence ω α) (p : SlowStep ω α Bool) : Sequence ω α :=
  s.slowStage (.filterAsync p)

/-- The elements themselves, after the step function has looked at each. -/
def interceptAsync (s : Sequence ω α) (f : SlowStep ω α Unit) : Sequence ω α :=
  s.slowStage (.interceptAsync f)

/-- The elements of the inner sequences that the step function chooses. -/
def flatMapAsync (s : Sequence ω α) (inner : ι → Sequence ω β) (f : SlowStep ω α ι) :
    Sequence ω β :=
  ⟨.waiting, (s.machine.flatMapAsync (fun i => (inner i).machine) f).guarded⟩

/-- The results of an operation, repeated while the judge asks for it. -/
def retryAsync (s : Sequence ω α) (failing : Bool) (judge : SlowJudge ω α)
    (f : SlowStep ω α β) : Sequence ω β :=
  s.slowStage (.retryAsync failing judge f)

/-- The same elements, with a wait before each pull but the first. -/
def throttle (s : Sequence ω α) (pause : Pause ω) : Sequence ω α :=
  s.slowStage (.throttle pause)

/-- The same elements; after each `count` of them other work goes first. -/
def interruptEvery (s : Sequence ω α) (count : Nat) : Except Failure (Sequence ω α) :=
  if count = 0 then .error .zeroInterval else .ok (s.slowStage (.interruptEvery count))

/-- The same elements; other work goes first up to `times` a second. -/
def interruptPerSecond (s : Sequence ω α) (times : Nat) (created : Time) :
    Except Failure (Sequence ω α) :=
  if times = 0 then .error .zeroRate
  else .ok (s.slowStage (.interruptPerSecond times created))

/-- The same elements, read ahead by up to `size` if the sequence may wait. -/
def buffer (s : Sequence ω α) (size : Nat) : Except Failure (Sequence ω α) :=
  if size = 0 then .error .zeroBuffer
  else
    match s.mode with
    | .immediate => .ok s
    | .waiting => .ok ⟨.waiting, (s.machine.readAhead size).guarded⟩

/-! ### Parallel stages -/

/-- The results of workers on the elements, `concurrency` at a time. -/
def parallel (s : Sequence ω α) (concurrency : Nat) (keepOrder : Bool)
    (work : Worker ω α β) : Except Failure (Sequence ω β) :=
  if concurrency = 0 then .error .zeroConcurrency
  else .ok ⟨.waiting, (s.machine.parallel concurrency keepOrder work).guarded⟩

/-- A step function that runs as a worker: it may panic when it is started and
when it runs. -/
abbrev RiskyStep (ω α ρ : Type) :=
  α → Nat → Time → ω → Launch (Deferred ω (Except Payload (Except Failure ρ))) × ω

/-- A worker that makes an outcome of the step function's result. -/
def RiskyStep.worker {ρ : Type} (f : RiskyStep ω α ρ) (outcome : α → ρ → Outcome β) :
    Worker ω α β :=
  fun a i now w =>
    match f a i now w with
    | (.panicked payload, w) => (.panicked payload, w)
    | (.started d, w) =>
      (.started
        { delay := d.delay
          finish := fun now w =>
            match d.finish now w with
            | (.ok (.ok r), w) => (outcome a r, w)
            | (.ok (.error e), w) => (.failed e, w)
            | (.error payload, w) => (.panicked payload, w) }, w)

/-- Each element replaced by the step function's result. -/
def parallelMap (s : Sequence ω α) (concurrency : Nat) (keepOrder : Bool)
    (f : RiskyStep ω α β) : Except Failure (Sequence ω β) :=
  s.parallel concurrency keepOrder (RiskyStep.worker f fun _ b => .value b)

/-- What a filter's decision on `a` delivers. -/
def decided (a : α) : Bool → Outcome α
  | true => .value a
  | false => .nothing

/-- The elements on which the step function says yes. -/
def parallelFilter (s : Sequence ω α) (concurrency : Nat) (keepOrder : Bool)
    (p : RiskyStep ω α Bool) : Except Failure (Sequence ω α) :=
  s.parallel concurrency keepOrder (RiskyStep.worker p decided)

/-- The elements themselves, after the step function has looked at each. -/
def parallelIntercept (s : Sequence ω α) (concurrency : Nat) (keepOrder : Bool)
    (f : RiskyStep ω α Unit) : Except Failure (Sequence ω α) :=
  s.parallel concurrency keepOrder (RiskyStep.worker f fun a _ => .value a)

/-- What the step function gives, where it gives something. -/
def parallelFilterMap (s : Sequence ω α) (concurrency : Nat) (keepOrder : Bool)
    (f : RiskyStep ω α (Option β)) : Except Failure (Sequence ω β) :=
  s.parallel concurrency keepOrder (RiskyStep.worker f fun
    | _, some b => .value b
    | _, none => .nothing)

/-- Nothing for any element: what is left of running a step function on each. -/
def parallelVisits (s : Sequence ω α) (concurrency : Nat) (f : RiskyStep ω α Unit) :
    Except Failure (Sequence ω Unit) :=
  s.parallel concurrency false (RiskyStep.worker f fun _ _ => .nothing)

/-- The elements with their keys, in order. -/
def parallelKeyed (s : Sequence ω α) (concurrency : Nat) (key : RiskyStep ω α κ) :
    Except Failure (Sequence ω (κ × α)) :=
  s.parallel concurrency true (RiskyStep.worker key fun a k => .value (k, a))

/-! ### Outputs and conversions -/

/-- The outputs of a fan-out, all with the same elements. -/
def multiplex (s : Sequence ω α) (count buffer : Nat) : Except Failure (Hub ω α) :=
  if count = 0 then .error .zeroOutputs else .ok (s.machine.fanout count buffer)

/-- The same sequence, as one that may wait. -/
def toWaiting (s : Sequence ω α) : Sequence ω α :=
  { s with mode := .waiting }

/-- The items of an immediate sequence, to be walked without waiting. -/
def tryWalk (s : Sequence ω α) : Except Failure (Machine ω α) :=
  match s.mode with
  | .immediate => .ok s.machine
  | .waiting => .error .notImmediate

/-- The sequence of the items that `s` has been emptied into; its background
work, in `state`, goes on. -/
def emptiedInto (s : Sequence ω α) (state : s.machine.State) (items : List α) :
    Sequence ω α :=
  ⟨.immediate, .ofListAfter s.machine state items⟩

end Sequence
end PullStream
