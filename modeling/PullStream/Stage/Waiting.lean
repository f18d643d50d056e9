import PullStream.Transducer

/-!
Stages whose step functions take a while.

A stage has one result under way at most: it asks its input again only after the
last result has come. `mapAsync` and `filterAsync` call their step function as
soon as the element is there; the delay of the result counts from that instant.
-/

namespace PullStream.Transducer

variable {ω α β : Type}

/-- The memory of a stage that waits for results of type `ρ`: the index of the
next element, and what is under way. -/
structure Awaiting (ω ρ : Type) where
  index : Nat := 0
  pending : Option (Pending ω ρ) := none

/-- When the pending result is due. -/
def Awaiting.alarms {ω ρ : Type} (m : Awaiting ω ρ) : List Time :=
  m.pending.toList.map (·.due)

/-- A stage that computes an answer from each element in a while. -/
def deferring (f : α → Nat → Time → ω → Deferred ω (Answer β) × ω) :
    Transducer ω α β where
  Memory := Awaiting ω (Answer β)
  start := {}
  before m now w :=
    m.pending.map fun p =>
      if now < p.due then (.wait, m, w)
      else
        let (b, w) := p.finish now w
        (b, { m with pending := none }, w)
  item m a now w :=
    let (d, w) := f a m.index now w
    (.skip, { index := m.index + 1, pending := some (d.askedAt now) }, w)
  alarms := Awaiting.alarms

/-- A deferred result seen as an answer. -/
def deferredAnswer {ρ : Type} (answer : ρ → Answer β) (d : Deferred ω ρ) :
    Deferred ω (Answer β) where
  delay := d.delay
  finish now w :=
    let (r, w) := d.finish now w
    (answer r, w)

/-- Each element replaced by the step function's result. -/
def mapAsync (f : SlowStep ω α β) : Transducer ω α β :=
  deferring fun a i now w =>
    let (d, w) := f a i now w
    (deferredAnswer .ofExcept d, w)

/-- The elements on which the step function says yes. -/
def filterAsync (p : SlowStep ω α Bool) : Transducer ω α α :=
  deferring fun a i now w =>
    let (d, w) := p a i now w
    (deferredAnswer (.ofDecision a) d, w)

/-- The elements themselves, after the step function has looked at each. -/
def interceptAsync (f : SlowStep ω α Unit) : Transducer ω α α :=
  mapAsync (f.map fun a _ => a)

/-- The memory of `arriving`: the position of the next answer of the input, and
the answer on its way. -/
structure Arriving (α : Type) where
  index : Nat := 0
  pending : Option (Time × Answer α) := none

/-- The same items and failures, each `delay` of its position after it was
asked for. -/
def arriving (delay : Nat → Time) : Transducer ω α α where
  Memory := Arriving α
  start := {}
  before m now w :=
    m.pending.map fun (due, a) =>
      if now < due then (.wait, m, w) else (a, { m with pending := none }, w)
  item m a now w :=
    (.skip, { index := m.index + 1, pending := some (now + delay m.index, .item a) }, w)
  fail m e now w :=
    (.skip, { index := m.index + 1, pending := some (now + delay m.index, .fail e) }, w)
  alarms m := m.pending.toList.map (·.1)

end PullStream.Transducer
