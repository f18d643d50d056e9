import PullStream.Transducer

/-!
Stages that look at one element at a time and never wait.

The index that a step function sees is the position of the element in the input
of its own stage, whatever the stage drops. `takeFirst` and `takeWhile` come in two
forms that differ only after the end: a lasting one, which stays at the end, and
a plain one, which asks its input again when it is asked again.
-/

namespace PullStream.Transducer

variable {ω α β : Type}

/-- Each element replaced by the step function's result. -/
def map (f : Step ω α β) : Transducer ω α β where
  Memory := Nat
  start := 0
  item i a now w :=
    let (r, w) := f a i now w
    (.ofExcept r, i + 1, w)

/-- The elements on which the step function says yes. -/
def filter (p : Step ω α Bool) : Transducer ω α α where
  Memory := Nat
  start := 0
  item i a now w :=
    let (r, w) := p a i now w
    (.ofDecision a r, i + 1, w)

/-- The elements themselves, after the step function has looked at each. -/
def intercept (f : Step ω α Unit) : Transducer ω α α :=
  map (f.map fun a _ => a)

/-- The result of an assertion on the element at `index`. -/
def asserted (a : α) (index : Nat) : Except Failure Bool → Except Failure α
  | .ok true => .ok a
  | .ok false => .error (.assertionFailed index)
  | .error e => .error e

/-- The elements themselves; the first on which the step function says no
becomes a failure. -/
def assert (p : Step ω α Bool) : Transducer ω α α :=
  map fun a i now w =>
    let (r, w) := p a i now w
    (asserted a i r, w)

/-- The elements whose key no earlier element had. -/
def distinct {κ : Type} [DecidableEq κ] (key : α → κ) : Transducer ω α α where
  Memory := List κ
  start := []
  item seen a _ w :=
    if key a ∈ seen then (.skip, seen, w) else (.item a, key a :: seen, w)

/-- Each element with the one before it. -/
def pairwise : Transducer ω α (α × α) where
  Memory := Option α
  start := none
  item previous a _ w :=
    match previous with
    | none => (.skip, some a, w)
    | some p => (.item (p, a), some a, w)

/-- Everything but the first `count` elements. -/
def skipFirst (count : Nat) : Transducer ω α α where
  Memory := Nat
  start := count
  item remaining a _ w :=
    match remaining with
    | 0 => (.item a, 0, w)
    | n + 1 => (.skip, n, w)

/-- The first `count` elements. The plain form counts a poll that finds the end
as one of them; the lasting form takes no more after it. -/
def takeFirst (lasting : Bool) (count : Nat) : Transducer ω α α where
  Memory := Nat
  start := count
  before remaining _ w := if remaining = 0 then some (.done, 0, w) else none
  item remaining a _ w := (.item a, remaining - 1, w)
  fail remaining e _ w := (.fail e, remaining - 1, w)
  done remaining _ w := (.done, if lasting then 0 else remaining - 1, w)

/-- The memory of `takeWhile`: the index of the next element, and whether an
element has ended the sequence for good. -/
structure Taking where
  index : Nat := 0
  ended : Bool := false
  deriving DecidableEq, Repr

/-- What the decision on `a` makes of the sequence. -/
def taken (a : α) : Except Failure Bool → Answer α
  | .ok true => .item a
  | .ok false => .done
  | .error e => .fail e

/-- The elements before the first on which the step function says no. That
element is the end; only the lasting form remembers it. -/
def takeWhile (lasting : Bool) (p : Step ω α Bool) : Transducer ω α α where
  Memory := Taking
  start := {}
  before m _ w := if m.ended then some (.done, m, w) else none
  item m a now w :=
    let (r, w) := p a m.index now w
    let ended := lasting && match r with | .ok false => true | _ => false
    (taken a r, { index := m.index + 1, ended }, w)

/-- How far `defaultIfEmpty` has come. -/
inductive Filling where
  /-- Nothing has been handed out. -/
  | empty
  /-- The input has handed something out. -/
  | filled
  /-- The input has ended. -/
  | ended
  deriving DecidableEq, Repr

/-- The elements themselves, or `value` alone if there are none. The input is
dropped at its end. -/
def defaultIfEmpty (value : α) : Transducer ω α α where
  Memory := Filling
  start := .empty
  before m _ w := if m = .ended then some (.done, m, w) else none
  item _ a _ w := (.item a, .filled, w)
  fail _ e _ w := (.fail e, .filled, w)
  done m _ w := (if m = .empty then .item value else .done, .ended, w)
  holds m := m != .ended

/-- The memory of `flatMap`: the index of the next element, what is left of the
current collection, and whether the input is used up for good. -/
structure Flattening (β : Type) where
  index : Nat := 0
  rest : List β := []
  ended : Bool := false

/-- The elements of the collections that the step function gives, one collection
after the other. The lasting form never asks an input again that has ended. -/
def flatMap (lasting : Bool) (f : Step ω α (List β)) : Transducer ω α β where
  Memory := Flattening β
  start := {}
  before m _ w :=
    match m.rest with
    | b :: rest => some (.item b, { m with rest }, w)
    | [] => if m.ended then some (.done, m, w) else none
  item m a now w :=
    match f a m.index now w with
    | (.ok rest, w) => (.skip, { m with index := m.index + 1, rest }, w)
    | (.error e, w) => (.fail e, { m with index := m.index + 1 }, w)
  done m _ w := (.done, { m with ended := lasting }, w)
  holds m := !m.ended

end PullStream.Transducer
