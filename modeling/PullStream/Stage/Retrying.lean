import PullStream.Transducer

/-!
Retrying: an operation on each element, repeated while a predicate asks for it.

After each failed attempt the predicate sees the failure, the element and its
index, and either asks for another attempt on the same element or gives the
element up. An element given up is left out, or its last failure is passed on.
One attempt, and one question, is one poll.
-/

namespace PullStream

/-- What becomes of an element after a failed attempt. -/
inductive Decision where
  | retry
  | giveUp
  deriving DecidableEq, Repr

/-- Decides after a failed attempt. -/
abbrev Judge (ω α : Type) := Failure → α → Nat → Time → ω → Decision × ω

/-- As `Judge`, but the decision may take a while. -/
abbrev SlowJudge (ω α : Type) :=
  Failure → α → Nat → Time → ω → Deferred ω Decision × ω

namespace Transducer

variable {ω α β : Type}

/-- The answer for an element that has been given up. -/
def givenUp (failing : Bool) (e : Failure) : Answer β :=
  if failing then .fail e else .skip

/-- The memory of `retry`: the index of the next element, and the element being
worked on. -/
structure Retrying (α : Type) where
  index : Nat := 0
  current : Option (α × Nat) := none

/-- The results of the operation. With `failing`, an element given up fails the
sequence. -/
def retry (failing : Bool) (judge : Judge ω α) (operation : Step ω α β) :
    Transducer ω α β where
  Memory := Retrying α
  start := {}
  before m now w :=
    m.current.map fun (a, i) =>
      match operation a i now w with
      | (.ok b, w) => (.item b, { m with current := none }, w)
      | (.error e, w) =>
        match judge e a i now w with
        | (.retry, w) => (.skip, m, w)
        | (.giveUp, w) => (givenUp failing e, { m with current := none }, w)
  item m a _ w := (.skip, { index := m.index + 1, current := some (a, m.index) }, w)

/-- What `retryAsync` is waiting for. -/
inductive Attempt (ω α β : Type) where
  /-- An element. -/
  | idle
  /-- The next attempt on an element can begin. -/
  | ready (a : α) (index : Nat)
  /-- An attempt is under way. -/
  | trying (a : α) (index : Nat) (result : Pending ω (Except Failure β))
  /-- The attempt failed and the decision is awaited. -/
  | judging (a : α) (index : Nat) (failure : Failure) (decision : Pending ω Decision)
  /-- The input has ended. -/
  | spent

/-- The memory of `retryAsync`. -/
structure RetryingAsync (ω α β : Type) where
  index : Nat := 0
  attempt : Attempt ω α β := .idle

/-- As `retry`, with an operation and a predicate that may take a while. The
input is dropped at its end, and the stage must not be polled after it. -/
def retryAsync (failing : Bool) (judge : SlowJudge ω α) (operation : SlowStep ω α β) :
    Transducer ω α β where
  Memory := RetryingAsync ω α β
  start := {}
  before m now w :=
    match m.attempt with
    | .idle => none
    | .ready a i =>
      let (d, w) := operation a i now w
      some (.skip, { m with attempt := .trying a i (d.askedAt now) }, w)
    | .trying a i p =>
      if now < p.due then some (.wait, m, w)
      else
        match p.finish now w with
        | (.ok b, w) => some (.item b, { m with attempt := .idle }, w)
        | (.error e, w) =>
          let (d, w) := judge e a i now w
          some (.skip, { m with attempt := .judging a i e (d.askedAt now) }, w)
    | .judging a i e p =>
      if now < p.due then some (.wait, m, w)
      else
        match p.finish now w with
        | (.retry, w) => some (.skip, { m with attempt := .ready a i }, w)
        | (.giveUp, w) => some (givenUp failing e, { m with attempt := .idle }, w)
    | .spent => some (.spent, m, w)
  item m a _ w := (.skip, { index := m.index + 1, attempt := .ready a m.index }, w)
  done m _ w := (.done, { m with attempt := .spent }, w)
  holds m := match m.attempt with | .spent => false | _ => true
  alarms m :=
    match m.attempt with
    | .trying _ _ p => [p.due]
    | .judging _ _ _ p => [p.due]
    | _ => []

end Transducer
end PullStream
