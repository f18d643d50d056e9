import PullStream.Scenario.Function
import PullStream.Scenario.Log
import PullStream.Sequence

/-!
Scripted steps: step functions that log what they do.

A script says what a step computes, when it fails, when it panics and how long it
takes. A step that answers at once logs its call and then fails or computes. A
step that takes a while logs its call, waits, logs that it is done and then fails
or computes; as a worker it may panic when it is called, or after its wait and
before it is done. Retried operations also fail for their first attempts on some
elements.
-/

namespace PullStream.Scenario

open PullStream

/-- How long a step takes, by index. -/
inductive Delay where
  | fixed (length : Time)
  | cycle (lengths : List Time)
  /-- Zero to four milliseconds, by a rule that looks irregular. -/
  | jittered
  deriving Repr

/-- The jittered delay of an index. -/
def jitteredDelay (index : Nat) : Time :=
  index * 7 % 5

/-- The delay of an index. -/
def Delay.at (d : Delay) (index : Nat) : Time :=
  match d with
  | .fixed length => length
  | .cycle lengths => lengths[index % lengths.length]?.getD 0
  | .jittered => jitteredDelay index

/-- A failure on the elements for which a predicate holds. -/
structure Fault where
  condition : Predicate
  failure : Failure
  deriving Repr

/-- A panic on the elements for which a predicate holds. -/
structure Panic where
  condition : Predicate
  payload : Payload
  /-- Whether the panic comes when the worker is called. -/
  atCall : Bool
  deriving Repr

/-- A scripted step. -/
structure Script where
  function : Function := .id
  predicate : Predicate := .always
  fault : Option Fault := none
  panic : Option Panic := none
  delay : Delay := .fixed 0
  deriving Repr

namespace Script

variable {ρ : Type}

/-- What a step computes from an element and its index. -/
abbrev Compute (ρ : Type) := Element → Nat → ρ

/-- The failure of the script on an element, if it has one there. -/
def failure? (s : Script) (e : Element) (index : Nat) : Option Failure :=
  s.fault.bind fun f => if f.condition.holds e index then some f.failure else none

/-- The panic of the script on an element, if it has one there. -/
def panic? (s : Script) (atCall : Bool) (e : Element) (index : Nat) : Option Payload :=
  s.panic.bind fun p =>
    if p.atCall = atCall ∧ p.condition.holds e index then some p.payload else none

/-- Fails or computes. -/
def result (s : Script) (compute : Compute ρ) (e : Element) (index : Nat) :
    Except Failure ρ :=
  match s.failure? e index with
  | some f => .error f
  | none => .ok (compute e index)

/-- The script as a step that answers at once. -/
def step (s : Script) (label : String) (compute : Compute ρ) : PullStream.Step Log Element ρ :=
  fun e i now log => (s.result compute e i, log.add now label .call i (.element e))

/-- The script as a step that takes a while. -/
def slowStep (s : Script) (label : String) (compute : Compute ρ) :
    SlowStep Log Element ρ :=
  fun e i now log =>
    ({ delay := s.delay.at i
       finish := fun now log =>
        (s.result compute e i, log.add now label .done i (.element e)) },
      log.add now label .call i (.element e))

/-- The script as a worker. -/
def riskyStep (s : Script) (label : String) (compute : Compute ρ) :
    Sequence.RiskyStep Log Element ρ :=
  fun e i now log =>
    let log := log.add now label .call i (.element e)
    match s.panic? true e i with
    | some payload => (.panicked payload, log)
    | none =>
      (.started
        { delay := s.delay.at i
          finish := fun now log =>
            match s.panic? false e i with
            | some payload => (.error payload, log)
            | none =>
              (.ok (s.result compute e i), log.add now label .done i (.element e)) }, log)

/-! ### What steps compute -/

/-- The mapped element. -/
def mapped (s : Script) : Compute Element := s.function.apply

/-- The mapped element's items; an element that is no list is an item itself. -/
def mappedItems (s : Script) : Compute (List Element) := fun e i =>
  match s.function.apply e i with
  | .list items => items
  | e => [e]

/-- Whether the predicate holds. -/
def decided (s : Script) : Compute Bool := s.predicate.holds

/-- Nothing. -/
def visited : Compute Unit := fun _ _ => ()

/-- The mapped element where the predicate holds. -/
def mappedWhere (s : Script) : Compute (Option Element) := fun e i =>
  if s.predicate.holds e i then some (s.function.apply e i) else none

end Script

/-! ### Retried operations -/

/-- The operation on the element of an index fails for its first attempts. -/
structure Flaky where
  index : Nat
  times : Nat
  failure : Failure
  deriving Repr

/-- How the judge decides. -/
inductive Verdicts where
  /-- Retry while the element has failed this often at most. -/
  | atMost (failures : Nat)
  /-- Answer by the number of the question, and give up past the last. -/
  | byQuestion (decisions : List Decision)
  deriving Repr

/-- A scripted operation with its judge. -/
structure Retrying where
  script : Script
  flaky : List Flaky := []
  verdicts : Verdicts
  failing : Bool := false
  /-- How long a slow judge takes. -/
  judging : Time := 0
  deriving Repr

namespace Retrying

/-- The failure of an attempt on an element, after so many earlier attempts. -/
def failure? (r : Retrying) (index earlier : Nat) : Option Failure :=
  (r.flaky.find? (·.index == index)).bind fun f =>
    if earlier < f.times then some f.failure else none

/-- The result of an attempt, after so many earlier attempts. -/
def result (r : Retrying) (e : Element) (index earlier : Nat) : Except Failure Element :=
  match r.script.failure? e index, r.failure? index earlier with
  | some f, _ => .error f
  | none, some f => .error f
  | none, none => .ok (r.script.function.apply e index)

/-- The operation, at once. -/
def step (r : Retrying) (label : String) : PullStream.Step Log Element Element :=
  fun e i now log =>
    let (earlier, log) := (log.add now label .call i (.element e)).count label (.attempts i)
    (r.result e i earlier, log)

/-- The operation, in a while. -/
def slowStep (r : Retrying) (label : String) : SlowStep Log Element Element :=
  fun e i now log =>
    let (earlier, log) := (log.add now label .call i (.element e)).count label (.attempts i)
    ({ delay := r.script.delay.at i
       finish := fun now log =>
        (r.result e i earlier, log.add now label .done i (.element e)) }, log)

/-- The judge, at once. -/
def judge (r : Retrying) (label : String) : Judge Log Element :=
  fun failure e i now log =>
    let log := log.add now label .ask i (.question failure e)
    let (failures, log) := log.count label (.failures i)
    let (question, log) := log.count label .questions
    (match r.verdicts with
      | .atMost most => if failures + 1 ≤ most then .retry else .giveUp
      | .byQuestion decisions => decisions[question]?.getD .giveUp, log)

/-- The judge, in a while. -/
def slowJudge (r : Retrying) (label : String) : SlowJudge Log Element :=
  fun failure e i now log =>
    let (decision, log) := r.judge label failure e i now log
    ({ delay := r.judging, finish := fun _ log => (decision, log) }, log)

end Retrying

/-! ### Waits between pulls -/

/-- The waits of a throttled stage. -/
inductive Waits where
  | fixed (length : Time)
  /-- In turn, over and over, and logged. -/
  | cycle (lengths : List Time)
  deriving Repr

/-- The pause before a pull. -/
def Waits.pause (p : Waits) (label : String) : Pause Log :=
  match p with
  | .fixed length => fun _ log => (length, log)
  | .cycle lengths => fun now log =>
    let (k, log) := log.count label .waits
    let length := lengths[k % lengths.length]?.getD 0
    (length, log.add now label .wait k (.element (.ofNat length)))

end PullStream.Scenario
