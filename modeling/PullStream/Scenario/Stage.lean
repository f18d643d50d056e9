import PullStream.Clockwork
import PullStream.Scenario.Source

/-!
Scripted stages, and how a pipeline is put together from them.

Most stages only describe what is to be done when somebody pulls. Two of them,
`toImmediate` and `materialize`, pull when they are put on: they empty the sequence
below them into a list, which takes time and may fail. Background work below goes
on meanwhile, and so does that of the pipelines around a pipeline that is being
put together.
-/

namespace PullStream.Scenario

open PullStream

/-- A stage of a pipeline. -/
inductive Stage where
  | map (s : Script)
  | mapAsync (s : Script)
  | flatMap (s : Script)
  /-- `faults` are the failures among inner items, by inner position. -/
  | flatMapAsync (s : Script) (innerWaits : Bool) (faults : Option Fault)
  | filter (s : Script)
  | filterAsync (s : Script)
  | intercept (s : Script)
  | interceptAsync (s : Script)
  | take (count : Nat)
  | skip (count : Nat)
  | takeWhile (s : Script)
  | assert (s : Script)
  | distinct (f : Function)
  | pairwise
  | concat (source : Source) (stages : List Stage)
  | defaultIfEmpty (value : Element)
  | sortBy (f : Function) (reverse : Bool)
  | batch (size : Nat)
  | buffer (size : Nat)
  | retry (r : Retrying)
  | retryAsync (r : Retrying)
  | throttle (waits : Waits)
  | interruptEvery (count : Nat)
  | interruptPerSecond (times : Nat)
  | parallelMap (s : Script) (concurrency : Nat) (keepOrder : Bool)
  | parallelFilter (s : Script) (concurrency : Nat) (keepOrder : Bool)
  | parallelIntercept (s : Script) (concurrency : Nat) (keepOrder : Bool)
  | parallelFilterMap (s : Script) (concurrency : Nat) (keepOrder : Bool)
  | toWaiting
  | toImmediate
  | materialize
  /-- Walked without waiting, and made a sequence again. -/
  | rewalked

/-! ### Company -/

/-- A machine whose background work goes on beside the one that is pulled. -/
def alongside (m : Machine Log Element) (company : Machine Log Element) :
    Machine Log Element where
  State := m.State × company.State
  start := (m.start, company.start)
  poll s now log :=
    let (a, t, log) := m.poll s.1 now log
    (a, (t, s.2), log)
  tick s now log :=
    match m.tick s.1 now log with
    | (true, t, log) => (true, (t, s.2), log)
    | (false, t, log) =>
      let (moved, c, log) := company.tick s.2 now log
      (moved, (t, c), log)
  alarms s := m.alarms s.1 ++ company.alarms s.2
  drop s := (m.drop s.1, s.2)

/-- A pipeline in the making: the instant, the log, and the state of the machine
whose background work goes on beside it. -/
structure Making (company : Machine Log Element) where
  now : Time
  log : Log
  state : company.State

/-- Why a pipeline could not be put together. -/
inductive Refusal where
  | failed (failure : Failure)
  | crashed (message : String)
  /-- The sequence to be emptied neither ends nor fails. -/
  | endless
  deriving Repr

/-- A sequence that has been put together, or what is left of one that could not
be: nobody pulls that, but its background work goes on. -/
structure Outcome (company : Machine Log Element) where
  sequence : Sequence Log Element
  refusal : Option Refusal
  making : Making company

/-- Empties a sequence into a list. -/
def empty {company : Machine Log Element} (s : Sequence Log Element)
    (m : Making company) : Outcome company :=
  let hub := (alongside s.machine company).hub
  let setting : Setting Log Element hub :=
    { now := m.now, world := m.log, state := (s.machine.start, m.state) }
  let (ending, setting) := setting.consume .toList 0
  let making := { now := setting.now, log := setting.world, state := setting.state.2 }
  let left (items : List Element) := s.emptiedInto setting.state.1 items
  match ending with
  | .finished (.ok items :: _) => ⟨left items, none, making⟩
  | .finished (.error e :: _) => ⟨left [], some (.failed e), making⟩
  | .crashed message => ⟨left [], some (.crashed message), making⟩
  | _ => ⟨left [], some .endless, making⟩

/-! ### Putting on stages -/

/-- The inner sequence of a nesting stage: a list, with failures in place of the
items for which a predicate holds. -/
def innerResults (faults : Option Fault) (items : List Element) :
    List (Except Failure Element) :=
  items.mapIdx fun i e =>
    match faults with
    | some f => if f.condition.holds e i then .error f.failure else .ok e
    | none => .ok e

/-- The bytes of an element. -/
def elementWidth : Nat := 24

/-- A pair as a list. -/
def pairList (p : Element × Element) : Element :=
  .list [p.1, p.2]

/-- A stage that only computes. -/
private def pure {α : Type} (s : Sequence Log α) (f : α → Element) : Sequence Log Element :=
  s.map (Step.pure fun a _ => .ok (f a))

/-- Puts on a stage that needs no time for it and does not break down. -/
def Stage.attach (stage : Stage) (label : String) (now : Time)
    (s : Sequence Log Element) : Except Failure (Sequence Log Element) :=
  match stage with
  | .map f => .ok (s.map (f.step label f.mapped))
  | .mapAsync f => .ok (s.mapAsync (f.slowStep label f.mapped))
  | .flatMap f => .ok (s.flatMap (f.step label f.mappedItems))
  | .flatMapAsync f innerWaits faults =>
    let inner (items : List (Except Failure Element)) : Sequence Log Element :=
      if innerWaits then (Sequence.ofResults items).toWaiting else .ofResults items
    .ok (s.flatMapAsync inner
      (f.slowStep label fun e i => innerResults faults (f.mappedItems e i)))
  | .filter f => .ok (s.filter (f.step label f.decided))
  | .filterAsync f => .ok (s.filterAsync (f.slowStep label f.decided))
  | .intercept f => .ok (s.intercept (f.step label Script.visited))
  | .interceptAsync f => .ok (s.interceptAsync (f.slowStep label Script.visited))
  | .take n => .ok (s.take n)
  | .skip n => .ok (s.skip n)
  | .takeWhile f => .ok (s.takeWhile (f.step label f.decided))
  | .assert f => .ok (s.assert (f.step label f.decided))
  | .distinct f => .ok (s.distinct fun e => f.apply e 0)
  | .pairwise => .ok (pure s.pairwise pairList)
  | .defaultIfEmpty v => .ok (s.defaultIfEmpty v)
  | .sortBy f reverse =>
    .ok (s.sort fun a b =>
      if reverse then (f.apply b 0).notAfter (f.apply a 0)
      else (f.apply a 0).notAfter (f.apply b 0))
  | .buffer size => s.buffer size
  | .retry r => .ok (s.retry r.failing (r.judge label) (r.step label))
  | .retryAsync r => .ok (s.retryAsync r.failing (r.slowJudge label) (r.slowStep label))
  | .throttle waits => .ok (s.throttle (waits.pause label))
  | .interruptEvery n => s.interruptEvery n
  | .interruptPerSecond n => s.interruptPerSecond n now
  | .parallelMap f n keep => s.parallelMap n keep (f.riskyStep label f.mapped)
  | .parallelFilter f n keep => s.parallelFilter n keep (f.riskyStep label f.decided)
  | .parallelIntercept f n keep =>
    s.parallelIntercept n keep (f.riskyStep label Script.visited)
  | .parallelFilterMap f n keep =>
    s.parallelFilterMap n keep (f.riskyStep label f.mappedWhere)
  | .toWaiting => .ok s.toWaiting
  | .rewalked => s.tryWalk.map .ofMachine
  | .concat _ _ | .batch _ | .toImmediate | .materialize => .ok s

/-- How far a pipeline has been put together: the modes it went through, latest
first, and the position of the stage that was refused, if one was. -/
structure Progress (company : Machine Log Element) where
  outcome : Outcome company
  modes : List Mode
  position : Nat

mutual

/-- Puts on a stage. -/
def Stage.puton (label : String) (position : Nat) (s : Sequence Log Element)
    {company : Machine Log Element} (m : Making company) : Stage → Outcome company
  | .toImmediate => if s.mode = .immediate then ⟨s, none, m⟩ else empty s m
  | .materialize => empty s m
  | .batch size =>
    match s.putBatch size elementWidth with
    | .built batches => ⟨pure batches Element.list, none, m⟩
    | .refused e => ⟨s, some (.failed e), m⟩
    | .crashed message => ⟨s, some (.crashed message), m⟩
  | .concat source stages =>
    let label := label ++ toString position ++ "."
    let inside : Making (alongside s.machine company) :=
      { now := m.now, log := m.log, state := (s.machine.start, m.state) }
    let second := (Stage.putonAll label stages
      ⟨⟨source.sequence label, none, inside⟩, [], 0⟩).outcome
    let inside := second.making
    let first : Sequence Log Element := ⟨s.mode, s.machine.resumed inside.state.1⟩
    ⟨first.append second.sequence, second.refusal,
      { now := inside.now, log := inside.log, state := inside.state.2 }⟩
  | stage =>
    match stage.attach (label ++ toString position) m.now s with
    | .ok s => ⟨s, none, m⟩
    | .error e => ⟨s, some (.failed e), m⟩

/-- Puts on stages in order, up to one that is refused. -/
def Stage.putonAll {company : Machine Log Element} (label : String) :
    List Stage → Progress company → Progress company
  | [], p => p
  | stage :: rest, p =>
    let outcome := stage.puton label p.position p.outcome.sequence p.outcome.making
    match outcome.refusal with
    | some _ => { p with outcome }
    | none =>
      Stage.putonAll label rest
        { outcome, modes := outcome.sequence.mode :: p.modes, position := p.position + 1 }

end

end PullStream.Scenario
