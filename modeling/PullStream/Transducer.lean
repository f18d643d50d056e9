import PullStream.Machine

/-!
Transducers: what a stage does to the sequence it stands on.

A transducer has a memory and three reactions, to an item of its input, to a
failure and to the end. Before it asks its input it may have something of its
own to answer: items it holds back, a wait, an end it has already decided on.
`Machine.via` puts a transducer on a machine; the background work of the machine
goes on below it.
-/

namespace PullStream

/-- A stage: a memory and its reactions. -/
structure Transducer (ω α β : Type) : Type 1 where
  Memory : Type
  start : Memory
  /-- What to answer without asking the input; `none` asks it. -/
  before : Memory → Time → ω → Option (Answer β × Memory × ω) := fun _ _ _ => none
  /-- The reaction to an item. -/
  item : Memory → α → Time → ω → Answer β × Memory × ω
  /-- The reaction to a failure. It is passed on unless a stage says otherwise. -/
  fail : Memory → Failure → Time → ω → Answer β × Memory × ω :=
    fun m e _ w => (.fail e, m, w)
  /-- The reaction to the end of the input. It is passed on unless a stage says
  otherwise. -/
  done : Memory → Time → ω → Answer β × Memory × ω := fun m _ w => (.done, m, w)
  /-- Whether the input is still held; it is dropped when this turns false. -/
  holds : Memory → Bool := fun _ => true
  /-- When a waiting stage goes on. -/
  alarms : Memory → List Time := fun _ => []

namespace Machine

variable {ω α β : Type}

/-- The state of the input after the memory moved from `m` to `m'`. -/
def release (input : Machine ω α) (t : Transducer ω α β) (m m' : t.Memory)
    (s : input.State) : input.State :=
  if t.holds m && !t.holds m' then input.drop s else s

/-- A machine below a transducer. -/
def via (input : Machine ω α) (t : Transducer ω α β) : Machine ω β where
  State := input.State × t.Memory
  start := (input.start, t.start)
  poll s now w :=
    match t.before s.2 now w with
    | some (b, m, w) => (b, (input.release t s.2 m s.1, m), w)
    | none =>
      match input.poll s.1 now w with
      | (.item a, r, w) =>
        let (b, m, w) := t.item s.2 a now w
        (b, (input.release t s.2 m r, m), w)
      | (.fail e, r, w) =>
        let (b, m, w) := t.fail s.2 e now w
        (b, (input.release t s.2 m r, m), w)
      | (.done, r, w) =>
        let (b, m, w) := t.done s.2 now w
        (b, (input.release t s.2 m r, m), w)
      | (.signal g, r, w) => (.signal g, (r, s.2), w)
  tick s now w :=
    let (moved, r, w) := input.tick s.1 now w
    (moved, (r, s.2), w)
  alarms s := t.alarms s.2 ++ input.alarms s.1
  drop s := (if t.holds s.2 then input.drop s.1 else s.1, s.2)

end Machine
end PullStream
