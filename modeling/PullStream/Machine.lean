import PullStream.Failure

/-!
Machines: what can be pulled, one poll at a time.

A machine has a state of its own and works in a world `ω` that step functions
read and change (a log, counters, shared resources). A poll answers with an item
or with a signal. Polls are small: a machine that made progress without having an
item answers `skip` and is polled again, so that no poll contains a loop over its
input and every definition here is total.

Beside the side that is pulled, a machine may own background work: tasks that
fill the feeds it reads from. They work in rounds. In a round each task goes on
until it has to wait, without another task in between, those below first; `tick`
takes one step of a round and says whether there was one to take. Background work
is at rest after a round without a step. `alarms` lists the instants at which
waiting parts can go on; `drop` tells the machine that nobody will pull it again,
which background work notices in its own time.
-/

namespace PullStream

/-- An instant, or a length of time, in milliseconds. -/
abbrev Time := Nat

/-- What a poll answers when it has no item. -/
inductive Signal where
  /-- A failure takes the place of an item. -/
  | fail (failure : Failure)
  /-- There is no further item. -/
  | done
  /-- Progress without an item: poll again. -/
  | skip
  /-- Other work goes first; poll again within the same instant. -/
  | pause
  /-- Nothing to say until the clock or background work moves. -/
  | wait
  /-- The machine was used against its rules and has broken down. -/
  | crash (message : String)
  deriving DecidableEq, Repr

/-- The answer to a poll. -/
inductive Answer (α : Type) where
  | item (value : α)
  | signal (signal : Signal)
  deriving DecidableEq, Repr

namespace Answer

variable {α β : Type}

/-- A failure in place of an item. -/
@[match_pattern] abbrev fail (failure : Failure) : Answer α := .signal (.fail failure)

/-- The end. -/
@[match_pattern] abbrev done : Answer α := .signal .done

/-- Progress without an item. -/
@[match_pattern] abbrev skip : Answer α := .signal .skip

/-- Others first. -/
@[match_pattern] abbrev pause : Answer α := .signal .pause

/-- Not yet. -/
@[match_pattern] abbrev wait : Answer α := .signal .wait

/-- Broken down. -/
@[match_pattern] abbrev crash (message : String) : Answer α := .signal (.crash message)

/-- What a machine answers that is polled after its end and is not made for it. -/
def spent : Answer α :=
  .crash "Unfold must not be polled after it returned `Poll::Ready(None)`"

/-- The answer that a computed result gives. -/
def ofExcept : Except Failure α → Answer α
  | .ok a => .item a
  | .error e => .fail e

/-- The answer that a filter's decision on `a` gives. -/
def ofDecision (a : α) : Except Failure Bool → Answer α
  | .ok true => .item a
  | .ok false => .skip
  | .error e => .fail e

end Answer

/-- A state, polled for items, with the background work it owns. -/
structure Machine (ω α : Type) : Type 1 where
  State : Type
  start : State
  /-- Asks for an item. -/
  poll : State → Time → ω → Answer α × State × ω
  /-- One step of a round of background work; `false` when the round is over. -/
  tick : State → Time → ω → Bool × State × ω
  /-- When waiting parts can go on. Instants that have passed may be listed. -/
  alarms : State → List Time
  /-- Nobody will poll again. -/
  drop : State → State

/-! ### Rounds -/

/-- What a step of a task comes to. -/
inductive Stir where
  /-- The task goes on. -/
  | moved
  /-- It has moved and lets others go first. -/
  | paused
  /-- It has to wait. -/
  | blocked
  deriving DecidableEq, Repr

/-- Whose turn it is in a round: that of the work below a task, of the task
itself, or of nobody. -/
inductive Turn where
  | below
  | own
  | nobody
  deriving DecidableEq, Repr

/-- Whether there was a step, and whose turn it is after it. -/
def Stir.turn : Stir → Bool × Turn
  | .moved => (true, .own)
  | .paused => (true, .nobody)
  | .blocked => (false, .below)

/-- One step of the round of a task and the work below it. -/
def Turn.step {σ ω : Type} (below : σ → ω → Bool × σ × ω) (own : σ → ω → Stir × σ × ω)
    (turn : Turn) (s : σ) (w : ω) : Bool × (σ × Turn) × ω :=
  let ownStep (s : σ) (w : ω) :=
    let (stir, s, w) := own s w
    let (moved, turn) := stir.turn
    (moved, (s, turn), w)
  match turn with
  | .below =>
    match below s w with
    | (true, s, w) => (true, (s, .below), w)
    | (false, s, w) => ownStep s w
  | .own => ownStep s w
  | .nobody => (false, (s, .below), w)

/-! ### Step functions -/

/-- A result that is ready a while after it was asked for, and is computed then. -/
structure Deferred (ω β : Type) where
  delay : Time
  finish : Time → ω → β × ω

/-- A deferred result on its way. -/
structure Pending (ω β : Type) where
  due : Time
  finish : Time → ω → β × ω

/-- A deferred result that was asked for at `now`. -/
def Deferred.askedAt {ω β : Type} (d : Deferred ω β) (now : Time) : Pending ω β :=
  { due := now + d.delay, finish := d.finish }

/-- A step function: from an element and its index to a result, at once. -/
abbrev Step (ω α β : Type) := α → Nat → Time → ω → Except Failure β × ω

/-- A step function whose result may take a while. -/
abbrev SlowStep (ω α β : Type) :=
  α → Nat → Time → ω → Deferred ω (Except Failure β) × ω

/-- A step function that depends on the element and its index only. -/
def Step.pure {ω α β : Type} (f : α → Nat → Except Failure β) : Step ω α β :=
  fun a i _ w => (f a i, w)

/-- A step function on results, kept where it fails. -/
def Step.map {ω α β γ : Type} (f : Step ω α β) (g : α → β → γ) : Step ω α γ :=
  fun a i now w =>
    let (r, w) := f a i now w
    (r.map (g a), w)

/-- As `Step.map`, for results that take a while. -/
def SlowStep.map {ω α β γ : Type} (f : SlowStep ω α β) (g : α → β → γ) : SlowStep ω α γ :=
  fun a i now w =>
    let (d, w) := f a i now w
    ({ delay := d.delay
       finish := fun now w =>
        let (r, w) := d.finish now w
        (r.map (g a), w) }, w)

namespace Machine

variable {ω α : Type}

/-- A machine without background work, from what a poll does. -/
def immediate {σ : Type} (start : σ) (poll : σ → Time → ω → Answer α × σ × ω) :
    Machine ω α where
  State := σ
  start := start
  poll := poll
  tick s _ w := (false, s, w)
  alarms _ := []
  drop s := s

/-- The machine, from another state on. -/
def resumed (m : Machine ω α) (s : m.State) : Machine ω α :=
  { m with start := s }

/-- Hands out the items of a list, failures in their places, then reports the
end however often it is asked. -/
def ofResults (items : List (Except Failure α)) : Machine ω α :=
  immediate items fun s _ w =>
    match s with
    | [] => (.done, [], w)
    | r :: rest => (.ofExcept r, rest, w)

/-- Hands out the items of a list. -/
def ofList (items : List α) : Machine ω α :=
  ofResults (items.map .ok)

/-- The items of a list, after another machine has been emptied into it: that
machine is dropped but its background work goes on. -/
def ofListAfter (m : Machine ω α) (state : m.State) (items : List α) : Machine ω α where
  State := List α × m.State
  start := (items, m.drop state)
  poll s _ w :=
    match s with
    | ([], r) => (.done, ([], r), w)
    | (a :: rest, r) => (.item a, (rest, r), w)
  tick s now w :=
    let (moved, r, w) := m.tick s.2 now w
    (moved, (s.1, r), w)
  alarms s := m.alarms s.2
  drop s := s

/-- Hands out `value start`, `value (start + 1)` and so on without an end. -/
def counting (value : Nat → α) : Machine ω α :=
  immediate 0 fun n _ w => (.item (value n), n + 1, w)

/-- Stops at the first failure: once a failure has been handed out every later
poll reports the end, and the machine behind is not polled again. -/
def guarded (m : Machine ω α) : Machine ω α where
  State := m.State × Bool
  start := (m.start, false)
  poll s now w :=
    if s.2 then (.done, s, w)
    else
      match m.poll s.1 now w with
      | (.fail e, s, w) => (.fail e, (s, true), w)
      | (a, s, w) => (a, (s, false), w)
  tick s now w :=
    let (moved, r, w) := m.tick s.1 now w
    (moved, (r, s.2), w)
  alarms s := m.alarms s.1
  drop s := (m.drop s.1, s.2)

/-- The items of one machine after those of another. The first is dropped when
it has reported its end and is not polled again. -/
def append (first second : Machine ω α) : Machine ω α where
  State := first.State × second.State × Bool
  start := (first.start, second.start, false)
  poll s now w :=
    if s.2.2 then
      let (a, t, w) := second.poll s.2.1 now w
      (a, (s.1, t, true), w)
    else
      match first.poll s.1 now w with
      | (.done, r, w) => (.skip, (first.drop r, s.2.1, true), w)
      | (a, r, w) => (a, (r, s.2.1, false), w)
  tick s now w :=
    match first.tick s.1 now w with
    | (true, r, w) => (true, (r, s.2), w)
    | (false, r, w) =>
      let (moved, t, w) := second.tick s.2.1 now w
      (moved, (r, t, s.2.2), w)
  alarms s := first.alarms s.1 ++ second.alarms s.2.1
  drop s := (if s.2.2 then s.1 else first.drop s.1, second.drop s.2.1, s.2.2)

end Machine
end PullStream
