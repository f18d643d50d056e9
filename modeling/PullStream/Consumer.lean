import PullStream.Machine

/-!
Consumers: what pulls a sequence to a result.

A consumer says what it wants next: an element, a rest until some instant, or
nothing more because it has its result. It receives what the sequence answers.
Most consumers fold: they carry a memory through the elements with their indices
and may stop early; a failure of the sequence is their result at once.
-/

namespace PullStream

/-- What a consumer receives from its sequence. -/
inductive Arrival (α : Type) where
  | item (value : α)
  | failure (failure : Failure)
  | ended
  deriving DecidableEq, Repr

/-- What a consumer wants. -/
inductive Want (ρ : Type) where
  | pull
  | rest (due : Time)
  | finish (result : ρ)
  deriving DecidableEq, Repr

/-- A consumer of elements of type `α` with a result of type `ρ`. -/
structure Consumer (ω α ρ : Type) : Type 1 where
  Memory : Type
  start : Memory
  want : Memory → Want ρ
  /-- Takes what the sequence answered. -/
  receive : Memory → Arrival α → Time → ω → Memory × ω
  /-- Goes on after a rest. -/
  wake : Memory → Time → ω → Memory × ω := fun m _ w => (m, w)

namespace Consumer

variable {ω α β ρ σ κ : Type}

/-- The result of a consumer that may fail. -/
abbrev Result (ρ : Type) := Except Failure ρ

/-! ### Folds -/

/-- What a fold makes of an element. -/
inductive Verdict (σ ρ : Type) where
  | goOn (memory : σ)
  | stop (result : ρ)
  | fail (failure : Failure)

/-- The memory of a fold. -/
inductive Folding (σ ρ : Type) where
  | running (memory : σ) (index : Nat)
  | finished (result : Result ρ)

/-- Folds the elements with their indices. `finish` turns the memory at the end
into the result. -/
def fold (start : σ) (item : σ → α → Nat → Time → ω → Verdict σ ρ × ω)
    (finish : σ → Result ρ) : Consumer ω α (Result ρ) where
  Memory := Folding σ ρ
  start := .running start 0
  want
    | .running _ _ => .pull
    | .finished r => .finish r
  receive m arrival now w :=
    match m, arrival with
    | .finished r, _ => (.finished r, w)
    | .running _ _, .failure e => (.finished (.error e), w)
    | .running s _, .ended => (.finished (finish s), w)
    | .running s i, .item a =>
      match item s a i now w with
      | (.goOn s, w) => (.running s (i + 1), w)
      | (.stop r, w) => (.finished (.ok r), w)
      | (.fail e, w) => (.finished (.error e), w)

/-- A fold whose step function may fail and never stops early. -/
def reduce (start : σ) (f : σ → Step ω α σ) (finish : σ → Result ρ) :
    Consumer ω α (Result ρ) :=
  fold start (fun s a i now w =>
    match f s a i now w with
    | (.ok s, w) => (.goOn s, w)
    | (.error e, w) => (.fail e, w)) finish

/-- All elements. -/
def toList : Consumer ω α (Result (List α)) :=
  reduce [] (fun taken a _ _ w => (.ok (a :: taken), w)) fun taken => .ok taken.reverse

/-- How many elements there are. -/
def drain : Consumer ω α (Result Nat) :=
  reduce 0 (fun n _ _ _ w => (.ok (n + 1), w)) .ok

/-- Runs a step function on each element. -/
def forEach (f : Step ω α Unit) : Consumer ω α (Result Unit) :=
  reduce () (fun _ => f) .ok

/-- Whether the step function says yes on some element; it is not run after the
first. -/
def any (p : Step ω α Bool) : Consumer ω α (Result Bool) :=
  fold () (fun _ a i now w =>
    match p a i now w with
    | (.ok true, w) => (.stop true, w)
    | (.ok false, w) => (.goOn (), w)
    | (.error e, w) => (.fail e, w)) fun _ => .ok false

/-- Whether the step function says yes on every element; it is not run after the
first no. -/
def all (p : Step ω α Bool) : Consumer ω α (Result Bool) :=
  fold () (fun _ a i now w =>
    match p a i now w with
    | (.ok true, w) => (.goOn (), w)
    | (.ok false, w) => (.stop false, w)
    | (.error e, w) => (.fail e, w)) fun _ => .ok true

/-- The first element, or what `missing` says if there is none. -/
def first (missing : Result α) : Consumer ω α (Result α) :=
  fold () (fun _ a _ _ w => (.stop a, w)) fun _ => missing

/-- The last element, or what `missing` says if there is none. -/
def last (missing : Result α) : Consumer ω α (Result α) :=
  fold none (fun _ a _ _ w => (.goOn (some a), w)) fun
    | some a => .ok a
    | none => missing

/-- The only element, or what `missing` says if there is none. A second element
is a failure. -/
def single (missing : Result α) : Consumer ω α (Result α) :=
  fold none (fun s a _ _ w =>
    match s with
    | none => (.goOn (some a), w)
    | some _ => (.fail .moreThanOne, w)) fun
    | some a => .ok a
    | none => missing

/-! ### Groups -/

/-- Groups in order of their first elements. -/
abbrev Groups (κ α : Type) := List (κ × List α)

/-- Adds an element behind the others of its key. -/
def addTo [DecidableEq κ] (key : κ) (a : α) : Groups κ α → Groups κ α
  | [] => [(key, [a])]
  | (k, as) :: rest =>
    if k = key then (k, as ++ [a]) :: rest else (k, as) :: addTo key a rest

/-- The elements by key. -/
def group [DecidableEq κ] (key : Step ω α κ) : Consumer ω α (Result (Groups κ α)) :=
  reduce [] (fun groups a i now w =>
    let (r, w) := key a i now w
    (r.map fun k => addTo k a groups, w)) .ok

/-- Elements that carry their keys, by key. -/
def groupKeyed [DecidableEq κ] : Consumer ω (κ × α) (Result (Groups κ α)) :=
  reduce [] (fun groups entry _ _ w => (.ok (addTo entry.1 entry.2 groups), w)) .ok

/-- The one element of each key; a second element of a key is a failure. -/
def groupSingle [DecidableEq κ] (key : Step ω α κ) : Consumer ω α (Result (List (κ × α))) :=
  reduce [] (fun entries a i now w =>
    match key a i now w with
    | (.ok k, w) =>
      if entries.any (·.1 = k) then (.error (.duplicateKey i), w)
      else (.ok (entries ++ [(k, a)]), w)
    | (.error e, w) => (.error e, w)) .ok

/-! ### Consumers that wait -/

/-- The memory of `forEachAsync`. -/
inductive Visiting (ω : Type) where
  | pulling (index : Nat)
  | acting (index : Nat) (action : Pending ω (Except Failure Unit))
  | finished (result : Result Unit)

/-- Runs a step function on each element and waits for it before the next. -/
def forEachAsync (f : SlowStep ω α Unit) : Consumer ω α (Result Unit) where
  Memory := Visiting ω
  start := .pulling 0
  want
    | .pulling _ => .pull
    | .acting _ p => .rest p.due
    | .finished r => .finish r
  receive m arrival now w :=
    match m, arrival with
    | .pulling i, .item a =>
      let (d, w) := f a i now w
      (.acting i (d.askedAt now), w)
    | .pulling _, .failure e => (.finished (.error e), w)
    | .pulling _, .ended => (.finished (.ok ()), w)
    | m, _ => (m, w)
  wake m now w :=
    match m with
    | .acting i p =>
      match p.finish now w with
      | (.ok (), w) => (.pulling (i + 1), w)
      | (.error e, w) => (.finished (.error e), w)
    | m => (m, w)

/-- What pulling to the end has given: the elements, the failure that ended them,
and what one more pull after the failure answered. -/
structure Pulled (α : Type) where
  items : List α := []
  failure : Option Failure := none
  after : Option (Arrival α) := none
  deriving DecidableEq, Repr

/-- Pulls to the end or to a failure, and once more after a failure. -/
def pullAll : Consumer ω α (Pulled α) where
  Memory := Pulled α × Bool
  start := ({}, false)
  want m := if m.2 then .finish { m.1 with items := m.1.items.reverse } else .pull
  receive m arrival _ w :=
    match m.1.failure, arrival with
    | some _, a => (({ m.1 with after := some a }, true), w)
    | none, .item a => (({ m.1 with items := a :: m.1.items }, false), w)
    | none, .failure e => (({ m.1 with failure := some e }, false), w)
    | none, .ended => ((m.1, true), w)

/-- Everything the sequence answers before its end. -/
def arrivals : Consumer ω α (List (Arrival α)) where
  Memory := List (Arrival α) × Bool
  start := ([], false)
  want m := if m.2 then .finish m.1.reverse else .pull
  receive m arrival _ w :=
    match arrival with
    | .ended => ((m.1, true), w)
    | a => ((a :: m.1, false), w)

end Consumer
end PullStream
