import PullStream.Transducer

/-!
Sequences inside a sequence: each element opens an inner sequence, and the inner
sequences are handed out one after the other.

The inner sequences come from a family of machines, `inner i` for each `i : ι`,
so that the mapper answers with a member of the family. The next element of the
outer sequence is asked for when the current inner sequence has reported its end.
-/

namespace PullStream.Machine

variable {ω α β ι : Type}

/-- What a nesting stage is at. -/
inductive Nested (ω : Type) (ι : Type) (inner : ι → Machine ω β) where
  /-- The outer sequence is asked. -/
  | outer
  /-- The mapper's answer is awaited. -/
  | opening (choice : Pending ω (Except Failure ι))
  /-- An inner sequence is asked. -/
  | within (i : ι) (state : (inner i).State)

/-- The elements of the inner sequences that the mapper opens. -/
def flatMapAsync (outer : Machine ω α) (inner : ι → Machine ω β) (f : SlowStep ω α ι) :
    Machine ω β where
  State := outer.State × Nat × Nested ω ι inner
  start := (outer.start, 0, .outer)
  poll s now w :=
    let (r, index, nested) := s
    match nested with
    | .outer =>
      match outer.poll r now w with
      | (.item a, r, w) =>
        let (d, w) := f a index now w
        (.skip, (r, index + 1, .opening (d.askedAt now)), w)
      | (.signal g, r, w) => (.signal g, (r, index, .outer), w)
    | .opening p =>
      if now < p.due then (.wait, s, w)
      else
        match p.finish now w with
        | (.ok i, w) => (.skip, (r, index, .within i (inner i).start), w)
        | (.error e, w) => (.fail e, (r, index, .outer), w)
    | .within i t =>
      match (inner i).poll t now w with
      | (.done, _, w) => (.skip, (r, index, .outer), w)
      | (a, t, w) => (a, (r, index, .within i t), w)
  tick s now w :=
    let (r, index, nested) := s
    match outer.tick r now w with
    | (true, r, w) => (true, (r, index, nested), w)
    | (false, r, w) =>
      match nested with
      | .within i t =>
        let (moved, t, w) := (inner i).tick t now w
        (moved, (r, index, .within i t), w)
      | nested => (false, (r, index, nested), w)
  alarms s :=
    outer.alarms s.1 ++
      match s.2.2 with
      | .outer => []
      | .opening p => [p.due]
      | .within i t => (inner i).alarms t
  drop s :=
    let (r, index, nested) := s
    (outer.drop r, index,
      match nested with
      | .within i t => .within i ((inner i).drop t)
      | nested => nested)

end PullStream.Machine
