import PullStream.Proofs.Stage.Scores
import PullStream.Stage.Nesting

/-!
Sequences one after the other.

In a chain the end of one sequence is where the next one begins, and only the last end is passed
on. Appending chains two sequences; nesting chains those that the elements of an outer sequence
open. What comes next in a chain is told by the scripts of its links, by the link that is being
heard and by how much of it has been.

* `append_resumable`, `flatMapAsync_resumable` — a chain can be resumed if its links can.
-/

namespace PullStream.Machine

variable {ω α β ι : Type}

/-! ### Two sequences -/

/-- Which of two sequences is being heard, and how much of it has been. -/
inductive Link where
  | first (heard : Nat)
  | second (heard : Nat)

/-- What comes next of two sequences, one after the other. -/
def Link.next (script script' : Script α) : Link → Option (Link × Option (Arrival α))
  | .first n => (script n).map fun
    | .ended => (.second 0, none)
    | a => (.first (n + 1), some a)
  | .second n => (script' n).map fun a => (.second (n + 1), some a)

/-- Where two sequences are that are drained one after the other. -/
inductive Linked (first second : Machine ω α) : (first.append second).State → Link → Prop where
  | first {r t n} : first.Heard r n → second.Heard t 0 →
      Linked first second (r, t, false) (.first n)
  | second {r t n} : second.Heard t n → Linked first second (r, t, true) (.second n)

section Appending

variable {first second : Machine ω α} {script script' : Script α}
  {s : (first.append second).State} {p : Link} {r : first.State} {t : second.State} {n : Nat}

theorem linked_tick (linked : Linked first second s p) (now : Time) (w : ω) :
    Linked first second ((first.append second).tick s now w).2.1 p := by
  simp only [append]
  cases linked with
  | @first r t n below above =>
    have ticked := below.tick now w
    split
    · rename_i r' w' h
      rw [h] at ticked
      exact .first ticked above
    · rename_i r' w' h
      rw [h] at ticked
      exact .first ticked (above.tick now w')
  | second below =>
    split
    · exact .second below
    · exact .second (below.tick now _)

/-- While the first sequence is heard, its end is where the second one begins. -/
theorem linked_first (begins : first.GoesBy script)
    (below : first.Heard r n) (above : second.Heard t 0) (now : Time) (w : ω) :
    Proceeds (Link.next script script') (Linked first second) (.first n)
      ((first.append second).poll (r, t, false) now w) := by
  simp only [append, Bool.false_eq_true, if_false]
  split
  · rename_i r' w' h
    cases below.next begins h with
    | quiet none => cases none
    | arrives same there =>
      cases same
      refine .inr ⟨.second 0, by simp [Link.next, there, Answer.arrival?], fun _ => ?_⟩
      exact .second above
  · rename_i a r' w' notDone h
    cases below.next begins h with
    | quiet none next => exact .inl ⟨none, .first next above⟩
    | @arrives b same there next =>
      have ahead : Link.next script script' (.first n) = some (.first (n + 1), some b) := by
        cases b with
        | ended => exact absurd (Answer.arrival?_eq_ended.mp same) notDone
        | _ => simp [Link.next, there]
      refine .inr ⟨_, same ▸ ahead, fun goesOn => .first (next ?_) above⟩
      simpa [EndsWith, same] using goesOn

theorem linked_second (begins : second.GoesBy script')
    (below : second.Heard t n) (now : Time) (w : ω) :
    Proceeds (Link.next script script') (Linked first second) (.second n)
      ((first.append second).poll (r, t, true) now w) := by
  simp only [append, if_true]
  have next := below.next begins (a := (second.poll t now w).1) rfl
  cases next with
  | quiet none next => exact .inl ⟨none, .second next⟩
  | @arrives b same there next =>
    refine .inr ⟨.second (n + 1), by simp [Link.next, there, same], fun goesOn => ?_⟩
    exact .second (next (by simpa [EndsWith, same] using goesOn))

theorem append_resumable (resumable : first.Resumable) (resumable' : second.Resumable) :
    (first.append second).Resumable := by
  obtain ⟨script, begins⟩ := resumable.script
  obtain ⟨script', begins'⟩ := resumable'.script
  refine resumable_of_course (Link.next script script') (Linked first second) (.first 0) ?_ ?_ ?_
  · exact .first .start .start
  · exact fun now w linked => linked_tick linked now w
  · intro s p now w linked
    cases linked with
    | first below above => exact linked_first begins below above now w
    | second below => exact linked_second begins' below now w

end Appending

/-! ### Sequences inside a sequence -/

/-- What a nest is at. -/
inductive Nest (ι : Type) where
  | outer
  /-- The mapper's answer is awaited. -/
  | opening (choice : Except Failure ι)
  /-- An inner sequence is being heard. -/
  | within (i : ι) (heard : Nat)

/-- What comes next of the sequences inside a sequence: how many elements of the outer one have
been taken, and what the nest is at. -/
def Nest.next (script : Script α) (scripts : ι → Script β) (g : α → Nat → Except Failure ι) :
    Nat × Nest ι → Option ((Nat × Nest ι) × Option (Arrival β))
  | (n, .outer) => (script n).map fun
    | .item a => ((n + 1, .opening (g a n)), none)
    | .failure e => ((n, .outer), some (.failure e))
    | .ended => ((n, .outer), some .ended)
  | (n, .opening (.ok i)) => some ((n, .within i 0), none)
  | (n, .opening (.error e)) => some ((n, .outer), some (.failure e))
  | (n, .within i k) => (scripts i k).map fun
    | .ended => ((n, .outer), none)
    | a => ((n, .within i (k + 1)), some a)

/-- Where a nest is with what it is at. -/
inductive NestedAt (inner : ι → Machine ω β) : Nested ω ι inner → Nest ι → Prop where
  | outer : NestedAt inner .outer .outer
  | opening {p choice} : (∀ now w, (p.finish now w).1 = choice) →
      NestedAt inner (.opening p) (.opening choice)
  | within {i t k} : (inner i).Heard t k → NestedAt inner (.within i t) (.within i k)

/-- Where a nest is: its outer sequence has been drained up to its next element. -/
structure Nestled (outer : Machine ω α) (inner : ι → Machine ω β) (f : SlowStep ω α ι)
    (s : (outer.flatMapAsync inner f).State) (p : Nat × Nest ι) : Prop where
  index : s.2.1 = p.1
  outer : outer.Heard s.1 p.1
  nested : NestedAt inner s.2.2 p.2

section Nesting

variable {outer : Machine ω α} {inner : ι → Machine ω β} {f : SlowStep ω α ι}
  {g : α → Nat → Except Failure ι} {script : Script α} {scripts : ι → Script β} {r : outer.State}
  {n : Nat}

theorem nestled_tick {s : (outer.flatMapAsync inner f).State} {p : Nat × Nest ι}
    (nestled : Nestled outer inner f s p) (now : Time) (w : ω) :
    Nestled outer inner f ((outer.flatMapAsync inner f).tick s now w).2.1 p := by
  obtain ⟨r, index, nested⟩ := s
  obtain ⟨n, at'⟩ := p
  obtain ⟨same, below, there⟩ := nestled
  have ticked := below.tick now w
  simp only [flatMapAsync]
  split
  · rename_i r' w' h
    rw [h] at ticked
    exact ⟨same, ticked, there⟩
  · rename_i r' w' h
    rw [h] at ticked
    cases there with
    | outer => exact ⟨same, ticked, .outer⟩
    | opening finishes => exact ⟨same, ticked, .opening finishes⟩
    | within inside => exact ⟨same, ticked, .within (inside.tick now w')⟩

/-- The outer sequence is asked. -/
theorem nestled_outer (begins : outer.GoesBy script)
    (gives : f.Gives g) (below : outer.Heard r n) (now : Time) (w : ω) :
    Proceeds (Nest.next script scripts g) (Nestled outer inner f) (n, .outer)
      ((outer.flatMapAsync inner f).poll (r, n, .outer) now w) := by
  simp only [flatMapAsync]
  split
  · rename_i a r' w' h
    cases below.next begins h with
    | quiet none => cases none
    | arrives same there next =>
      cases same
      refine .inr ⟨(n + 1, .opening (g a n)), by simp [Nest.next, there, Answer.arrival?], ?_⟩
      exact fun _ => ⟨rfl, next rfl, .opening fun now' w'' => gives a n now w' now' w''⟩
  · rename_i g' r' w' h
    cases below.next begins h with
    | quiet none next =>
      refine .inl ⟨?_, rfl, next, .outer⟩
      cases g' <;> first | rfl | cases none
    | arrives same there =>
      right
      refine ⟨(n, .outer), ?_, ?_⟩
      · cases g' <;> cases same <;> simp [Nest.next, there, Answer.arrival?]
      · intro goesOn
        refine absurd ?_ goesOn
        cases g' <;> cases same <;> exact ⟨_, rfl, rfl⟩

/-- The mapper's answer is awaited. -/
theorem nestled_opening (below : outer.Heard r n) {p : Pending ω (Except Failure ι)}
    {choice : Except Failure ι} (finishes : ∀ now w, (p.finish now w).1 = choice) (now : Time)
    (w : ω) :
    Proceeds (Nest.next script scripts g) (Nestled outer inner f) (n, .opening choice)
      ((outer.flatMapAsync inner f).poll (r, n, .opening p) now w) := by
  have result := finishes now w
  simp only [flatMapAsync]
  split
  · exact .inl ⟨rfl, rfl, below, .opening finishes⟩
  · right
    split
    · rename_i i w' h
      rw [h] at result
      cases result
      exact ⟨_, rfl, fun _ => ⟨rfl, below, .within .start⟩⟩
    · rename_i e w' h
      rw [h] at result
      cases result
      exact ⟨_, rfl, fun _ => ⟨rfl, below, .outer⟩⟩

/-- An inner sequence is asked. -/
theorem nestled_within
    (begins : ∀ i, (inner i).GoesBy (scripts i))
    (below : outer.Heard r n) {i : ι} {t : (inner i).State} {k : Nat}
    (inside : (inner i).Heard t k) (now : Time) (w : ω) :
    Proceeds (Nest.next script scripts g) (Nestled outer inner f) (n, .within i k)
      ((outer.flatMapAsync inner f).poll (r, n, .within i t) now w) := by
  simp only [flatMapAsync]
  split
  · rename_i t' w' h
    cases inside.next (begins i) h with
    | quiet none => cases none
    | arrives same there =>
      cases same
      exact .inr ⟨(n, .outer), by simp [Nest.next, there, Answer.arrival?], fun _ =>
        ⟨rfl, below, .outer⟩⟩
  · rename_i a t' w' notDone h
    cases inside.next (begins i) h with
    | quiet none next => exact .inl ⟨none, rfl, below, .within next⟩
    | @arrives b same there next =>
      have ahead : Nest.next script scripts g (n, .within i k) =
          some ((n, .within i (k + 1)), some b) := by
        cases b with
        | ended => exact absurd (Answer.arrival?_eq_ended.mp same) notDone
        | _ => simp [Nest.next, there]
      refine .inr ⟨_, same ▸ ahead, fun goesOn => ⟨rfl, below, .within (next ?_)⟩⟩
      simpa [EndsWith, same] using goesOn

theorem flatMapAsync_resumable (resumable : outer.Resumable)
    (resumables : ∀ i, (inner i).Resumable) (gives : f.Gives g) :
    (outer.flatMapAsync inner f).Resumable := by
  obtain ⟨script, begins⟩ := resumable.script
  choose scripts begins' using fun i => (resumables i).script
  refine resumable_of_course (Nest.next script scripts g) (Nestled outer inner f) (0, .outer)
    ?_ ?_ ?_
  · exact ⟨rfl, .start, .outer⟩
  · exact fun now w nestled => nestled_tick nestled now w
  · rintro ⟨r, _, nested⟩ ⟨n, at'⟩ now w ⟨rfl, below, there⟩
    cases there with
    | outer => exact nestled_outer begins gives below now w
    | opening finishes => exact nestled_opening below finishes now w
    | within inside => exact nestled_within begins' below inside now w

end Nesting

end PullStream.Machine
