import PullStream.Proofs.Machine.Reach

/-!
Tellings: what a sequence has to tell, from its first pull to its end.

A telling is a finite list of items with an end or a failure behind them. Between two items
something may happen to the world, and what comes next may depend on the world: this is how the
calls of step functions take their places among the items. A machine plays a telling if each of
its polls tells the next part, at whatever instant and in whatever world it is made. Pulled up to
the first end, it then tells what the telling comes to (`Telling.run`), and does to the world what
the telling does.

* `Machine.Plays` — a machine plays a telling.
* `Machine.Drains` — pulling a machine up to its first end.
* `Machine.Plays.drains_iff` — the two agree.
-/

namespace PullStream

variable {ω α : Type}

/-- What a sequence has to tell. -/
inductive Telling (ω α : Type) where
  | done
  | fail (e : Failure)
  | item (a : α) (rest : Telling ω α)
  /-- Something happens to the world, and what comes next is told by the world before it. -/
  | act (effect : Time → ω → ω) (rest : Time → ω → Telling ω α)

namespace Telling

/-- A function is called, and what comes next depends on its result. -/
def call {ρ : Type} (f : Time → ω → ρ × ω) (next : ρ → Telling ω α) : Telling ω α :=
  .act (fun now w => (f now w).2) fun now w => next (f now w).1

/-- Who pulls: when each pull comes, and what has been done to the world by then. -/
abbrev Visitor (ω : Type) := Nat → ω → Time × ω

/-- The items, the failure behind them, and the world afterwards, if pull number `k` is going on
at `now`. After a failure one more pull finds the end. -/
def run (visitor : Visitor ω) : Nat → Time → ω → Telling ω α → List (Except Failure α) × ω
  | _, _, w, .done => ([], w)
  | k, _, w, .fail e => ([.error e], (visitor (k + 1) w).2)
  | k, _, w, .item a rest =>
    let visit := visitor (k + 1) w
    let (rs, w) := run visitor (k + 1) visit.1 visit.2 rest
    (.ok a :: rs, w)
  | k, now, w, .act effect rest => run visitor k now (effect now w) (rest now w)

/-- The same from the first pull on. -/
def pulled (visitor : Visitor ω) (w : ω) (S : Telling ω α) : List (Except Failure α) × ω :=
  S.run visitor 0 (visitor 0 w).1 (visitor 0 w).2

/-! ### Happenings -/

/-- What comes of a telling when some of what is to happen has happened. -/
inductive Comes (now : Time) : Telling ω α → ω → Telling ω α → ω → Prop where
  | refl {S w} : Comes now S w S w
  | act {effect rest w S' w'} : Comes now (rest now w) (effect now w) S' w' →
      Comes now (.act effect rest) w S' w'

namespace Comes

variable {now : Time} {S S' S'' : Telling ω α} {w w' w'' : ω}

theorem trans (first : Comes now S w S' w') (second : Comes now S' w' S'' w'') :
    Comes now S w S'' w'' := by
  induction first with
  | refl => exact second
  | act _ ih => exact .act (ih second)

theorem called {ρ : Type} {f : Time → ω → ρ × ω} {next : ρ → Telling ω α} :
    Comes now (.call f next) w (next (f now w).1) (f now w).2 :=
  .act .refl

theorem run_eq (comes : Comes now S w S' w') (visitor : Visitor ω) (k : Nat) :
    S.run visitor k now w = S'.run visitor k now w' := by
  induction comes with
  | refl => rfl
  | act _ ih => exact ih

end Comes

/-- The answer `a` to a poll tells the first part of `S`, and what is left is `S'`. -/
def Answers (now : Time) (a : Answer α) (S : Telling ω α) (w : ω) (S' : Telling ω α) (w' : ω) :
    Prop :=
  match a with
  | .item a => Comes now S w (.item a S') w'
  | .skip => Comes now S w S' w'
  | .fail e => Comes now S w (.fail e) w'
  | .done => Comes now S w .done w'
  | _ => False

theorem Answers.of_comes {now : Time} {a : Answer α} {S S' T : Telling ω α} {w w' v : ω}
    (comes : Comes now S w T v) (answers : Answers now a T v S' w') :
    Answers now a S w S' w' := by
  cases a with
  | item a => exact comes.trans answers
  | signal g =>
    cases g with
    | fail e => exact comes.trans answers
    | done => exact comes.trans answers
    | skip => exact comes.trans answers
    | pause => exact answers
    | wait => exact answers
    | crash message => exact answers

end Telling

/-- Whether there is more to tell after an answer. -/
def Answer.goesOn : Answer α → Prop
  | .item _ => True
  | .skip => True
  | _ => False

namespace Machine

open Telling

variable {m : Machine ω α}

/-! ### Playing -/

/-- A machine in a state plays a telling: each poll tells the next part. -/
inductive Plays (m : Machine ω α) : m.State → Telling ω α → Prop where
  | mk {s S} (next : Time → ω → Telling ω α) :
      (∀ now w, Answers now (m.poll s now w).1 S w (next now w) (m.poll s now w).2.2) →
      (∀ now w, (m.poll s now w).1.goesOn → Plays m (m.poll s now w).2.1 (next now w)) →
      Plays m s S

theorem Plays.of_poll {s : m.State} {S : Telling ω α}
    (poll : ∀ now w, ∃ S', Answers now (m.poll s now w).1 S w S' (m.poll s now w).2.2 ∧
      ((m.poll s now w).1.goesOn → m.Plays (m.poll s now w).2.1 S')) : m.Plays s S := by
  have answers := fun now w => Classical.choose_spec (poll now w)
  exact .mk _ (fun now w => (answers now w).1) fun now w => (answers now w).2

/-- Nothing is said after a failure but the end. -/
def Fused (m : Machine ω α) : Prop :=
  ∀ s now w e, (m.poll s now w).1 = .fail e → ∀ now' w',
    (m.poll (m.poll s now w).2.1 now' w').1 = .done ∧
      (m.poll (m.poll s now w).2.1 now' w').2.2 = w'

theorem guarded_fused (m : Machine ω α) : m.guarded.Fused := by
  intro ⟨s, failed⟩ now w e fails now' w'
  cases failed with
  | true => cases fails
  | false =>
    rw [guarded_poll_going] at fails ⊢
    have failure : (m.poll s now w).1.isFailure = true := Answer.isFailure_iff.mpr ⟨e, fails⟩
    rw [failure]
    exact ⟨rfl, rfl⟩

theorem Plays.guarded {s : m.State} {S : Telling ω α} (plays : m.Plays s S) :
    m.guarded.Plays (s, false) S := by
  induction plays with
  | @mk s S next answers _ ih =>
    apply Plays.of_poll
    intro now w
    rw [guarded_poll_going]
    refine ⟨next now w, answers now w, fun goesOn => ?_⟩
    have unfailed : (m.poll s now w).1.isFailure = false := by
      revert goesOn
      cases (m.poll s now w).1 with
      | item a => exact fun _ => rfl
      | signal g => cases g <;> simp [Answer.goesOn, Answer.isFailure]
    rw [unfailed]
    exact ih now w goesOn

/-! ### Draining -/

/-- Pulling a machine up to its first end, from a pull that is going on: what it hands out, and
the world afterwards. A pull polls until there is an answer. -/
inductive Drains (m : Machine ω α) (visitor : Visitor ω) :
    Nat → Time → m.State → ω → List (Except Failure α) → ω → Prop where
  | done {k now s w} : (m.poll s now w).1 = .done →
      Drains m visitor k now s w [] (m.poll s now w).2.2
  | skip {k now s w rs w'} : (m.poll s now w).1 = .skip →
      Drains m visitor k now (m.poll s now w).2.1 (m.poll s now w).2.2 rs w' →
      Drains m visitor k now s w rs w'
  | item {k now s w a rs w'} : (m.poll s now w).1 = .item a →
      Drains m visitor (k + 1) (visitor (k + 1) (m.poll s now w).2.2).1 (m.poll s now w).2.1
        (visitor (k + 1) (m.poll s now w).2.2).2 rs w' →
      Drains m visitor k now s w (.ok a :: rs) w'
  | fail {k now s w e rs w'} : (m.poll s now w).1 = .fail e →
      Drains m visitor (k + 1) (visitor (k + 1) (m.poll s now w).2.2).1 (m.poll s now w).2.1
        (visitor (k + 1) (m.poll s now w).2.2).2 rs w' →
      Drains m visitor k now s w (.error e :: rs) w'

/-- The same from the first pull of a fresh machine on. -/
def Pulled (m : Machine ω α) (visitor : Visitor ω) (w : ω) (rs : List (Except Failure α))
    (w' : ω) : Prop :=
  m.Drains visitor 0 (visitor 0 w).1 m.start (visitor 0 w).2 rs w'

/-- Pulling comes to one result at most. -/
theorem Drains.unique {visitor : Visitor ω} {k : Nat} {now : Time} {s : m.State} {w v v' : ω}
    {rs rs' : List (Except Failure α)} (drains : m.Drains visitor k now s w rs v)
    (drains' : m.Drains visitor k now s w rs' v') : rs = rs' ∧ v = v' := by
  induction drains generalizing rs' v' with
  | done asked =>
    cases drains' with
    | done => exact ⟨rfl, rfl⟩
    | skip asked' => cases asked.symm.trans asked'
    | item asked' => cases asked.symm.trans asked'
    | fail asked' => cases asked.symm.trans asked'
  | skip asked _ ih =>
    cases drains' with
    | done asked' => cases asked.symm.trans asked'
    | skip _ rest => exact ih rest
    | item asked' => cases asked.symm.trans asked'
    | fail asked' => cases asked.symm.trans asked'
  | item asked _ ih =>
    cases drains' with
    | done asked' => cases asked.symm.trans asked'
    | skip asked' => cases asked.symm.trans asked'
    | item asked' rest =>
      cases asked.symm.trans asked'
      obtain ⟨rfl, rfl⟩ := ih rest
      exact ⟨rfl, rfl⟩
    | fail asked' => cases asked.symm.trans asked'
  | fail asked _ ih =>
    cases drains' with
    | done asked' => cases asked.symm.trans asked'
    | skip asked' => cases asked.symm.trans asked'
    | item asked' => cases asked.symm.trans asked'
    | fail asked' rest =>
      cases asked.symm.trans asked'
      obtain ⟨rfl, rfl⟩ := ih rest
      exact ⟨rfl, rfl⟩

/-- Pulling a machine that plays a telling comes to what the telling comes to. -/
theorem Plays.drains {visitor : Visitor ω} (fused : m.Fused) {s : m.State} {S : Telling ω α}
    (plays : m.Plays s S) (k : Nat) (now : Time) (w : ω) :
    m.Drains visitor k now s w (S.run visitor k now w).1 (S.run visitor k now w).2 := by
  induction plays generalizing k now w with
  | @mk s S next answers _ ih =>
    have told := answers now w
    have goes := ih now w
    cases asked : (m.poll s now w).1 with
    | item a =>
      rw [asked] at told goes
      rw [Telling.Comes.run_eq told]
      exact .item asked (goes trivial _ _ _)
    | signal g =>
      rw [asked] at told goes
      cases g with
      | fail e =>
        rw [Telling.Comes.run_eq told]
        have silent := fused s now w e asked
        obtain ⟨ends, same⟩ := silent (visitor (k + 1) (m.poll s now w).2.2).1
          (visitor (k + 1) (m.poll s now w).2.2).2
        have ended : m.Drains visitor (k + 1) _ _ _ [] _ := .done ends
        rw [same] at ended
        exact .fail asked ended
      | done =>
        rw [Telling.Comes.run_eq told]
        exact .done asked
      | skip =>
        rw [Telling.Comes.run_eq told]
        exact .skip asked (goes trivial _ _ _)
      | pause => exact told.elim
      | wait => exact told.elim
      | crash message => exact told.elim

theorem Plays.drains_iff {visitor : Visitor ω} (fused : m.Fused) {s : m.State}
    {S : Telling ω α} (plays : m.Plays s S) {k : Nat} {now : Time} {w w' : ω}
    {rs : List (Except Failure α)} :
    m.Drains visitor k now s w rs w' ↔ S.run visitor k now w = (rs, w') := by
  have drains : m.Drains visitor k now s w _ _ := plays.drains fused k now w
  constructor
  · intro drains'
    obtain ⟨sameResults, sameWorld⟩ := drains.unique drains'
    exact Prod.ext sameResults sameWorld
  · intro same
    rwa [same] at drains

end Machine
end PullStream
