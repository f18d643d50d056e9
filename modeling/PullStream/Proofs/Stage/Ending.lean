import Mathlib.Tactic.ByContra
import PullStream.Proofs.Stage.Via

/-!
How a stage ends.

After the end, a stage is either shut, and answers for itself, or at rest, and asks
its input again. A stage at rest is as good as its input: it stays at the end if the
input does, and breaks if the input breaks. `Settles` says of a stage which of its
memories are shut and which are at rest, and that every report of the end leads to one
of them; `Relays` says that it is never shut; `Breaks` says that the end leads to
memories that must not be polled.

* `via_permanent` — a stage that settles ends for good, if its input does or if it
  never rests.
* `via_relayed` — a stage that relays is brittle on a brittle input.
* `via_brittle` — a stage that breaks is brittle.
-/

namespace PullStream

variable {ω α β : Type}

namespace Transducer

/-- The memories in which a stage has ended. -/
structure Ending (t : Transducer ω α β) where
  /-- Memories that occur. -/
  valid : t.Memory → Prop := fun _ => True
  /-- The stage reports the end by itself. -/
  shut : t.Memory → Prop
  /-- The stage reports the end that its input reports. -/
  rest : t.Memory → Prop

/-- A reaction keeps memories valid, and reports the end only to `isOver`. -/
def Ending.Allows {t : Transducer ω α β} (x : t.Ending) (isOver : t.Memory → Prop)
    (reaction : Answer β × t.Memory × ω) : Prop :=
  x.valid reaction.2.1 ∧ (reaction.1 = .done → isOver reaction.2.1)

/-- Every report of the end shuts the stage or lets it rest, and it stays so. -/
structure Ending.Settles {t : Transducer ω α β} (x : t.Ending) : Prop where
  start : x.valid t.start
  /-- What the stage answers for itself; an input that was let go stays so. -/
  before : ∀ {m now w r}, x.valid m → t.before m now w = some r →
    x.Allows x.shut r ∧ (t.holds m = false → t.holds r.2.1 = false)
  item : ∀ {m w} a now w', x.valid m → t.before m now w = none →
    x.Allows x.shut (t.item m a now w')
  fail : ∀ {m w} e now w', x.valid m → t.before m now w = none →
    x.Allows x.shut (t.fail m e now w')
  done : ∀ {m w} now w', x.valid m → t.before m now w = none →
    x.Allows (fun m => x.shut m ∨ x.rest m) (t.done m now w')
  shut : ∀ {m} now w, x.shut m → ∃ m' w', t.before m now w = some (.done, m', w')
  resting : ∀ {m now w r}, x.rest m → t.before m now w = some r → r.1 = .done
  rested : ∀ {m now w w'}, x.rest m → t.before m now w = none → (t.done m now w').1 = .done
  /-- An input that was let go is not asked. -/
  held : ∀ {m now w}, x.valid m → t.before m now w = none → t.holds m = true

/-- A stage that ends with its input only: it is never shut, passes every failure on and
always holds its input. -/
structure Ending.Relays {t : Transducer ω α β} (x : t.Ending) : Prop where
  settles : x.Settles
  unshut : ∀ {m}, x.valid m → ¬ x.shut m
  fail : ∀ m e now w, (t.fail m e now w).1 = .fail e
  holds : ∀ {m}, x.valid m → t.holds m = true

/-- Memories that must not be polled, and that every report of the end leads to. -/
structure Breaks (t : Transducer ω α β) (spent : t.Memory → Prop) : Prop where
  before : ∀ {m now w r}, t.before m now w = some r → r.1 ≠ .done
  item : ∀ {m a now w}, (t.item m a now w).1 ≠ .done
  fail : ∀ {m e now w}, (t.fail m e now w).1 ≠ .done
  done : ∀ {m now w}, (t.done m now w).1 = .done → spent (t.done m now w).2.1
  spent : ∀ {m} now w, spent m → t.before m now w = some (.spent, m, w)

end Transducer

namespace Machine

open Transducer

variable {input : Machine ω α} {t : Transducer ω α β}

/-- Where the use of a stage has led: its input was only asked while it was held, and a
reported end has shut the stage, or let it rest behind an input that has ended too. -/
structure Led (input : Machine ω α) {t : Transducer ω α β} (x : t.Ending)
    (s : input.State × t.Memory) (answers : List (Answer β)) : Prop where
  valid : x.valid s.2
  below : ∃ asked, (t.holds s.2 = true → input.Reach s.1 asked) ∧
    (.done ∈ answers → x.shut s.2 ∨ x.rest s.2 ∧ .done ∈ asked)

/-- With an input whose end is permanent, or a stage that never rests, a stage that has
reported the end asks its input only to be told the end again. -/
theorem Led.answer {x : t.Ending} {s : input.State × t.Memory} {answers : List (Answer β)}
    (settles : x.Settles) (either : input.Permanent ∨ ∀ m, ¬ x.rest m)
    (led : Led input x s answers) (done : .done ∈ answers) {now : Time} {w : ω}
    (own : t.before s.2 now w = none) :
    x.rest s.2 ∧ (input.poll s.1 now w).1 = .done := by
  obtain ⟨valid, asked, below, ended⟩ := led
  rcases ended done with shut | ⟨rest, isOver⟩
  · obtain ⟨m', w', h⟩ := settles.shut now w shut
    rw [own] at h
    cases h
  · rcases either with permanent | never
    · exact ⟨rest, permanent (below (settles.held valid own)) isOver now w⟩
    · exact absurd rest (never _)

/-- A stage that has asked its input is led on by its reaction. -/
theorem Led.asking {x : t.Ending} {s : input.State × t.Memory} {answers : List (Answer β)}
    (settles : x.Settles) (led : Led input x s answers) {now : Time} {w : ω} {a : Answer α}
    {p : input.State × ω} (own : t.before s.2 now w = none)
    (asked : input.poll s.1 now w = (a, p)) (r : Answer β × t.Memory × ω) (valid : x.valid r.2.1)
    (ended : .done ∈ answers ++ [r.1] → x.shut r.2.1 ∨ x.rest r.2.1 ∧ a = .done) :
    Led input x (react input t s.2 p.1 r).2.1 (answers ++ [r.1]) := by
  obtain ⟨validBefore, before, below, -⟩ := led
  refine ⟨valid, before ++ [a], fun held => ?_, fun done => ?_⟩
  · have next := (below (settles.held validBefore own)).poll now w
    have held : t.holds r.2.1 = true := held
    rw [asked] at next
    change input.Reach (input.release t s.2 r.2.1 p.1) _
    rwa [release_held _ held]
  · exact (ended done).imp_right fun ⟨rest, same⟩ => ⟨rest, by simp [same]⟩

theorem Reach.led {x : t.Ending} (settles : x.Settles)
    (either : input.Permanent ∨ ∀ m, ¬ x.rest m) {s : (input.via t).State}
    {answers : List (Answer β)} (reached : (input.via t).Reach s answers) :
    Led input x s answers := by
  induction reached with
  | start => exact ⟨settles.start, [], fun _ => .start, fun h => absurd h List.not_mem_nil⟩
  | @tick s answers _ now w led =>
    obtain ⟨valid, asked, below, ended⟩ := led
    exact ⟨valid, asked, fun held => (below held).tick now w, ended⟩
  | @poll s answers _ now w led =>
    have step := via_poll input t s now w
    generalize (input.via t).poll s now w = result at step
    have valid := led.valid
    -- An old end and an answer of the input other than the end exclude each other.
    have live : ∀ {a p}, t.before s.2 now w = none → input.poll s.1 now w = (a, p) →
        a ≠ .done → .done ∉ answers := by
      intro a p own asked other old
      have told := (led.answer settles either old own).2
      rw [asked] at told
      exact other told
    cases step with
    | @before r own =>
      obtain ⟨⟨valid', isOver⟩, letGo⟩ := settles.before valid own
      obtain ⟨-, asked, below, ended⟩ := led
      refine ⟨valid', asked, fun held => ?_, fun done => .inl (isOver ?_)⟩
      · have held : t.holds r.2.1 = true := held
        have heldBefore : t.holds s.2 = true := by
          by_contra gone
          rw [letGo (by simpa using gone)] at held
          cases held
        change input.Reach (input.release t s.2 r.2.1 s.1) _
        rw [release_held _ held]
        exact below heldBefore
      · rcases List.mem_append.mp done with old | new
        · rcases ended old with shut | ⟨rest, _⟩
          · obtain ⟨m', w', h⟩ := settles.shut now w shut
            rw [own] at h
            cases h
            rfl
          · exact settles.resting rest own
        · exact (List.mem_singleton.mp new).symm
    | @item a p own asked =>
      obtain ⟨valid', isOver⟩ := settles.item a now p.2 valid own
      refine led.asking settles own asked _ valid' fun done => .inl (isOver ?_)
      rcases List.mem_append.mp done with old | new
      · exact absurd old (live own asked (by simp))
      · exact (List.mem_singleton.mp new).symm
    | @fail e p own asked =>
      obtain ⟨valid', isOver⟩ := settles.fail e now p.2 valid own
      refine led.asking settles own asked _ valid' fun done => .inl (isOver ?_)
      rcases List.mem_append.mp done with old | new
      · exact absurd old (live own asked (by simp))
      · exact (List.mem_singleton.mp new).symm
    | @done p own asked =>
      obtain ⟨valid', isOver⟩ := settles.done now p.2 valid own
      refine led.asking settles own asked _ valid' fun done => ?_
      refine (isOver ?_).imp_right fun rest => ⟨rest, rfl⟩
      rcases List.mem_append.mp done with old | new
      · exact settles.rested (led.answer settles either old own).1 own
      · exact (List.mem_singleton.mp new).symm
    | @pass g p own asked notFail notDone =>
      have other : (.signal g : Answer α) ≠ .done := fun same => notDone (Answer.signal.inj same)
      have held := settles.held valid own
      have stay : react input t s.2 p.1 (.signal g, s.2, p.2) = (.signal g, (p.1, s.2), p.2) := by
        rw [react, release_held _ held]
      rw [← stay]
      refine led.asking settles own asked _ valid fun done => ?_
      rcases List.mem_append.mp done with old | new
      · exact absurd old (live own asked other)
      · exact absurd (Answer.signal.inj (List.mem_singleton.mp new).symm) notDone

/-- A stage that settles ends for good, if its input does or if it never rests. -/
theorem via_permanent {x : t.Ending} (settles : x.Settles)
    (either : input.Permanent ∨ ∀ m, ¬ x.rest m) : (input.via t).Permanent := by
  intro s answers reached done now w
  have led := reached.led settles either
  have step := via_poll input t s now w
  generalize (input.via t).poll s now w = result at step
  cases step with
  | @before r own =>
    obtain ⟨-, asked, -, ended⟩ := led
    rcases ended done with shut | ⟨rest, _⟩
    · obtain ⟨m', w', h⟩ := settles.shut now w shut
      rw [own] at h
      cases h
      rfl
    · exact settles.resting rest own
  | item own asked =>
    have told := (led.answer settles either done own).2
    rw [asked] at told
    cases told
  | fail own asked =>
    have told := (led.answer settles either done own).2
    rw [asked] at told
    cases told
  | done own asked => exact settles.rested (led.answer settles either done own).1 own
  | pass own asked notFail notDone =>
    have told := (led.answer settles either done own).2
    rw [asked] at told
    exact absurd (Answer.signal.inj told) notDone

/-- Where the use of a relaying stage has led: unless there was a failure, its input has not
failed either, and a reported end has come from the input. -/
structure Relayed (input : Machine ω α) {t : Transducer ω α β} (x : t.Ending)
    (s : input.State × t.Memory) (answers : List (Answer β)) : Prop where
  valid : x.valid s.2
  below : ∃ asked, input.Reach s.1 asked ∧ ((∀ e, .fail e ∉ answers) →
    (∀ e, .fail e ∉ asked) ∧ (.done ∈ answers → x.rest s.2 ∧ .done ∈ asked))

/-- A stage that relays does not answer for itself while it rests. -/
theorem Relayed.quiet {x : t.Ending} {m : t.Memory} (relays : x.Relays) (valid : x.valid m)
    (rest : x.rest m) (now : Time) (w : ω) : t.before m now w = none := by
  cases own : t.before m now w with
  | none => rfl
  | some r =>
    obtain ⟨⟨valid', isOver⟩, -⟩ := relays.settles.before valid own
    exact absurd (isOver (relays.settles.resting rest own)) (relays.unshut valid')

/-- A brittle input that has ended breaks when the stage asks it again. -/
theorem Relayed.spent {x : t.Ending} {s : input.State × t.Memory} {answers : List (Answer β)}
    (relays : x.Relays) (brittle : input.Brittle) (relayed : Relayed input x s answers)
    (clean : ∀ e, .fail e ∉ answers) (done : .done ∈ answers) (now : Time) (w : ω) :
    x.rest s.2 ∧ t.before s.2 now w = none ∧ (input.poll s.1 now w).1 = .spent := by
  obtain ⟨valid, asked, reached, ended⟩ := relayed
  obtain ⟨cleanBelow, ended⟩ := ended clean
  obtain ⟨rest, told⟩ := ended done
  exact ⟨rest, quiet relays valid rest now w, brittle reached told cleanBelow now w⟩

/-- A relaying stage that has asked its input is led on by its reaction. -/
theorem Relayed.asking {x : t.Ending} {s : input.State × t.Memory} {answers : List (Answer β)}
    (relays : x.Relays) (relayed : Relayed input x s answers) {now : Time} {w : ω}
    {a : Answer α} {p : input.State × ω} (asked : input.poll s.1 now w = (a, p))
    (r : Answer β × t.Memory × ω) (valid : x.valid r.2.1)
    (passed : ∀ e, a = .fail e → r.1 = .fail e)
    (ended : (∀ e, .fail e ∉ answers) → .done ∈ answers ++ [r.1] →
      x.rest r.2.1 ∧ (.done ∈ answers ∨ a = .done)) :
    Relayed input x (react input t s.2 p.1 r).2.1 (answers ++ [r.1]) := by
  obtain ⟨-, before, reached, below⟩ := relayed
  have next := reached.poll now w
  rw [asked] at next
  refine ⟨valid, before ++ [a], ?_, fun clean => ?_⟩
  · change input.Reach (input.release t s.2 r.2.1 p.1) _
    rwa [release_held _ (relays.holds valid)]
  · have cleanBefore : ∀ e, .fail e ∉ answers := fun e member =>
      clean e (List.mem_append_left _ member)
    obtain ⟨cleanBelow, told⟩ := below cleanBefore
    constructor
    · intro e member
      rcases List.mem_append.mp member with old | new
      · exact cleanBelow e old
      · have failed := passed e (List.mem_singleton.mp new).symm
        exact clean e (List.mem_append_right _ (List.mem_singleton.mpr failed.symm))
    · intro done
      obtain ⟨rest, reported⟩ := ended cleanBefore done
      refine ⟨rest, List.mem_append.mpr ?_⟩
      rcases reported with old | new
      · exact .inl (told old).2
      · exact .inr (List.mem_singleton.mpr new.symm)

theorem Reach.relayed {x : t.Ending} (relays : x.Relays) (brittle : input.Brittle)
    {s : (input.via t).State} {answers : List (Answer β)}
    (reached : (input.via t).Reach s answers) : Relayed input x s answers := by
  induction reached with
  | start =>
    refine ⟨relays.settles.start, [], .start, fun clean => ⟨fun e => List.not_mem_nil, ?_⟩⟩
    exact fun done => absurd done List.not_mem_nil
  | @tick s answers _ now w relayed =>
    obtain ⟨valid, asked, reached, ended⟩ := relayed
    exact ⟨valid, asked, reached.tick now w, ended⟩
  | @poll s answers _ now w relayed =>
    have step := via_poll input t s now w
    generalize (input.via t).poll s now w = result at step
    have valid := relayed.valid
    have again := fun clean done => relayed.spent relays brittle clean done now w
    cases step with
    | @before r own =>
      obtain ⟨⟨valid', isOver⟩, -⟩ := relays.settles.before valid own
      obtain ⟨-, asked, reached, ended⟩ := relayed
      refine ⟨valid', asked, ?_, fun clean => ?_⟩
      · change input.Reach (input.release t s.2 r.2.1 s.1) asked
        rwa [release_held _ (relays.holds valid')]
      · have cleanBefore : ∀ e, .fail e ∉ answers := fun e member =>
          clean e (List.mem_append_left _ member)
        refine ⟨(ended cleanBefore).1, fun done => ?_⟩
        rcases List.mem_append.mp done with old | new
        · have quiet := (again cleanBefore old).2.1
          rw [own] at quiet
          cases quiet
        · have shut := isOver (List.mem_singleton.mp new).symm
          exact absurd shut (relays.unshut valid')
    | @item a p own answer =>
      obtain ⟨valid', isOver⟩ := relays.settles.item a now p.2 valid own
      rw [answer] at again
      refine relayed.asking relays answer _ valid' (by simp) fun clean done => ?_
      rcases List.mem_append.mp done with old | new
      · cases (again clean old).2.2
      · have shut := isOver (List.mem_singleton.mp new).symm
        exact absurd shut (relays.unshut valid')
    | @fail e p own answer =>
      obtain ⟨valid', isOver⟩ := relays.settles.fail e now p.2 valid own
      rw [answer] at again
      refine relayed.asking relays answer _ valid' ?_ fun clean done => ?_
      · intro e' same
        cases same
        exact relays.fail _ _ _ _
      · rcases List.mem_append.mp done with old | new
        · cases (again clean old).2.2
        · have shut := isOver (List.mem_singleton.mp new).symm
          exact absurd shut (relays.unshut valid')
    | @done p own answer =>
      obtain ⟨valid', isOver⟩ := relays.settles.done now p.2 valid own
      rw [answer] at again
      refine relayed.asking relays answer _ valid' (by simp) fun clean done => ⟨?_, .inr rfl⟩
      rcases List.mem_append.mp done with old | new
      · cases (again clean old).2.2
      · have ended := isOver (List.mem_singleton.mp new).symm
        exact ended.resolve_left (relays.unshut valid')
    | @pass g p own answer notFail notDone =>
      have stay : react input t s.2 p.1 (.signal g, s.2, p.2) = (.signal g, (p.1, s.2), p.2) := by
        rw [react, release_held _ (relays.holds valid)]
      rw [← stay]
      refine relayed.asking relays answer _ valid ?_ fun clean done => ?_
      · intro e same
        exact congrArg Answer.signal (Answer.signal.inj same)
      · rcases List.mem_append.mp done with old | new
        · exact ⟨(again clean old).1, .inl old⟩
        · exact absurd (Answer.signal.inj (List.mem_singleton.mp new)).symm notDone

/-- A stage that relays is brittle on a brittle input. -/
theorem via_relayed {x : t.Ending} (relays : x.Relays) (brittle : input.Brittle) :
    (input.via t).Brittle := by
  intro s answers reached done clean now w
  have relayed := reached.relayed relays brittle
  obtain ⟨-, own, spent⟩ := relayed.spent relays brittle clean done now w
  have step := via_poll input t s now w
  generalize (input.via t).poll s now w = result at step
  cases step with
  | before own' =>
    rw [own] at own'
    cases own'
  | item _ answer =>
    rw [answer] at spent
    cases spent
  | fail _ answer =>
    rw [answer] at spent
    cases spent
  | done _ answer =>
    rw [answer] at spent
    cases spent
  | pass _ answer _ _ =>
    rw [answer] at spent
    exact congrArg Answer.signal (Answer.signal.inj spent)

/-- A stage that breaks is brittle on every input. -/
theorem via_brittle {spent : t.Memory → Prop} (breaks : t.Breaks spent) :
    (input.via t).Brittle := by
  refine brittle_of_over (fun s : input.State × t.Memory => spent s.2)
    (fun s now w done => ?_) (fun s now w isOver => ?_) fun s now w isOver => isOver
  · have step := via_poll input t s now w
    generalize (input.via t).poll s now w = result at step done ⊢
    cases step with
    | before own => exact absurd done (breaks.before own)
    | item => exact absurd done breaks.item
    | fail => exact absurd done breaks.fail
    | done => exact breaks.done done
    | pass _ _ _ notDone => exact absurd (Answer.signal.inj done) notDone
  · have own := breaks.spent now w isOver
    simp only [via, own]
    exact ⟨trivial, isOver⟩

end Machine
end PullStream
