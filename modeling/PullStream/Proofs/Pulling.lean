import PullStream.Proofs.Clockwork
import PullStream.Proofs.Machine.Draining

/-!
Pulling a machine on a clock.

A pull waits for so long and no longer. If it is abandoned, whoever pulls has not received
anything, and may pull again; meanwhile background work may go on, time may pass, and others may
have used the world. What has been received in such a session has arrived from the machine, and
nothing else has: an abandoned pull takes nothing with it (`pull_draining`). So a session is a
draining, and all sessions with a machine that can be resumed agree.

* `Setting.Session` — pulls, abandoned or not, with anything in between.
* `Setting.Session.draining` — a session drains the machine.
* `Agree`, `Machine.Resumable.agree` — what two drainings have in common.
-/

namespace PullStream

variable {ω α ρ : Type}

/-- The results that a run has given. -/
def Ending.results : Ending ρ → List ρ
  | .finished results => results
  | _ => []

/-! ### Agreement -/

/-- Of two drainings one may have come further than the other, and those that have met with a
failure or the end have come equally far. -/
def Agree (as as' : List (Arrival α)) : Prop :=
  (as <+: as' ∨ as' <+: as) ∧ (¬ Unended as → ¬ Unended as' → as = as')

theorem Machine.Resumable.agree {m : Machine ω α} (resumable : m.Resumable) {s s' : m.State}
    {as as' : List (Arrival α)} (draining : m.Draining s as) (draining' : m.Draining s' as') :
    Agree as as' :=
  ⟨resumable draining draining', resumable.finished_eq draining draining'⟩

namespace Setting

variable {m : Machine ω α} {s : Setting ω α m.hub} {as : List (Arrival α)}

/-- Pulls with a limit each, up to the first failure or end. Whoever pulls may let time pass, and
others may use the world. -/
inductive Session (m : Machine ω α) : Setting ω α m.hub → List (Arrival α) → Prop where
  | start now w : Session m (.initially m.hub now w) []
  | pull {t as} : Session m t as → Unended as → ∀ output wait,
      Session m (t.pull output wait).2 (as ++ (t.pull output wait).1.results)
  | rest {t as} : Session m t as → ∀ length, Session m (t.rest length) as
  | others {t as} : Session m t as → ∀ now world, Session m { t with now, world } as

/-! ### One pull -/

/-- What a pull has received has arrived from the machine. -/
theorem onePull_upheld (more : Unended as) :
    Uphold m onePull fun memory state _ => m.Draining state (as ++ memory.toList) where
  pull {memory state w} now draining wants := by
    cases memory with
    | some a => cases wants
    | none =>
      rw [Option.toList_none, List.append_nil] at draining
      have next := draining.poll more now w
      generalize m.poll state now w = answer at next ⊢
      obtain ⟨a, state', w'⟩ := answer
      cases a with
      | item a => exact next
      | signal g => cases g <;> exact next
  wake {memory _ _ _} _ _ wants := by cases memory <;> cases wants
  tick now draining := draining.tick now _

/-- After a pull the machine has been drained of what it has given. A pull that has been abandoned
leaves the machine with everything that has not been received. -/
theorem pull_draining (draining : m.Draining s.state as) (more : Unended as) (output : Nat)
    (wait : Time) :
    m.Draining (s.pull output wait).2.state (as ++ (s.pull output wait).1.results) := by
  let c : Consumer ω α (Arrival α) := onePull
  have begun : m.Draining s.state (as ++ (c.start : Option (Arrival α)).toList) := by
    rw [show (c.start : Option (Arrival α)) = none from rfl, Option.toList_none, List.append_nil]
    exact draining
  obtain ⟨memory, held, told⟩ := run_told (onePull_upheld more) (some (s.now + wait)) patience
    { output, memory := c.start } begun (fun _ _ => nofun)
  have same : (s.pull output wait).1.results = (memory : Option (Arrival α)).toList := by
    unfold pull
    generalize (run (some (s.now + wait)) patience _ s).1 = ending at told
    cases memory with
    | none =>
      cases ending with
      | finished results =>
        obtain ⟨a, wants, -⟩ := told
        cases wants
      | _ => rfl
    | some a =>
      cases ending with
      | finished results =>
        obtain ⟨b, wants, rfl⟩ := told
        cases wants
        rfl
      | _ => exact absurd rfl (told a)
  rw [same]
  exact held

/-! ### Sessions -/

/-- Background work drains nothing. -/
theorem settle_draining (draining : m.Draining s.state as) : m.Draining s.settle.2.state as := by
  let c : Consumer ω α (Arrival α) := onePull
  -- Nobody pulls: the one consumer there is has been given its arrival.
  have idle : Uphold m c fun (memory : Option (Arrival α)) state _ =>
      memory ≠ none ∧ m.Draining state as := by
    constructor
    · rintro (_ | a) state w now ⟨given, -⟩ wants
      · exact absurd rfl given
      · cases wants
    · rintro (_ | a) state w due now ⟨given, -⟩ wants
      · exact absurd rfl given
      · cases wants
    · exact fun now ⟨given, draining⟩ => ⟨given, draining.tick now _⟩
  exact (settle_kept idle (some .ended : Option (Arrival α)) ⟨by simp, draining⟩).2

theorem restUntil_draining (due : Time) (fuel : Nat) (draining : m.Draining s.state as) :
    m.Draining (restUntil due fuel s).state as := by
  induction fuel generalizing s with
  | zero => exact draining
  | succ fuel ih =>
    have settled := settle_draining draining
    unfold restUntil
    dsimp only
    split
    · exact settled
    · exact ih settled

theorem rest_draining (draining : m.Draining s.state as) (length : Time) :
    m.Draining (s.rest length).state as := by
  unfold rest
  split
  · exact draining
  · exact restUntil_draining _ _ draining

/-- What has been received in a session has arrived from the machine. -/
theorem Session.draining (session : Session m s as) : m.Draining s.state as := by
  induction session with
  | start => exact .start
  | pull _ more output wait ih => exact pull_draining ih more output wait
  | rest _ length ih => exact rest_draining ih length
  | others _ _ _ ih => exact ih

end Setting
end PullStream
