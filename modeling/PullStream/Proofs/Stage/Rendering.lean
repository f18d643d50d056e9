import PullStream.Proofs.Machine.Draining
import PullStream.Proofs.Stage.Via

/-!
Stages that keep everything they need in their memory.

A score says what a stage makes of what arrives, one thing after the other: what it says by itself,
and what it says when it has heard something. There are no instants and no worlds in it, no waits
and no pauses, and nothing in it depends on when the stage is asked. A stage renders a score if
each of its answers either brings nothing and leaves it where it is in the score, or is the next
thing in the score. However such a stage is drained, it goes through one score over one script; so
it can be resumed if its source can.

Most stages look neither at the clock nor at the world. The score of such a stage is the stage
itself, in any world at any instant.

* `Renders.via_resumable` — a stage that renders a score.
* `Timeless.renders` — a stage that looks neither at the clock nor at the world.
-/

namespace PullStream

variable {ω α β : Type}

/-- What a stage makes of what arrives. -/
structure Score (α β : Type) : Type 1 where
  Mind : Type
  start : Mind
  /-- What comes next by itself, which may be nothing to be heard of; `none` asks for the next
  arrival. -/
  own : Mind → Option (Option (Arrival β) × Mind) := fun _ => none
  /-- What comes of an arrival. -/
  hear : Mind → Arrival α → Option (Arrival β) × Mind

namespace Score

/-- What comes next over a script: by itself, or of the next arrival. Besides the mind it counts
how much has been heard. -/
def next (S : Score α β) (script : Script α) (p : S.Mind × Nat) :
    Option ((S.Mind × Nat) × Option (Arrival β)) :=
  match S.own p.1 with
  | some r => some ((r.2, p.2), r.1)
  | none => (script p.2).map fun a => (((S.hear p.1 a).2, p.2 + 1), (S.hear p.1 a).1)

variable {S : Score α β} {script : Script α} {p : S.Mind × Nat}

theorem next_own {r : Option (Arrival β) × S.Mind} (speaks : S.own p.1 = some r) :
    S.next script p = some ((r.2, p.2), r.1) := by
  simp [next, speaks]

theorem next_hear {a : Arrival α} (asks : S.own p.1 = none) (there : script p.2 = some a) :
    S.next script p = some (((S.hear p.1 a).2, p.2 + 1), (S.hear p.1 a).1) := by
  simp [next, asks, there]

end Score

namespace Transducer

/-- The reaction of a stage to what arrives. -/
def receive (t : Transducer ω α β) (m : t.Memory) : Arrival α → Time → ω →
    Answer β × t.Memory × ω
  | .item a, now, w => t.item m a now w
  | .failure e, now, w => t.fail m e now w
  | .ended, now, w => t.done m now w

/-- A stage that goes by a score: `fits` says where in the score its memory is. Once it has heard
the last arrival and has not said its own, it is closing, and does not need its source any more. -/
structure Renders (t : Transducer ω α β) (S : Score α β) (fits : t.Memory → S.Mind → Prop)
    (closing : S.Mind → Prop) : Prop where
  start : fits t.start S.start
  holds : ∀ {m v}, fits m v → ¬ closing v → t.holds m = true
  asks : ∀ {m v now w}, fits m v → t.before m now w = none → S.own v = none
  own : ∀ {m v now w r}, fits m v → t.before m now w = some r →
    (r.1.arrival? = none ∧ fits r.2.1 v) ∨
      ∃ v', S.own v = some (r.1.arrival?, v') ∧ (¬ EndsWith r.1.arrival? → fits r.2.1 v')
  hears : ∀ {m v} a now w, fits m v → S.own v = none →
    (t.receive m a now w).1.arrival? = (S.hear v a).1 ∧
      (¬ EndsWith (S.hear v a).1 → fits (t.receive m a now w).2.1 (S.hear v a).2)
  closes : ∀ v a, a.isLast = true → EndsWith (S.hear v a).1 ∨ closing (S.hear v a).2
  goesOn : ∀ {v}, closing v → ∃ r, S.own v = some r ∧ (EndsWith r.1 ∨ closing r.2)

variable {t : Transducer ω α β} {S : Score α β} {fits : t.Memory → S.Mind → Prop}
  {closing : S.Mind → Prop} {source : Machine ω α} {script : Script α}

/-- Where a stage is in its score, and its source as far as it has been heard. -/
structure Rendered (source : Machine ω α) (t : Transducer ω α β) (S : Score α β)
    (fits : t.Memory → S.Mind → Prop) (closing : S.Mind → Prop) (s : source.State × t.Memory)
    (p : S.Mind × Nat) : Prop where
  fits : fits s.2 p.1
  heard : closing p.1 ∨ source.Heard s.1 p.2

namespace Renders

variable (renders : Renders t S fits closing)
include renders

/-- The source is kept unless the stage is closing. -/
theorem rendered {r : source.State} {m m' : t.Memory} {v : S.Mind} {heard : Nat} (fit : fits m' v)
    (position : closing v ∨ source.Heard r heard) :
    Rendered source t S fits closing (source.release t m m' r, m') (v, heard) := by
  refine ⟨fit, ?_⟩
  by_cases closes : closing v
  · exact .inl closes
  · rw [Machine.release_held r (renders.holds fit closes)]
    exact position

/-- A stage that asks its source is not closing. -/
theorem asking {s : source.State × t.Memory} {p : S.Mind × Nat}
    (rendered : Rendered source t S fits closing s p) {now : Time} {w : ω}
    (own : t.before s.2 now w = none) : S.own p.1 = none ∧ source.Heard s.1 p.2 := by
  have asks := renders.asks rendered.fits own
  refine ⟨asks, rendered.heard.resolve_left fun closes => ?_⟩
  obtain ⟨r, speaks, -⟩ := renders.goesOn closes
  cases speaks.symm.trans asks

/-- A stage hears what arrives from its source. -/
theorem hears_arrival (begins : source.GoesBy script)
    {s : source.State × t.Memory} {p : S.Mind × Nat}
    (rendered : Rendered source t S fits closing s p) {now : Time} {w w' : ω} {b : Answer α}
    {r : source.State} {a : Arrival α} (own : t.before s.2 now w = none)
    (answer : source.poll s.1 now w = (b, r, w')) (arrives : b.arrival? = some a) :
    Machine.Proceeds (S.next script) (Rendered source t S fits closing) p
      (Machine.react source t s.2 r (t.receive s.2 a now w')) := by
  obtain ⟨asks, below⟩ := renders.asking rendered own
  cases below.next begins answer with
  | quiet none => cases arrives.symm.trans none
  | arrives same there next =>
    cases arrives.symm.trans same
    obtain ⟨same, fit⟩ := renders.hears a now w' rendered.fits asks
    right
    rw [Machine.react, same]
    refine ⟨_, Score.next_hear asks there, fun goesOn => renders.rendered (fit goesOn) ?_⟩
    cases last : a.isLast with
    | true => exact .inl ((renders.closes p.1 a last).resolve_left goesOn)
    | false => exact .inr (next last)

/-- A stage that renders a score can be resumed if its source can. -/
theorem via_resumable (resumable : source.Resumable) : (source.via t).Resumable := by
  obtain ⟨script, begins⟩ := resumable.script
  refine Machine.resumable_of_course (S.next script) (Rendered source t S fits closing)
    (S.start, 0) ?_ ?_ ?_
  · exact ⟨renders.start, .inr .start⟩
  · rintro s p now w ⟨fit, heard⟩
    exact ⟨fit, heard.imp_right fun below => below.tick now w⟩
  · intro s p now w rendered
    have polled := Machine.via_poll source t s now w
    generalize (source.via t).poll s now w = answer at polled
    cases polled with
    | before own =>
      rcases renders.own rendered.fits own with ⟨quiet, fit⟩ | ⟨v, speaks, fit⟩
      · exact .inl ⟨quiet, renders.rendered fit rendered.heard⟩
      · refine .inr ⟨_, Score.next_own speaks, fun goesOn => renders.rendered (fit goesOn) ?_⟩
        rcases rendered.heard with closes | below
        · obtain ⟨r', speaks', last⟩ := renders.goesOn closes
          cases speaks.symm.trans speaks'
          exact .inl (last.resolve_left goesOn)
        · exact .inr below
    | item own answer => exact renders.hears_arrival begins rendered own answer rfl
    | fail own answer => exact renders.hears_arrival begins rendered own answer rfl
    | done own answer => exact renders.hears_arrival begins rendered own answer rfl
    | @pass g q own answer notFail notDone =>
      obtain ⟨-, below⟩ := renders.asking rendered own
      have nothing : (Answer.signal g : Answer α).arrival? = none :=
        Answer.arrival?_signal notFail notDone
      cases below.next begins answer with
      | quiet _ next =>
        exact .inl ⟨Answer.arrival?_signal notFail notDone, rendered.fits, .inr next⟩
      | arrives same => cases nothing.symm.trans same

end Renders

/-! ### Stages that look neither at the clock nor at the world -/

/-- What a reaction brings, and the memory it leaves. -/
def outcome (t : Transducer ω α β) (r : Answer β × t.Memory × ω) :
    Option (Arrival β) × t.Memory :=
  (r.1.arrival?, r.2.1)

/-- A stage whose reactions are the same at all instants and in all worlds, and which passes a
failure on. -/
structure Timeless (t : Transducer ω α β) (closing : t.Memory → Prop) : Prop where
  before : ∀ m now w now' w',
    (t.before m now w).map t.outcome = (t.before m now' w').map t.outcome
  item : ∀ m a now w now' w', t.outcome (t.item m a now w) = t.outcome (t.item m a now' w')
  fail : ∀ m e now w now' w', (t.fail m e now w).1 = .fail e ∧
    t.outcome (t.fail m e now w) = t.outcome (t.fail m e now' w')
  done : ∀ m now w now' w', t.outcome (t.done m now w) = t.outcome (t.done m now' w')
  holds : ∀ {m}, ¬ closing m → t.holds m = true
  closes : ∀ m now w, EndsWith (t.done m now w).1.arrival? ∨ closing (t.done m now w).2.1
  goesOn : ∀ {m}, closing m → ∀ now w, ∃ r, t.before m now w = some r ∧
    (EndsWith r.1.arrival? ∨ closing r.2.1)

/-- The stage as a score, in one world. -/
def score (t : Transducer ω α β) (w : ω) : Score α β where
  Mind := t.Memory
  start := t.start
  own m := (t.before m 0 w).map t.outcome
  hear m a := t.outcome (t.receive m a 0 w)

namespace Timeless

variable {closing : t.Memory → Prop}

theorem receive (timeless : Timeless t closing) (m : t.Memory) (a : Arrival α) (now now' : Time)
    (w w' : ω) : t.outcome (t.receive m a now w) = t.outcome (t.receive m a now' w') := by
  cases a with
  | item a => exact timeless.item m a now w now' w'
  | failure e => exact (timeless.fail m e now w now' w').2
  | ended => exact timeless.done m now w now' w'

theorem renders (timeless : Timeless t closing) (w : ω) :
    Renders t (t.score w) (fun m v => m = v) closing where
  start := rfl
  holds := by
    rintro m _ rfl goesOn
    exact timeless.holds goesOn
  asks := by
    rintro m _ now w' rfl own
    have same := timeless.before m now w' 0 w
    rw [own] at same
    exact same.symm
  own := by
    rintro m _ now w' r rfl own
    have same := timeless.before m now w' 0 w
    rw [own] at same
    exact .inr ⟨r.2.1, same.symm, fun _ => rfl⟩
  hears := by
    rintro m _ a now w' rfl -
    have same := timeless.receive m a now 0 w' w
    exact ⟨congrArg Prod.fst same, fun _ => congrArg Prod.snd same⟩
  closes := by
    intro m a last
    cases a with
    | item a => cases last
    | failure e =>
      left
      have fails := (timeless.fail m e 0 w 0 w).1
      exact ⟨.failure e, congrArg Answer.arrival? fails, rfl⟩
    | ended => exact timeless.closes m 0 w
  goesOn := by
    intro m closes
    obtain ⟨r, own, last⟩ := timeless.goesOn closes 0 w
    refine ⟨t.outcome r, ?_, last⟩
    change (t.before m 0 w).map t.outcome = _
    rw [own]
    rfl

theorem via_resumable (timeless : Timeless t closing) (resumable : source.Resumable) :
    (source.via t).Resumable :=
  Machine.resumable_of_world fun w => (timeless.renders w).via_resumable resumable

end Timeless
end Transducer
end PullStream
