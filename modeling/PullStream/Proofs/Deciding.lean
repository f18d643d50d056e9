import PullStream.Proofs.Machine.Pulls
import PullStream.Proofs.Visiting

/-!
Folds that may stop early.

A fold weighs what arrives, one thing after the other, until something decides it: a verdict on
an element, a failure or the end. What it has weighed is all that has arrived from its sequence,
and all of it was needed: no first part of it had decided anything. So two sequences that begin
alike, up to what decides, come to the same; what they have behind it does not matter, be it
elements, a failure or nothing at all.

What a step function says may depend on its world and change it. `view` shows as much of that as
one cares for, such as the calls so far, and a ruling tells what may be said there.

* `Weighed` — what a fold has made of some arrivals.
* `Weighed.of_uses` — every use of a machine by a fold weighs what arrives from the machine.
* `Weighed.alike` — arrivals that begin alike.
* `Decides`, `decides_of_weighed` — what a fold comes to with a machine, and when it stops asking.
* `Indifferent`, `indifferent_of_judges` — what it does not depend on.
-/

namespace PullStream

variable {ω ν α σ ρ : Type}

open Consumer (Verdict Folding Result fold)

/-! ### Weighing -/

/-- What a step function may say about an element, with what `view` shows before and after. -/
abbrev Ruling (ν α σ ρ : Type) := σ → α → Nat → ν → Verdict σ ρ → ν → Prop

/-- The step function says nothing else. -/
def Judges (view : ω → ν) (ruling : Ruling ν α σ ρ)
    (item : σ → α → Nat → Time → ω → Verdict σ ρ × ω) : Prop :=
  ∀ s a i now w, ruling s a i (view w) (item s a i now w).1 (view (item s a i now w).2)

/-- What becomes of a fold that goes on when something arrives. -/
inductive Hears (ruling : Ruling ν α σ ρ) (finish : σ → Result ρ) (s : σ) (i : Nat) (x : ν) :
    Arrival α → Folding σ ρ → ν → Prop where
  | goOn {a s' y} : ruling s a i x (.goOn s') y → Hears ruling finish s i x (.item a)
      (.running s' (i + 1)) y
  | stop {a r y} : ruling s a i x (.stop r) y →
      Hears ruling finish s i x (.item a) (.finished (.ok r)) y
  | fail {a e y} : ruling s a i x (.fail e) y →
      Hears ruling finish s i x (.item a) (.finished (.error e)) y
  | failure {e} : Hears ruling finish s i x (.failure e) (.finished (.error e)) x
  | ended : Hears ruling finish s i x .ended (.finished (finish s)) x

/-- What a fold has made of some arrivals. It weighs nothing behind what has decided it. -/
inductive Weighed (ruling : Ruling ν α σ ρ) (finish : σ → Result ρ) (start : σ) (before : ν) :
    List (Arrival α) → Folding σ ρ → ν → Prop where
  | start : Weighed ruling finish start before [] (.running start 0) before
  | hear {as s i x b m y} : Weighed ruling finish start before as (.running s i) x →
      Hears ruling finish s i x b m y → Weighed ruling finish start before (as ++ [b]) m y

/-- Nothing is left open by what may be said. -/
def Ruling.Deterministic (ruling : Ruling ν α σ ρ) : Prop :=
  ∀ ⦃s a i x v v' y y'⦄, ruling s a i x v y → ruling s a i x v' y' → v = v' ∧ y = y'

section Weighed

variable {ruling : Ruling ν α σ ρ} {finish : σ → Result ρ} {start : σ} {before : ν}
  {as bs : List (Arrival α)} {m m' : Folding σ ρ} {x x' : ν}

theorem Hears.unique (deterministic : ruling.Deterministic) {s : σ} {i : Nat} {y y' : ν}
    {b : Arrival α} (hears : Hears ruling finish s i x b m y)
    (hears' : Hears ruling finish s i x b m' y') : m = m' ∧ y = y' := by
  cases hears with
  | failure => cases hears'; exact ⟨rfl, rfl⟩
  | ended => cases hears'; exact ⟨rfl, rfl⟩
  | goOn said =>
    cases hears' with
    | goOn said' => cases deterministic said said' with | intro v y => cases v; exact ⟨rfl, y⟩
    | stop said' => cases (deterministic said said').1
    | fail said' => cases (deterministic said said').1
  | stop said =>
    cases hears' with
    | goOn said' => cases (deterministic said said').1
    | stop said' => cases deterministic said said' with | intro v y => cases v; exact ⟨rfl, y⟩
    | fail said' => cases (deterministic said said').1
  | fail said =>
    cases hears' with
    | goOn said' => cases (deterministic said said').1
    | stop said' => cases (deterministic said said').1
    | fail said' => cases deterministic said said' with | intro v y => cases v; exact ⟨rfl, y⟩

namespace Weighed

theorem nil_iff :
    Weighed ruling finish start before [] m x ↔ m = .running start 0 ∧ x = before := by
  constructor
  · intro weighed
    generalize same : ([] : List (Arrival α)) = as at weighed
    cases weighed with
    | start => exact ⟨rfl, rfl⟩
    | hear => exact absurd same (List.append_ne_nil_of_right_ne_nil _ (List.cons_ne_nil _ _)).symm
  · rintro ⟨rfl, rfl⟩
    exact .start

theorem concat_iff {b : Arrival α} : Weighed ruling finish start before (as ++ [b]) m x ↔
    ∃ s i y, Weighed ruling finish start before as (.running s i) y ∧
      Hears ruling finish s i y b m x := by
  constructor
  · intro weighed
    generalize same : as ++ [b] = cs at weighed
    cases weighed with
    | start => exact absurd same (List.append_ne_nil_of_right_ne_nil _ (List.cons_ne_nil _ _))
    | hear weighed hears =>
      obtain ⟨rfl, last⟩ := List.append_inj' same rfl
      cases last
      exact ⟨_, _, _, weighed, hears⟩
  · rintro ⟨s, i, y, weighed, hears⟩
    exact .hear weighed hears

/-- A fold that goes on has been given items only. -/
theorem running {s : σ} {i : Nat}
    (weighed : Weighed ruling finish start before as (.running s i) x) :
    Unended as ∧ i = as.length := by
  generalize same : Folding.running s i = m at weighed
  induction weighed generalizing s i with
  | start =>
    cases same
    exact ⟨.nil, rfl⟩
  | @hear as s' i' y b m z _ hears ih =>
    subst same
    cases hears with
    | goOn =>
      obtain ⟨unended, index⟩ := ih rfl
      refine ⟨unended_append.mpr ⟨unended, fun b member => ?_⟩, ?_⟩
      · rw [List.mem_singleton.mp member]
        rfl
      · rw [List.length_append, List.length_singleton, index]

/-- A first part of what has been weighed had decided nothing. -/
theorem going_of_prefix (weighed : Weighed ruling finish start before as m x) (first : bs <+: as)
    (proper : bs ≠ as) : ∃ s i y, Weighed ruling finish start before bs (.running s i) y := by
  induction weighed with
  | start => exact absurd (List.prefix_nil.mp first) proper
  | @hear as s i y b m z weighed _ ih =>
    have first := (List.prefix_concat_iff.mp first).resolve_left proper
    by_cases whole : bs = as
    · exact whole ▸ ⟨s, i, y, weighed⟩
    · exact ih first whole

theorem unique (deterministic : ruling.Deterministic)
    (weighed : Weighed ruling finish start before as m x)
    (weighed' : Weighed ruling finish start before as m' x') : m = m' ∧ x = x' := by
  induction weighed generalizing m' x' with
  | start =>
    obtain ⟨rfl, rfl⟩ := nil_iff.mp weighed'
    exact ⟨rfl, rfl⟩
  | hear _ hears ih =>
    obtain ⟨s, i, y, weighed', hears'⟩ := concat_iff.mp weighed'
    obtain ⟨same, rfl⟩ := ih weighed'
    cases same
    exact hears.unique deterministic hears'

/-- Of arrivals that begin alike no more are weighed than those that have decided, and these come
to the same. -/
theorem alike (deterministic : ruling.Deterministic) {r : Result ρ}
    (weighed : Weighed ruling finish start before as (.finished r) x)
    (weighed' : Weighed ruling finish start before bs m x') (comparable : as <+: bs ∨ bs <+: as) :
    bs <+: as ∧ (bs = as → m = .finished r ∧ x' = x) ∧ (∀ r', m = .finished r' → bs = as) := by
  have within : bs <+: as := by
    rcases comparable with first | first
    · by_cases whole : as = bs
      · exact whole ▸ List.prefix_rfl
      · obtain ⟨s, i, y, going⟩ := weighed'.going_of_prefix first whole
        cases (weighed.unique deterministic going).1
    · exact first
  refine ⟨within, ?_, ?_⟩
  · rintro rfl
    obtain ⟨rfl, rfl⟩ := weighed.unique deterministic weighed'
    exact ⟨rfl, rfl⟩
  · rintro r' rfl
    by_cases whole : bs = as
    · exact whole
    · obtain ⟨s, i, y, going⟩ := weighed.going_of_prefix within whole
      cases (weighed'.unique deterministic going).1

end Weighed

/-! ### Uses -/

variable {item : σ → α → Nat → Time → ω → Verdict σ ρ × ω} {view : ω → ν}
  {source : Machine ω α}

theorem fold_hears (start : σ) (finish : σ → Result ρ) (judges : Judges view ruling item)
    {a : Answer α} {b : Arrival α} (arrives : a.arrival? = some b) (s : σ) (i : Nat) (now : Time)
    (w : ω) :
    let heard := (fold start item finish).hear (.running s i) a now w
    Hears ruling finish s i (view w) b heard.1 (view heard.2) := by
  intro heard
  cases a with
  | item a =>
    cases arrives
    have said := judges s a i now w
    have same : heard = (fold start item finish).receive (.running s i) (.item a) now w := rfl
    rw [same]
    rcases called : item s a i now w with ⟨s' | r | e, w'⟩
    all_goals rw [called] at said
    · have hears : Hears ruling finish s i (view w) (.item a) _ _ := .goOn said
      simpa [fold, called] using hears
    · have hears : Hears ruling finish s i (view w) (.item a) _ _ := .stop said
      simpa [fold, called] using hears
    · have hears : Hears ruling finish s i (view w) (.item a) _ _ := .fail said
      simpa [fold, called] using hears
  | signal g =>
    cases g with
    | fail e => cases arrives; exact .failure
    | done => cases arrives; exact .ended
    | _ => cases arrives

/-- However a machine is used by a fold, all that has arrived from it has been weighed, and the
machine is not asked behind what has decided. -/
theorem Weighed.of_uses (judges : Judges view ruling item) (keeps : source.Keeps view)
    {memory : (fold start item finish).Memory} {state : source.State} {answers : List (Answer α)}
    (used : (fold start item finish).Uses source view before memory state x answers) :
    Weighed ruling finish start before (arrivals answers) memory x ∧
      source.Draining state (arrivals answers) ∧
      ∀ r, memory = .finished r → pullsBegun answers = (arrivals answers).length := by
  induction used with
  | start => exact ⟨.start, .start, fun _ _ => rfl⟩
  | @pull memory s x answers _ wants now w same ih =>
    subst same
    obtain ⟨weighed, draining, -⟩ := ih
    cases memory with
    | finished r => cases wants
    | running s₁ i =>
      have next := draining.poll weighed.running.1 now w
      have kept := keeps.poll s now w
      rw [← arrivals_concat] at next
      cases arrives : (source.poll s now w).1.arrival? with
      | none =>
        have quiet : (fold start item finish).hear (.running s₁ i) (source.poll s now w).1 now
            (source.poll s now w).2.2 = (.running s₁ i, (source.poll s now w).2.2) := by
          generalize (source.poll s now w).1 = a at arrives
          cases a with
          | item a => cases arrives
          | signal g =>
            cases g with
            | fail e => cases arrives
            | done => cases arrives
            | _ => rfl
        rw [quiet, kept]
        refine ⟨?_, next, fun r same => by cases same⟩
        rwa [arrivals_quiet _ arrives]
      | some b =>
        refine ⟨?_, next, fun _ _ => pullsBegun_of_arrival _ arrives⟩
        rw [arrivals_concat, arrives]
        have hears := fold_hears start finish judges arrives s₁ i now (source.poll s now w).2.2
        rw [kept] at hears
        exact weighed.hear hears
  | @wake memory s x answers due _ wants now w late same ih => cases memory <;> cases wants
  | @tick memory s x answers _ now w same ih =>
    subst same
    obtain ⟨weighed, draining, counts⟩ := ih
    rw [keeps.tick]
    exact ⟨weighed, draining.tick now w, counts⟩

end Weighed

/-! ### Deciding -/

/-- What a fold has decided, if anything. -/
def Consumer.Folding.decision? : Folding σ ρ → Option (Result ρ)
  | .running _ _ => none
  | .finished r => some r

/-- What a consumer comes to, used with a machine: it has made a decision of all that has arrived,
or none so far, and the machine has not been asked behind what has decided. -/
structure Decides (source : Machine ω α) (c : Consumer ω α (Result ρ)) (view : ω → ν)
    (comes : ν → List (Arrival α) → Option (Result ρ) → ν → Prop) : Prop where
  uses : ∀ {before memory state x answers}, c.Uses source view before memory state x answers →
    ∃ decision, comes before (arrivals answers) decision x ∧
      (decision = none ∧ c.want memory = .pull ∨
        ∃ r, decision = some r ∧ c.want memory = .finish r ∧
          pullsBegun answers = (arrivals answers).length)
  /-- A run is a use, and has a result if and only if the consumer has. -/
  runs : ∀ output now w,
    let ran := Setting.consume c output (.initially source.hub now w)
    ∃ memory answers, c.Uses source view (view w) memory ran.2.state (view ran.2.world) answers ∧
      Setting.Told c memory ran.1

/-- Machines that begin alike, up to what has decided a use of the first one, come to the same. -/
def Indifferent (source source' : Machine ω α) (c : Consumer ω α (Result ρ))
    (view : ω → ν) : Prop :=
  ∀ {script script'}, source.GoesBy script → source'.GoesBy script' →
    ∀ {before memory state x answers r}, c.Uses source view before memory state x answers →
      c.want memory = .finish r → (∀ i < (arrivals answers).length, script i = script' i) →
    ∀ {memory' state' x' answers'}, c.Uses source' view before memory' state' x' answers' →
      arrivals answers' <+: arrivals answers ∧
        (arrivals answers' = arrivals answers → c.want memory' = .finish r ∧ x' = x) ∧
        ∀ r', c.want memory' = .finish r' → arrivals answers' = arrivals answers

section Folds

variable {ruling : Ruling ν α σ ρ} {finish : σ → Result ρ} {start : σ}
  {item : σ → α → Nat → Time → ω → Verdict σ ρ × ω} {view : ω → ν} {source source' : Machine ω α}

theorem decides_of_weighed (judges : Judges view ruling item) (keeps : source.Keeps view)
    {comes : ν → List (Arrival α) → Option (Result ρ) → ν → Prop}
    (weighs : ∀ {before as m x}, Weighed ruling finish start before as m x →
      comes before as m.decision? x) :
    Decides source (fold start item finish) view comes where
  uses {before memory state x answers} used := by
    obtain ⟨weighed, -, counts⟩ := Weighed.of_uses judges keeps used
    refine ⟨memory.decision?, weighs weighed, ?_⟩
    cases memory with
    | running s i => exact .inl ⟨rfl, rfl⟩
    | finished r => exact .inr ⟨r, rfl, rfl, counts r rfl⟩
  runs output now w := by
    intro ran
    let c := fold (ω := ω) start item finish
    let setting : Setting ω α source.hub := .initially source.hub now w
    have begun : ∃ answers, c.Uses source view (view w) c.start setting.state (view setting.world)
        answers := ⟨[], .start⟩
    obtain ⟨memory, ⟨answers, used⟩, told⟩ := Setting.run_told (c.uses_upheld source view (view w))
      none Setting.patience { output, memory := c.start } begun fun _ _ => nofun
    exact ⟨memory, answers, used, told⟩

theorem indifferent_of_judges (judges : Judges view ruling item)
    (deterministic : ruling.Deterministic) (keeps : source.Keeps view)
    (keeps' : source'.Keeps view) :
    Indifferent source source' (fold start item finish) view := by
  intro script script' goes goes' before memory state x answers r used finished same
    memory' state' x' answers' used'
  obtain ⟨weighed, draining, -⟩ := Weighed.of_uses judges keeps used
  obtain ⟨weighed', draining', -⟩ := Weighed.of_uses judges keeps' used'
  cases memory with
  | running s i => cases finished
  | finished r' =>
    cases finished
    have comparable : arrivals answers <+: arrivals answers' ∨
        arrivals answers' <+: arrivals answers := by
      rcases Nat.le_total (arrivals answers).length (arrivals answers').length with less | less
      · exact .inl ((goes draining).prefix_of_length_le (goes' draining') less same)
      · refine .inr ((goes' draining').prefix_of_length_le (goes draining) less ?_)
        exact fun i inside => (same i (Nat.lt_of_lt_of_le inside less)).symm
    obtain ⟨first, whole, ends⟩ := weighed.alike deterministic weighed' comparable
    refine ⟨first, fun all => ?_, fun r' finished' => ?_⟩
    · obtain ⟨rfl, rfl⟩ := whole all
      exact ⟨rfl, rfl⟩
    · cases memory' with
      | running => cases finished'
      | finished r₁ => exact ends r₁ rfl

end Folds

end PullStream
