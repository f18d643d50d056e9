import Mathlib.Logic.Relation
import PullStream.Proofs.Outputs

/-!
Dialogues: what a stage says to its step functions, and what it makes of the replies.

About each element a stage asks one question after the other, and each reply decides what comes
next: another question, or what the element comes to. A dialogue says which questions these are.
It does not say how long a reply takes, so that the stages whose step functions answer at once
and those whose step functions take a while have the same dialogues.

A configuration is how far a dialogue has come: what has been taken from the source, what has
been said, and what has been put out. It goes on step by step until something fails. Steps are
determined by the source and the replies, so two dialogues over one source in which the step
functions reply alike are one dialogue, of which one may have come further than the other.

* `Config.comparable` — one of two dialogues leads to the other.
* `Config.Ended.eq_of_leads` — one that has ended does not go on.
* `Config.Leads.turns` — questions and replies take turns.
-/

namespace PullStream

variable {α β : Type}

/-- The questions that a stage asks about an element. -/
structure Dialogue (α β : Type) : Type 1 where
  Query : Type
  Reply : Query → Type
  /-- The question about a new element, by its index. -/
  opening : α → Nat → Query
  /-- What follows a reply: another question, or what the element comes to, which is a result or
  nothing. -/
  next : (q : Query) → Reply q → Query ⊕ Option (Except Failure β)

namespace Dialogue

variable {D : Dialogue α β}

/-- What is said in a dialogue. -/
inductive Utterance (D : Dialogue α β) where
  | asked (q : D.Query)
  | answered (q : D.Query) (r : D.Reply q)

/-- Where a dialogue stands. -/
inductive Status (D : Dialogue α β) where
  /-- No element is being worked on. -/
  | idle
  /-- A question is to be asked. -/
  | asking (q : D.Query)
  /-- A reply is awaited. -/
  | awaiting (q : D.Query)

/-- The question that is open. -/
def Status.opened : D.Status → Option D.Query
  | .awaiting q => some q
  | _ => none

/-- How far a dialogue has come. -/
structure Config (D : Dialogue α β) where
  /-- What has been taken from the source. -/
  source : List (Except Failure α) := []
  log : List D.Utterance := []
  outs : List (Except Failure β) := []
  status : D.Status := .idle

namespace Config

variable {c c' d d' : D.Config}

/-- Nothing has failed. -/
def Clean (c : D.Config) : Prop := ∀ e, .error e ∉ c.outs

/-- A reply has come. -/
def heard (c : D.Config) (q : D.Query) (r : D.Reply q) : D.Config :=
  match D.next q r with
  | .inl q' => { c with log := c.log ++ [.answered q r], status := .asking q' }
  | .inr out =>
    { c with log := c.log ++ [.answered q r], outs := c.outs ++ out.toList, status := .idle }

/-- One step of a dialogue. -/
inductive Step (c : D.Config) : D.Config → Prop where
  /-- A failure of the source is passed on. -/
  | pass {e} : c.status = .idle →
      Step c { c with source := c.source ++ [.error e], outs := c.outs ++ [.error e] }
  /-- An element is taken. -/
  | take {a} : c.status = .idle →
      Step c { c with
        source := c.source ++ [.ok a]
        status := .asking (D.opening a (itemsOf c.source).length) }
  | ask {q} : c.status = .asking q →
      Step c { c with log := c.log ++ [.asked q], status := .awaiting q }
  | hear {q} (r : D.Reply q) : c.status = .awaiting q → Step c (c.heard q r)

/-- One step of a dialogue in which nothing has failed. -/
def Goes (c d : D.Config) : Prop := c.Clean ∧ Step c d

/-- What comes later in a dialogue. -/
abbrev Leads : D.Config → D.Config → Prop := Relation.ReflTransGen Goes

/-! ### Nothing is taken back -/

theorem heard_spec (c : D.Config) (q : D.Query) (r : D.Reply q) :
    (c.heard q r).source = c.source ∧ (c.heard q r).log = c.log ++ [.answered q r] ∧
      c.outs <+: (c.heard q r).outs := by
  unfold heard
  split
  · exact ⟨rfl, rfl, List.prefix_rfl⟩
  · exact ⟨rfl, rfl, List.prefix_append _ _⟩

theorem Step.grows (step : Step c d) :
    c.source <+: d.source ∧ c.log <+: d.log ∧ c.outs <+: d.outs := by
  cases step with
  | pass => exact ⟨List.prefix_append _ _, List.prefix_rfl, List.prefix_append _ _⟩
  | take => exact ⟨List.prefix_append _ _, List.prefix_rfl, List.prefix_rfl⟩
  | ask => exact ⟨List.prefix_rfl, List.prefix_append _ _, List.prefix_rfl⟩
  | @hear q r _ =>
    obtain ⟨source, log, outs⟩ := c.heard_spec q r
    exact ⟨source ▸ List.prefix_rfl, log ▸ List.prefix_append _ _, outs⟩

theorem Leads.grows (leads : Leads c d) :
    c.source <+: d.source ∧ c.log <+: d.log ∧ c.outs <+: d.outs := by
  induction leads with
  | refl => exact ⟨List.prefix_rfl, List.prefix_rfl, List.prefix_rfl⟩
  | tail _ goes ih =>
    obtain ⟨source, log, outs⟩ := goes.2.grows
    exact ⟨ih.1.trans source, ih.2.1.trans log, ih.2.2.trans outs⟩

/-- How much has been taken and said. -/
def size (c : D.Config) : Nat := c.source.length + c.log.length

theorem Leads.size_le (leads : Leads c d) : c.size ≤ d.size :=
  Nat.add_le_add leads.grows.1.length_le leads.grows.2.1.length_le

theorem Step.size_lt (step : Step c d) : c.size < d.size := by
  cases step with
  | pass => simp only [size, List.length_append, List.length_singleton]; omega
  | take => simp only [size, List.length_append, List.length_singleton]; omega
  | ask => simp only [size, List.length_append, List.length_singleton]; omega
  | @hear q r _ =>
    obtain ⟨source, log, -⟩ := c.heard_spec q r
    simp only [size, source, log, List.length_append, List.length_singleton]
    omega

theorem Leads.antisymm (ahead : Leads c d) (behind : Leads d c) : c = d := by
  rcases Relation.ReflTransGen.cases_head ahead with same | ⟨c', ⟨-, step⟩, rest⟩
  · exact same
  · have shorter := step.size_lt
    have longer := Leads.size_le (rest.trans behind)
    omega

/-! ### One dialogue -/

/-- Whoever replies, replies alike where the same has been said before. -/
def Alike (log log' : List D.Utterance) : Prop :=
  ∀ said q r r', said ++ [.answered q r] <+: log → said ++ [.answered q r'] <+: log' → r = r'

theorem Alike.symm {log log' : List D.Utterance} (alike : Alike log log') : Alike log' log :=
  fun said q r r' first second => (alike said q r' r second first).symm

theorem Alike.mono {log log' first second : List D.Utterance} (alike : Alike log log')
    (part : first <+: log) (part' : second <+: log') : Alike first second :=
  fun said q r r' before before' =>
    alike said q r r' (before.trans part) (before'.trans part')

/-- Replies that are told by their questions are alike. -/
theorem Alike.of_told {log log' : List D.Utterance} (reply : (q : D.Query) → D.Reply q)
    (told : ∀ q r, .answered q r ∈ log → r = reply q)
    (told' : ∀ q r, .answered q r ∈ log' → r = reply q) : Alike log log' := by
  intro said q r r' first second
  have here := told q r (first.subset (List.mem_append_right _ (List.mem_singleton_self _)))
  have there := told' q r' (second.subset (List.mem_append_right _ (List.mem_singleton_self _)))
  exact here.trans there.symm

/-- One list is a first part of the other. -/
def Comparable {γ : Type} (xs ys : List γ) : Prop := xs <+: ys ∨ ys <+: xs

theorem Comparable.of_parts {γ : Type} {xs ys zs : List γ} (first : xs <+: zs)
    (second : ys <+: zs) : Comparable xs ys :=
  List.prefix_or_prefix_of_prefix first second

theorem Comparable.mono {γ : Type} {xs xs' ys ys' : List γ} (comparable : Comparable xs' ys')
    (first : xs <+: xs') (second : ys <+: ys') : Comparable xs ys := by
  rcases comparable with before | before
  · exact .of_parts (first.trans before) second
  · exact .of_parts first (second.trans before)

theorem Comparable.last_eq {γ : Type} {xs : List γ} {x y : γ}
    (comparable : Comparable (xs ++ [x]) (xs ++ [y])) : x = y := by
  have same : xs ++ [x] = xs ++ [y] := by
    rcases comparable with before | before
    · exact before.eq_of_length (by simp)
    · exact (before.eq_of_length (by simp)).symm
  simpa using same

/-- The next step is told by the source and the reply. -/
theorem Step.unique (step : Step c d) (step' : Step c d')
    (sources : Comparable d.source d'.source) (alike : Alike d.log d'.log) : d = d' := by
  cases step with
  | pass idle =>
    cases step' with
    | pass => cases sources.last_eq; rfl
    | take => cases sources.last_eq
    | ask stands => cases idle.symm.trans stands
    | hear _ stands => cases idle.symm.trans stands
  | take idle =>
    cases step' with
    | pass => cases sources.last_eq
    | take => cases sources.last_eq; rfl
    | ask stands => cases idle.symm.trans stands
    | hear _ stands => cases idle.symm.trans stands
  | ask stands =>
    cases step' with
    | pass idle => cases idle.symm.trans stands
    | take idle => cases idle.symm.trans stands
    | ask stands' => cases stands.symm.trans stands'; rfl
    | hear _ stands' => cases stands.symm.trans stands'
  | @hear q r stands =>
    cases step' with
    | pass idle => cases idle.symm.trans stands
    | take idle => cases idle.symm.trans stands
    | ask stands' => cases stands.symm.trans stands'
    | @hear q' r' stands' =>
      cases stands.symm.trans stands'
      have said := alike c.log q r r' ((c.heard_spec q r).2.1 ▸ List.prefix_rfl)
        ((c.heard_spec q r').2.1 ▸ List.prefix_rfl)
      rw [said]

/-- Of two dialogues over one source, with replies alike, one leads to the other. -/
theorem comparable {start : D.Config} (reached : Leads start c) (reached' : Leads start d)
    (sources : Comparable c.source d.source) (alike : Alike c.log d.log) :
    Leads c d ∨ Leads d c := by
  induction reached with
  | refl => exact .inl reached'
  | @tail b c _ goes ih =>
    obtain ⟨source, log, -⟩ := goes.2.grows
    rcases ih (sources.mono source List.prefix_rfl) (alike.mono log List.prefix_rfl) with
      ahead | behind
    · rcases Relation.ReflTransGen.cases_head ahead with rfl | ⟨b', goes', rest⟩
      · exact .inr (.single goes)
      · obtain ⟨source', log', -⟩ := Leads.grows rest
        have same := goes.2.unique goes'.2 (sources.mono List.prefix_rfl source')
          (alike.mono List.prefix_rfl log')
        exact .inl (same ▸ rest)
    · exact .inr (behind.tail goes)

/-- A dialogue over `list` has ended: it has failed, or all has been taken and worked on. -/
def Ended (c : D.Config) (list : List (Except Failure α)) : Prop :=
  ¬ c.Clean ∨ c.status = .idle ∧ c.source = list

theorem Ended.eq_of_leads {list : List (Except Failure α)} (ended : c.Ended list)
    (source : d.source <+: list) (leads : Leads c d) : c = d := by
  rcases Relation.ReflTransGen.cases_head leads with rfl | ⟨c', ⟨clean, step⟩, rest⟩
  · rfl
  · rcases ended with failed | ⟨idle, all⟩
    · exact absurd clean failed
    · have bound := ((Leads.grows rest).1.trans source).length_le
      cases step with
      | pass => exact absurd bound (by simp [all])
      | take => exact absurd bound (by simp [all])
      | ask stands => cases idle.symm.trans stands
      | hear _ stands => cases idle.symm.trans stands

/-! ### Turns -/

/-- Questions and replies take turns, and each reply is to the question before it; the question
that is still open, if there is one. -/
inductive Turns : List D.Utterance → Option D.Query → Prop where
  | none : Turns [] none
  | ask {log q} : Turns log none → Turns (log ++ [.asked q]) (some q)
  | answer {log q r} : Turns log (some q) → Turns (log ++ [.answered q r]) none

theorem Leads.turns (reached : Leads {} c) : Turns c.log c.status.opened := by
  induction reached with
  | refl => exact .none
  | @tail b c _ goes ih =>
    cases goes.2 with
    | pass idle =>
      rw [idle] at ih ⊢
      exact ih
    | take idle =>
      rw [idle] at ih
      exact ih
    | ask stands =>
      rw [stands] at ih
      exact .ask ih
    | @hear q r stands =>
      rw [stands] at ih
      have answered : Turns (b.log ++ [.answered q r]) none := .answer ih
      unfold heard
      split <;> exact answered

end Config
end Dialogue
end PullStream
