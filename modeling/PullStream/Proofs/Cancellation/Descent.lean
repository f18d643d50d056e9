import Mathlib.Data.List.Induction
import PullStream.Proofs.Cancellation.Spreading

/-!
Linked descent: which tokens the setting of an ancestor reaches.

A family is all tokens together with the links that creation has made between them.
A token holds none of its linked children, so the links say who descends from whom,
and the tokens say who is still there to pass a setting on. After every history, a
held token that is not set lists its held linked children, and the held linked
children of a set token are set (`Settled`).

* `run_settled` — the invariant holds after every history.
* `isSet_set_iff` — setting a token sets exactly the tokens that descend from it
  through tokens somebody holds.
* `dropped_link_cuts` — a token in the middle that nobody holds cuts its descendants off.
-/

namespace PullStream.Tokens

/-! ### Histories -/

/-- What the holders of tokens may do, by the number of the token. -/
inductive Act where
  | create
  | createChild (parent : Nat) (mode : ChildMode)
  | clone (token : Nat)
  | set (token : Nat)
  | drop (token : Nat)
  deriving DecidableEq, Repr

/-- All tokens, and every link from a parent to a child that was ever made. -/
structure Family where
  tokens : Tokens := {}
  links : List (Nat × Nat) := []
  deriving DecidableEq, Repr

namespace Family

/-- One act. Only a token that is held can be acted on. -/
def after (f : Family) : Act → Family
  | .create => { f with tokens := f.tokens.create.2 }
  | .createChild k mode =>
    if f.tokens.isHeld k then
      { tokens := (f.tokens.createChild k mode).2
        links :=
          match mode with
          | .linked => f.links ++ [(k, (f.tokens.createChild k mode).1)]
          | .independent => f.links }
    else f
  | .clone k => if f.tokens.isHeld k then { f with tokens := f.tokens.hold k } else f
  | .set k => if f.tokens.isHeld k then { f with tokens := f.tokens.set k } else f
  | .drop k => if f.tokens.isHeld k then { f with tokens := f.tokens.release k } else f

/-- A history of acts, from no tokens at all. -/
def run (acts : List Act) : Family :=
  acts.foldl after {}

theorem run_snoc (acts : List Act) (act : Act) : run (acts ++ [act]) = (run acts).after act := by
  rw [run, List.foldl_append, ← run, List.foldl_cons, List.foldl_nil]

/-- `k` was made from `t` by a chain of linked creations. -/
inductive Descends (f : Family) (t : Nat) : Nat → Prop where
  | self : Descends f t t
  | child {i j} : Descends f t i → (i, j) ∈ f.links → Descends f t j

/-- The same, with every token of the chain held. -/
inductive HeldDescent (f : Family) (t : Nat) : Nat → Prop where
  | self : f.tokens.isHeld t = true → HeldDescent f t t
  | child {i j} : HeldDescent f t i → (i, j) ∈ f.links → f.tokens.isHeld j = true →
      HeldDescent f t j

/-! ### The invariant -/

/-- The tokens know the links among those of them that are held. A link that is `due`
need not have passed on that its parent is set. -/
structure Linked (f : Family) (due : Nat → Nat → Prop) : Prop where
  made : ∀ {i j}, (i, j) ∈ f.links → i < f.tokens.made.length ∧ j < f.tokens.made.length
  listed : ∀ {i j}, (i, j) ∈ f.links → f.tokens.isHeld i = true → f.tokens.isSet i = false →
    f.tokens.isHeld j = true → j ∈ f.tokens.children i
  linked : ∀ {i j}, j ∈ f.tokens.children i → (i, j) ∈ f.links
  passed : ∀ {i j}, (i, j) ∈ f.links → f.tokens.isHeld i = true → f.tokens.isSet i = true →
    f.tokens.isHeld j = true → f.tokens.isSet j = true ∨ due i j

/-- Nothing is due. -/
abbrev Settled (f : Family) : Prop :=
  f.Linked fun _ _ => False

variable {f : Family} {due : Nat → Nat → Prop} {t k : Nat}

theorem settled_empty : Settled {} where
  made h := absurd h List.not_mem_nil
  listed h := absurd h List.not_mem_nil
  linked h := by simp [children, get?] at h
  passed h := absurd h List.not_mem_nil

/-- The invariant allows holders to go. -/
theorem Settled.frame (s : f.Settled) {tokens : Tokens}
    (made : tokens.made.length = f.tokens.made.length)
    (isSet : ∀ j, tokens.isSet j = f.tokens.isSet j)
    (children : ∀ j, tokens.children j = f.tokens.children j)
    (isHeld : ∀ j, tokens.isHeld j = true → f.tokens.isHeld j = true) :
    Settled { f with tokens } where
  made link := made ▸ s.made link
  listed link hi unset hj := by
    rw [children]
    exact s.listed link (isHeld _ hi) (isSet _ ▸ unset) (isHeld _ hj)
  linked member := s.linked (children _ ▸ member)
  passed link hi set hj := by
    rw [isSet]
    exact s.passed link (isHeld _ hi) (isSet _ ▸ set) (isHeld _ hj)

/-- A setting settles a family if it reaches what is due. -/
theorem Linked.set (s : f.Linked due)
    (covered : ∀ {i j}, due i j → (f.tokens.set t).isSet j = true) :
    Settled { f with tokens := f.tokens.set t } where
  made link := by
    simp only [Tokens.set, made_spread]
    exact s.made link
  listed {i j} link hi unset hj := by
    have unsetBefore : f.tokens.isSet i = false := by
      rw [Bool.eq_false_iff]
      exact fun h => absurd (isSet_spread.mpr (.inl h)) (by simpa [Tokens.set] using unset)
    rw [Tokens.set, children_spread_of_unset unset]
    rw [Tokens.set, isHeld_spread] at hi hj
    exact s.listed link hi unsetBefore hj
  linked member := s.linked (children_spread_subset member)
  passed {i j} link hi set hj := by
    rw [Tokens.set, isHeld_spread] at hi hj
    refine .inl ?_
    rcases isSet_spread.mp set with before | ⟨w, start, path⟩
    · rcases s.passed link hi before hj with h | h
      · exact isSet_spread.mpr (.inl h)
      · exact covered h
    · -- The parent has been reached just now, and so lists its child.
      have unset := (isOpen_iff.mp path.isOpen).2
      cases h : f.tokens.isSet j with
      | true => exact isSet_spread.mpr (.inl h)
      | false =>
        have next := path.next (s.listed link hi unset hj) (isOpen_iff.mpr ⟨hj, h⟩)
        exact isSet_spread.mpr (.inr ⟨w, start, next⟩)

theorem Settled.create (s : f.Settled) : Settled { f with tokens := f.tokens.create.2 } where
  made link := by
    have := s.made link
    simp only [Tokens.create, List.length_append, List.length_singleton]
    omega
  listed link hi unset hj := by
    have bound := s.made link
    rw [children_create]
    exact s.listed link (((isHeld_create _ _).mp hi).resolve_left (by omega))
      (isSet_create f.tokens _ ▸ unset) (((isHeld_create _ _).mp hj).resolve_left (by omega))
  linked member := s.linked (children_create f.tokens _ ▸ member)
  passed link hi set hj := by
    have bound := s.made link
    rw [isSet_create] at set ⊢
    exact s.passed link (((isHeld_create _ _).mp hi).resolve_left (by omega)) set
      (((isHeld_create _ _).mp hj).resolve_left (by omega))

/-- With its new child a family is settled but for that child. -/
theorem Settled.adopt (s : f.Settled) (held : f.tokens.isHeld k = true) :
    Linked { tokens := adopt f.tokens k, links := f.links ++ [(k, f.tokens.made.length)] }
      fun i j => i = k ∧ j = f.tokens.made.length where
  made link := by
    have there := lt_of_isHeld held
    simp only [Tokens.adopt, made_change, Tokens.create, List.length_append,
      List.length_singleton]
    rcases List.mem_append.mp link with old | new
    · have := s.made old
      omega
    · cases List.mem_singleton.mp new
      omega
  listed {i j} link hi unset hj := by
    rw [isSet_adopt] at unset
    rw [isHeld_adopt] at hi hj
    simp only [children_adopt held]
    rcases List.mem_append.mp link with old | new
    · have bound := s.made old
      have hj := hj.resolve_left (by omega)
      have member := s.listed old (hi.resolve_left (by omega)) unset hj
      split
      · have kept : f.tokens.create.2.isHeld j = true := (isHeld_create _ _).mpr (.inr hj)
        exact List.mem_append_left _ (List.mem_filter.mpr ⟨member, kept⟩)
      · exact member
    · cases List.mem_singleton.mp new
      simp
  linked {i j} member := by
    simp only [children_adopt held] at member
    split at member
    · rename_i same
      rcases List.mem_append.mp member with old | new
      · exact List.mem_append_left _ (s.linked (List.mem_filter.mp old).1)
      · rw [List.mem_singleton.mp new, ← same]
        exact List.mem_append_right _ (List.mem_singleton.mpr rfl)
    · exact List.mem_append_left _ (s.linked member)
  passed {i j} link hi set hj := by
    rw [isSet_adopt] at set
    rw [isHeld_adopt] at hi hj
    rcases List.mem_append.mp link with old | new
    · have bound := s.made old
      refine .inl ?_
      rw [isSet_adopt]
      have passed := s.passed old (hi.resolve_left (by omega)) set (hj.resolve_left (by omega))
      exact passed.resolve_right not_false
    · cases List.mem_singleton.mp new
      exact .inr ⟨rfl, rfl⟩

theorem after_settled (s : f.Settled) (act : Act) : (f.after act).Settled := by
  cases act with
  | create => exact s.create
  | createChild k mode =>
    simp only [after]
    split
    · rename_i held
      cases mode with
      | independent => exact s.create
      | linked =>
        have adopted := s.adopt held
        simp only [createChild_linked]
        split
        · refine adopted.set fun {i j} ⟨_, same⟩ => ?_
          rw [same]
          exact isSet_set_self ((isHeld_adopt _ _).mpr (.inl rfl))
        · rename_i unset
          -- The parent is not set, so nothing was due after all.
          refine { adopted with passed := fun link hi set hj => ?_ }
          exact .inl ((adopted.passed link hi set hj).resolve_right fun ⟨same, _⟩ =>
            unset (same ▸ set))
    · exact s
  | clone k =>
    simp only [after]
    split
    · rename_i held
      exact s.frame (made_change _ _ _) (isSet_change fun _ => rfl) (children_change fun _ => rfl)
        fun j h => isHeld_hold held j ▸ h
    · exact s
  | set k =>
    simp only [after]
    split
    · exact s.set fun due => due.elim
    · exact s
  | drop k =>
    simp only [after]
    split
    · exact s.frame (made_change _ _ _) (isSet_change fun _ => rfl) (children_change fun _ => rfl)
        fun j h => isHeld_of_release h
    · exact s

theorem run_settled (acts : List Act) : (run acts).Settled := by
  induction acts using List.reverseRecOn with
  | nil => exact settled_empty
  | append_singleton acts act ih =>
    rw [run_snoc]
    exact after_settled ih act

/-! ### What a setting reaches -/

/-- In a settled family, paths go down links between held tokens. -/
theorem Settled.heldDescent (s : f.Settled) (path : Reach f.tokens t k) : f.HeldDescent t k := by
  induction path with
  | here isOpen => exact .self (isOpen_iff.mp isOpen).1
  | next _ member isOpen ih => exact .child ih (s.linked member) (isOpen_iff.mp isOpen).1

theorem HeldDescent.descends (d : f.HeldDescent t k) : f.Descends t k := by
  induction d with
  | self _ => exact .self
  | child _ link _ ih => exact .child ih link

theorem HeldDescent.held (d : f.HeldDescent t k) : f.tokens.isHeld k = true := by
  cases d with
  | self h => exact h
  | child _ _ h => exact h

theorem HeldDescent.origin (d : f.HeldDescent t k) : f.tokens.isHeld t = true := by
  induction d with
  | self h => exact h
  | child _ _ _ ih => exact ih

/-- In a settled family, what descends from a set token is set. -/
theorem Settled.isSet_of_heldDescent (s : f.Settled) (set : f.tokens.isSet t = true)
    (d : f.HeldDescent t k) : f.tokens.isSet k = true := by
  induction d with
  | self _ => exact set
  | child d link held ih => exact (s.passed link d.held ih held).resolve_right not_false

theorem heldDescent_set (d : f.HeldDescent t k) (w : Nat) :
    HeldDescent { f with tokens := f.tokens.set w } t k := by
  induction d with
  | self held => exact .self (isHeld_spread.trans held)
  | child _ link held ih => exact .child ih link (isHeld_spread.trans held)

/-- After every history, the setting of a token sets what descends from it through
tokens that are held, and nothing else. -/
theorem isSet_set_iff (acts : List Act) (t k : Nat) :
    ((run acts).after (.set t)).tokens.isSet k = true ↔
      (run acts).tokens.isSet k = true ∨ (run acts).HeldDescent t k := by
  have settled := run_settled acts
  generalize run acts = f at settled
  have settledAfter := after_settled settled (.set t)
  simp only [after] at settledAfter ⊢
  cases held : f.tokens.isHeld t with
  | false =>
    simp only [Bool.false_eq_true, if_false]
    exact ⟨.inl, fun h => h.resolve_right fun d => absurd d.origin (by simp [held])⟩
  | true =>
    simp only [held, if_true] at settledAfter ⊢
    constructor
    · intro set
      rcases isSet_spread.mp set with before | ⟨w, start, path⟩
      · exact .inl before
      · cases List.mem_singleton.mp start
        exact .inr (settled.heldDescent path)
    · rintro (before | d)
      · exact isSet_spread.mpr (.inl before)
      · exact settledAfter.isSet_of_heldDescent (isSet_set_self held) (heldDescent_set d t)

/-- Three generations of which nobody holds the second: the third is held and descends
from the first by links, and is not set with it. -/
theorem dropped_link_cuts :
    let f := run [.create, .createChild 0 .linked, .createChild 1 .linked, .drop 1]
    f.tokens.isHeld 0 = true ∧ f.tokens.isHeld 2 = true ∧ f.Descends 0 2 ∧
      (f.after (.set 0)).tokens.isSet 2 = false := by
  have family : run [.create, .createChild 0 .linked, .createChild 1 .linked, .drop 1] =
      { tokens := ⟨[⟨false, [1], 1⟩, ⟨false, [2], 0⟩, ⟨false, [], 1⟩]⟩
        links := [(0, 1), (1, 2)] } :=
    rfl
  intro f
  have parent : f.Descends 0 1 := .child .self (by simp [f, family])
  refine ⟨rfl, rfl, .child parent (by simp [f, family]), ?_⟩
  simp [f, family, after, set, spread, isHeld, isOpen, isSet, get?, children, raise, change,
    Token.isHeld, Token.isOpen, Token.raised]

end Family
end PullStream.Tokens
