import Mathlib.Tactic.ByContra
import PullStream.Cancellation

/-!
How far the setting of a token spreads.

`spread` goes through a list of tokens and raises what it finds open. What it
raises is described without the order of its work: a token is reached from another
along children, over open tokens only (`Reach`). Raising the token in front of the
list cuts no other path short, since a path that leads through it goes on from one
of its children, and those are put on the list (`reached_cons_open`).

* `get?_spread_of_reached`, `get?_spread_of_unreached` — the whole effect on each token.
* `isSet_spread`, `isHeld_spread`, `children_spread` — the same, by what is read of it.
-/

namespace PullStream.Tokens

variable {s : Tokens} {work : List Nat} {j k p w : Nat}

/-! ### One token -/

theorem get?_change (s : Tokens) (k : Nat) (f : Token → Token) (j : Nat) :
    (s.change k f).get? j = if k = j then (s.get? j).map f else s.get? j := by
  simp only [change, get?, List.getElem?_modify]
  split <;> simp

theorem get?_raise_self (s : Tokens) (k : Nat) :
    (s.raise k).get? k = (s.get? k).map Token.raised := by
  rw [raise, get?_change, if_pos rfl]

theorem get?_raise_of_ne (s : Tokens) (apart : k ≠ j) : (s.raise k).get? j = s.get? j := by
  rw [raise, get?_change, if_neg apart]

theorem isOpen_raise_self (s : Tokens) (k : Nat) : (s.raise k).isOpen k = false := by
  rw [isOpen, get?_raise_self]
  cases s.get? k <;> simp

theorem isOpen_raise_of_ne (s : Tokens) (apart : k ≠ j) :
    (s.raise k).isOpen j = s.isOpen j := by
  rw [isOpen, isOpen, get?_raise_of_ne s apart]

theorem children_raise_of_ne (s : Tokens) (apart : k ≠ j) :
    (s.raise k).children j = s.children j := by
  rw [children, children, get?_raise_of_ne s apart]

theorem made_change (s : Tokens) (k : Nat) (g : Token → Token) :
    (s.change k g).made.length = s.made.length := by
  simp [change]

/-- What a change does not touch in a token it touches nowhere. -/
theorem isSet_change {f : Token → Token} (same : ∀ t, (f t).isSet = t.isSet) (j : Nat) :
    (s.change k f).isSet j = s.isSet j := by
  rw [isSet, get?_change, isSet]
  split
  · cases s.get? j <;> simp [same]
  · rfl

theorem children_change {f : Token → Token} (same : ∀ t, (f t).children = t.children) (j : Nat) :
    (s.change k f).children j = s.children j := by
  rw [children, get?_change, children]
  split
  · cases s.get? j <;> simp [same]
  · rfl

theorem isHeld_change {f : Token → Token} (same : ∀ t, (f t).holders = t.holders) (j : Nat) :
    (s.change k f).isHeld j = s.isHeld j := by
  rw [isHeld, get?_change, isHeld]
  split
  · cases s.get? j <;> simp [Token.isHeld, same]
  · rfl

theorem isHeld_hold (held : s.isHeld k = true) (j : Nat) : (s.hold k).isHeld j = s.isHeld j := by
  rw [hold, isHeld, get?_change]
  split
  · rename_i same
    subst same
    rw [held]
    unfold isHeld at held
    cases h : s.get? k with
    | none => simp [h] at held
    | some t => simp [Token.isHeld]
  · rfl

theorem isHeld_of_release (held : (s.release k).isHeld j = true) : s.isHeld j = true := by
  rw [release, isHeld, get?_change] at held
  split at held
  · unfold isHeld
    cases h : s.get? j with
    | none => simp [h] at held
    | some t =>
      have left : 0 < t.holders - 1 := by simpa [h, Token.isHeld] using held
      simp only [Option.any_some, Token.isHeld, decide_eq_true_eq]
      omega
  · exact held

/-! ### A new token -/

theorem get?_create (s : Tokens) (j : Nat) :
    s.create.2.get? j = if j = s.made.length then some {} else s.get? j := by
  simp only [create, get?, List.getElem?_append]
  split
  · rw [if_neg (by omega)]
  · split
    · rename_i same
      simp [same]
    · rw [List.getElem?_eq_none (by simp; omega), List.getElem?_eq_none (by omega)]

/-- There is nothing under the number that a new token gets. -/
theorem get?_fresh (s : Tokens) : s.get? s.made.length = none :=
  List.getElem?_eq_none (Nat.le_refl _)

theorem isSet_create (s : Tokens) (j : Nat) : s.create.2.isSet j = s.isSet j := by
  rw [isSet, get?_create, isSet]
  split
  · rename_i same
    simp [same, get?_fresh]
  · rfl

theorem children_create (s : Tokens) (j : Nat) : s.create.2.children j = s.children j := by
  rw [children, get?_create, children]
  split
  · rename_i same
    simp [same, get?_fresh]
  · rfl

theorem isHeld_create (s : Tokens) (j : Nat) :
    s.create.2.isHeld j = true ↔ j = s.made.length ∨ s.isHeld j = true := by
  rw [isHeld, get?_create]
  by_cases same : j = s.made.length
  · simp [same, Token.isHeld]
  · simp [same, isHeld]

/-- Who is held has been made. -/
theorem lt_of_isHeld (held : s.isHeld k = true) : k < s.made.length := by
  by_contra beyond
  unfold isHeld get? at held
  simp [List.getElem?_eq_none (Nat.le_of_not_lt beyond)] at held

/-! ### A linked child -/

/-- The parent learns its new child. -/
def adopt (s : Tokens) (k : Nat) : Tokens :=
  s.create.2.change k fun t =>
    { t with children := t.children.filter s.create.2.isHeld ++ [s.made.length] }

theorem createChild_linked (s : Tokens) (k : Nat) :
    s.createChild k .linked =
      (s.made.length, if (adopt s k).isSet k then (adopt s k).set s.made.length else adopt s k) :=
  rfl

theorem children_adopt {s : Tokens} (held : s.isHeld k = true) (j : Nat) :
    (adopt s k).children j =
      if k = j then (s.children j).filter s.create.2.isHeld ++ [s.made.length]
      else s.children j := by
  have there := lt_of_isHeld held
  have old : s.create.2.get? k = s.get? k := by rw [get?_create, if_neg (by omega)]
  rw [adopt, children, get?_change]
  split
  · rename_i same
    subst same
    unfold isHeld at held
    cases h : s.get? k with
    | none => simp [h] at held
    | some t => simp [old, h, children]
  · exact children_create s j

theorem isSet_adopt (s : Tokens) (j : Nat) : (adopt s k).isSet j = s.isSet j := by
  rw [adopt, isSet_change, isSet_create]
  exact fun _ => rfl

theorem isHeld_adopt (s : Tokens) (j : Nat) :
    (adopt s k).isHeld j = true ↔ j = s.made.length ∨ s.isHeld j = true := by
  rw [← isHeld_create, adopt, isHeld_change]
  exact fun _ => rfl

/-! ### Paths -/

/-- An open token is held and not set. -/
theorem isOpen_iff : s.isOpen k = true ↔ s.isHeld k = true ∧ s.isSet k = false := by
  unfold isOpen isHeld isSet
  cases s.get? k <;> simp [Token.isOpen]

/-- A path along children from `w`, over open tokens. -/
inductive Reach (s : Tokens) (w : Nat) : Nat → Prop where
  | here : s.isOpen w = true → Reach s w w
  | next {i j} : Reach s w i → j ∈ s.children i → s.isOpen j = true → Reach s w j

/-- A token that one of a list has a path to. -/
def Reached (s : Tokens) (work : List Nat) (k : Nat) : Prop :=
  ∃ w ∈ work, Reach s w k

theorem Reach.isOpen (path : Reach s w k) : s.isOpen k = true := by
  cases path with
  | here h => exact h
  | next _ _ h => exact h

theorem Reach.start (path : Reach s w k) : s.isOpen w = true := by
  induction path with
  | here h => exact h
  | next _ _ _ ih => exact ih

theorem Reach.trans (first : Reach s w p) (second : Reach s p k) : Reach s w k := by
  induction second with
  | here _ => exact first
  | next _ member isOpen ih => exact .next ih member isOpen

/-- Raising a token makes no new path. -/
theorem Reach.of_raise (path : Reach (s.raise k) w j) : Reach s w j ∧ j ≠ k := by
  have apart : ∀ {i}, (s.raise k).isOpen i = true → k ≠ i := by
    rintro i h rfl
    exact absurd h (by simp [isOpen_raise_self])
  induction path with
  | here h => exact ⟨.here (isOpen_raise_of_ne s (apart h) ▸ h), (apart h).symm⟩
  | @next p i _ member h ih =>
    rw [children_raise_of_ne s ih.2.symm] at member
    exact ⟨.next ih.1 member (isOpen_raise_of_ne s (apart h) ▸ h), (apart h).symm⟩

/-- A path survives the raising of a token unless it leads through it; then it goes
on from one of the token's children. -/
theorem Reach.split (path : Reach s w j) :
    j = k ∨ Reach (s.raise k) w j ∨ Reached (s.raise k) (s.children k) j := by
  -- By the last token of the path: what leads to the one before it leads on.
  induction path with
  | here h =>
    by_cases same : w = k
    · exact .inl same
    · exact .inr (.inl (.here (by rwa [isOpen_raise_of_ne s (Ne.symm same)])))
  | @next p i _ member h ih =>
    by_cases same : i = k
    · exact .inl same
    have stillOpen : (s.raise k).isOpen i = true := by rwa [isOpen_raise_of_ne s (Ne.symm same)]
    rcases ih with rfl | survives | ⟨c, child, onward⟩
    · exact .inr (.inr ⟨i, member, .here stillOpen⟩)
    · have listed := children_raise_of_ne s survives.of_raise.2.symm
      exact .inr (.inl (.next survives (listed ▸ member) stillOpen))
    · have listed := children_raise_of_ne s onward.of_raise.2.symm
      exact .inr (.inr ⟨c, child, .next onward (listed ▸ member) stillOpen⟩)

theorem reached_cons_open (isOpen : s.isOpen k = true) :
    Reached s (k :: work) j ↔ j = k ∨ Reached (s.raise k) (s.children k ++ work) j := by
  constructor
  · rintro ⟨w, member, path⟩
    rcases path.split with same | survives | ⟨c, child, onward⟩
    · exact .inl same
    · rcases List.mem_cons.mp member with rfl | member
      · exact absurd survives.start (by simp [isOpen_raise_self])
      · exact .inr ⟨w, List.mem_append_right _ member, survives⟩
    · exact .inr ⟨c, List.mem_append_left _ child, onward⟩
  · rintro (rfl | ⟨c, member, path⟩)
    · exact ⟨j, List.mem_cons_self, .here isOpen⟩
    · have path := path.of_raise.1
      rcases List.mem_append.mp member with child | member
      · exact ⟨k, List.mem_cons_self, .trans (.next (.here isOpen) child path.start) path⟩
      · exact ⟨c, List.mem_cons_of_mem _ member, path⟩

theorem reached_cons_closed (closed : s.isOpen k = false) :
    Reached s (k :: work) j ↔ Reached s work j := by
  constructor
  · rintro ⟨w, member, path⟩
    rcases List.mem_cons.mp member with rfl | member
    · exact absurd path.start (by simp [closed])
    · exact ⟨w, member, path⟩
  · rintro ⟨w, member, path⟩
    exact ⟨w, List.mem_cons_of_mem _ member, path⟩

/-! ### What is raised -/

/-- Exactly the tokens that are reached are raised. -/
theorem get?_spread (work : List Nat) (s : Tokens) (j : Nat) :
    (Reached s work j → (spread work s).get? j = (s.get? j).map Token.raised) ∧
      (¬ Reached s work j → (spread work s).get? j = s.get? j) := by
  induction work, s using spread.induct with
  | case1 s =>
    rw [spread]
    exact ⟨fun ⟨_, member, _⟩ => absurd member List.not_mem_nil, fun _ => rfl⟩
  | case2 s k rest isOpen ih =>
    rw [spread, if_pos isOpen, reached_cons_open isOpen]
    by_cases same : j = k
    · subst same
      have once : ¬ Reached (s.raise j) (s.children j ++ rest) j :=
        fun ⟨_, _, path⟩ => path.of_raise.2 rfl
      exact ⟨fun _ => by rw [ih.2 once, get?_raise_self], fun h => absurd (.inl rfl) h⟩
    · rw [get?_raise_of_ne s (Ne.symm same)] at ih
      exact ⟨fun h => ih.1 (h.resolve_left same), fun h => ih.2 (h ∘ .inr)⟩
  | case3 s k rest closed ih =>
    rw [spread, if_neg closed, reached_cons_closed (by simpa using closed)]
    exact ih

theorem get?_spread_of_reached (reached : Reached s work j) :
    (spread work s).get? j = (s.get? j).map Token.raised :=
  (get?_spread work s j).1 reached

theorem get?_spread_of_unreached (unreached : ¬ Reached s work j) :
    (spread work s).get? j = s.get? j :=
  (get?_spread work s j).2 unreached

/-- What is set afterwards was set before or is reached. -/
theorem isSet_spread : (spread work s).isSet j = true ↔ s.isSet j = true ∨ Reached s work j := by
  by_cases reached : Reached s work j
  · have there : s.isOpen j = true := reached.choose_spec.2.isOpen
    rw [isSet, get?_spread_of_reached reached]
    unfold isOpen at there
    cases h : s.get? j with
    | none => simp [h] at there
    | some t => simp [reached, Token.raised]
  · rw [isSet, get?_spread_of_unreached reached]
    simp [reached, isSet]

/-- Nobody lets go of a token because it is set. -/
theorem isHeld_spread : (spread work s).isHeld j = s.isHeld j := by
  by_cases reached : Reached s work j
  · rw [isHeld, get?_spread_of_reached reached, isHeld]
    cases s.get? j <;> rfl
  · rw [isHeld, get?_spread_of_unreached reached, isHeld]

/-- A token that is not set afterwards has kept its children. -/
theorem children_spread_of_unset (unset : (spread work s).isSet j = false) :
    (spread work s).children j = s.children j := by
  have unreached : ¬ Reached s work j := fun reached =>
    absurd (isSet_spread.mpr (.inr reached)) (by simp [unset])
  rw [children, get?_spread_of_unreached unreached, children]

/-- Setting gives no token children. -/
theorem children_spread_subset : (spread work s).children j ⊆ s.children j := by
  by_cases reached : Reached s work j
  · rw [children, get?_spread_of_reached reached]
    cases s.get? j <;> simp [Token.raised]
  · rw [children, get?_spread_of_unreached reached, children]
    exact List.Subset.refl _

theorem made_spread (work : List Nat) (s : Tokens) :
    (s.spread work).made.length = s.made.length := by
  induction work, s using spread.induct with
  | case1 s => rw [spread]
  | case2 s k rest isOpen ih => rw [spread, if_pos isOpen, ih, raise, made_change]
  | case3 s k rest closed ih => rw [spread, if_neg closed, ih]

/-- A held token is set by its own setting. -/
theorem isSet_set_self (held : s.isHeld k = true) : (s.set k).isSet k = true := by
  refine isSet_spread.mpr ?_
  cases h : s.isSet k with
  | true => exact .inl rfl
  | false => exact .inr ⟨k, List.mem_singleton.mpr rfl, .here (isOpen_iff.mpr ⟨held, h⟩)⟩

end PullStream.Tokens
