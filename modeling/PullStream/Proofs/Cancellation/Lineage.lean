import Mathlib.Data.List.Nodup
import Mathlib.Logic.Relation
import PullStream.Proofs.Cancellation.Descent

/-!
How far cancellation spreads.

Who was made from whom, and which tokens somebody set, is read off the acts of a history. A token is
made once, from one parent and in one mode, and has a greater number than its parent, so that the
chains of creations are those of a forest. The setting of a token goes down linked creations only
and therefore stays away from ancestors, from siblings and from all that is behind an independent
child. The setting itself is a recursion over the children that are still held; `Raising` is this
recursion with the flags that it flips, and `spread` is what it comes to.

* `run_isSet` — a token that is set was set by a call, on it or on a linked ancestor.
* `raising_spread`, `Raising.unique`, `Raising.flips` — the recursion ends, in one way, and flips no
  flag twice.
* `cancellation_confined` — the spreading of cancellation after any history.
-/

namespace PullStream.Tokens

/-! ### The recursion -/

/-- The tokens of a list are set one after another. One that nobody holds any more, or that is set,
is passed over. Another is flipped and loses its children, which are set next. -/
inductive Raising : List Nat → Tokens → List Nat → Tokens → Prop where
  | done {s} : Raising [] s [] s
  | gone {k rest s flips t} : s.isHeld k = false → Raising rest s flips t →
      Raising (k :: rest) s flips t
  | already {k rest s flips t} : s.isHeld k = true → s.isSet k = true → Raising rest s flips t →
      Raising (k :: rest) s flips t
  | flip {k rest s inner t outer u} : s.isHeld k = true → s.isSet k = false →
      Raising (s.children k) (s.raise k) inner t → Raising rest t outer u →
      Raising (k :: rest) s (k :: inner ++ outer) u

variable {s t u : Tokens} {j k : Nat}

/-- Two lists are set one after the other. -/
theorem Raising.split {front back flips : List Nat} (r : Raising (front ++ back) s flips u) :
    ∃ t inner outer, Raising front s inner t ∧ Raising back t outer u ∧ flips = inner ++ outer := by
  induction front generalizing s flips with
  | nil => exact ⟨s, [], flips, .done, r, rfl⟩
  | cons k rest ih =>
    cases r with
    | gone left r =>
      obtain ⟨t, inner, outer, first, second, rfl⟩ := ih r
      exact ⟨t, inner, outer, .gone left first, second, rfl⟩
    | already held set r =>
      obtain ⟨t, inner, outer, first, second, rfl⟩ := ih r
      exact ⟨t, inner, outer, .already held set first, second, rfl⟩
    | @flip _ _ _ below _ _ _ held unset children r =>
      obtain ⟨t, inner, outer, first, second, rfl⟩ := ih r
      exact ⟨t, k :: below ++ inner, outer, .flip held unset children first, second, by simp⟩

/-- The recursion ends, with what `spread` says. -/
theorem raising_spread (work : List Nat) (s : Tokens) :
    ∃ flips, Raising work s flips (spread work s) := by
  induction work, s using spread.induct with
  | case1 s =>
    rw [spread]
    exact ⟨[], .done⟩
  | case2 s k rest isOpen ih =>
    rw [spread, if_pos isOpen]
    obtain ⟨flips, r⟩ := ih
    obtain ⟨t, inner, outer, children, others, -⟩ := r.split
    obtain ⟨held, unset⟩ := isOpen_iff.mp isOpen
    exact ⟨_, .flip held unset children others⟩
  | case3 s k rest closed ih =>
    rw [spread, if_neg closed]
    obtain ⟨flips, r⟩ := ih
    rw [isOpen_iff, not_and, Bool.not_eq_false] at closed
    cases held : s.isHeld k with
    | false => exact ⟨flips, .gone held r⟩
    | true => exact ⟨flips, .already held (closed held) r⟩

/-- What the recursion does is determined. -/
theorem Raising.unique {work flips flips' : List Nat} {t t' : Tokens}
    (r : Raising work s flips t) (r' : Raising work s flips' t') : flips' = flips ∧ t' = t := by
  induction r generalizing flips' t' with
  | done =>
    cases r' with
    | done => exact ⟨rfl, rfl⟩
  | gone left _ ih =>
    cases r' with
    | gone _ r' => exact ih r'
    | already held _ _ => simp [left] at held
    | flip held _ _ _ => simp [left] at held
  | already held set _ ih =>
    cases r' with
    | gone left _ => simp [left] at held
    | already _ _ r' => exact ih r'
    | flip _ unset _ _ => simp [unset] at set
  | flip held unset _ _ below beside =>
    cases r' with
    | gone left _ => simp [left] at held
    | already _ set _ => simp [unset] at set
    | flip _ _ children others =>
      obtain ⟨rfl, rfl⟩ := below children
      obtain ⟨rfl, rfl⟩ := beside others
      exact ⟨rfl, rfl⟩

theorem isSet_raise (held : s.isHeld k = true) :
    (s.raise k).isSet j = true ↔ j = k ∨ s.isSet j = true := by
  by_cases same : j = k
  · subst same
    unfold isHeld at held
    rw [isSet, get?_raise_self]
    cases there : s.get? j with
    | none => simp [there] at held
    | some token => simp [Token.raised]
  · rw [isSet, get?_raise_of_ne s (Ne.symm same), isSet]
    simp [same]

/-- The recursion flips just the flags that are not set before and are set afterwards, each of them
once, and unsets none. -/
theorem Raising.flips {work flips : List Nat} (r : Raising work s flips t) :
    flips.Nodup ∧ ∀ j, (j ∈ flips → s.isSet j = false) ∧
      (t.isSet j = true ↔ j ∈ flips ∨ s.isSet j = true) := by
  induction r with
  | done => simp
  | gone _ _ ih => exact ih
  | already _ _ _ ih => exact ih
  | @flip k rest s inner t outer u held unset _ _ below beside =>
    obtain ⟨once, below⟩ := below
    obtain ⟨once', beside⟩ := beside
    simp only [isSet_raise held] at below
    -- What is flipped further down is set when the turn of the others comes.
    have apart : ∀ j ∈ outer, j ≠ k ∧ j ∉ inner ∧ s.isSet j = false := by
      intro j member
      have later := (beside j).1 member
      rw [Bool.eq_false_iff, Ne, (below j).2, not_or, not_or] at later
      exact ⟨later.2.1, later.1, by simpa using later.2.2⟩
    have fresh : ∀ j ∈ inner, j ≠ k ∧ s.isSet j = false := by
      intro j member
      have later := (below j).1 member
      rw [Bool.eq_false_iff, Ne, isSet_raise held, not_or] at later
      exact ⟨later.1, by simpa using later.2⟩
    constructor
    · rw [List.cons_append, List.nodup_cons, List.mem_append, not_or]
      refine ⟨⟨fun member => (fresh k member).1 rfl, fun member => (apart k member).1 rfl⟩, ?_⟩
      refine List.nodup_append'.mpr ⟨once, once', ?_⟩
      exact fun j inside outside => (apart j outside).2.1 inside
    · intro j
      rw [(beside j).2, (below j).2, List.cons_append, List.mem_cons, List.mem_append]
      constructor
      · rintro (rfl | inside | outside)
        · exact unset
        · exact (fresh j inside).2
        · exact (apart j outside).2.2
      · tauto

/-! ### A new child -/

theorem children_fresh (s : Tokens) : s.children s.made.length = [] := by
  rw [children, get?_fresh]
  rfl

/-- A child starts set if it is linked and its parent is set. -/
theorem get?_createChild (held : s.isHeld k = true) (mode : ChildMode) :
    (s.createChild k mode).2.get? s.made.length =
      some { isSet := decide (mode = .linked) && s.isSet k } := by
  have new : k ≠ s.made.length := Nat.ne_of_lt (lt_of_isHeld held)
  cases mode with
  | independent =>
    change s.create.2.get? s.made.length = _
    rw [get?_create, if_pos rfl]
    rfl
  | linked =>
    have adopted : (adopt s k).get? s.made.length = some {} := by
      rw [adopt, get?_change, if_neg new, get?_create, if_pos rfl]
    rw [createChild_linked, isSet_adopt]
    cases set : s.isSet k with
    | false => simpa using adopted
    | true =>
      have isOpen : (adopt s k).isOpen s.made.length = true := by
        rw [isOpen, adopted]
        rfl
      have reached : Reached (adopt s k) [s.made.length] s.made.length :=
        ⟨_, List.mem_singleton_self _, .here isOpen⟩
      rw [if_pos rfl, Tokens.set, get?_spread_of_reached reached, adopted]
      rfl

/-- The creation of a child sets nothing but the child, and that only if it is linked and its parent
is set. -/
theorem isSet_createChild (held : s.isHeld k = true) (mode : ChildMode)
    (set : (s.createChild k mode).2.isSet j = true) :
    s.isSet j = true ∨ j = s.made.length ∧ mode = .linked ∧ s.isSet k = true := by
  cases mode with
  | independent => exact .inl (isSet_create s j ▸ set)
  | linked =>
    rw [createChild_linked, isSet_adopt] at set
    cases parent : s.isSet k with
    | false =>
      rw [parent, if_neg Bool.false_ne_true, isSet_adopt] at set
      exact .inl set
    | true =>
      rw [parent, if_pos rfl] at set
      rcases isSet_spread.mp set with before | ⟨w, start, path⟩
      · exact .inl (isSet_adopt s j ▸ before)
      · -- The child has no children of its own yet.
        have bare : (adopt s k).children s.made.length = [] := by
          rw [children_adopt held, if_neg (Nat.ne_of_lt (lt_of_isHeld held)), children_fresh]
        have here : j = s.made.length := by
          rw [List.mem_singleton.mp start] at path
          clear set start
          induction path with
          | here _ => rfl
          | next _ member _ ih => simp [ih, bare] at member
        exact .inr ⟨here, rfl, rfl⟩

theorem isSet_createChild_of_isSet (mode : ChildMode) (set : s.isSet j = true) :
    (s.createChild k mode).2.isSet j = true := by
  cases mode with
  | independent => exact (isSet_create s j).trans set
  | linked =>
    have adopted : (adopt s k).isSet j = true := (isSet_adopt s j).trans set
    rw [createChild_linked]
    dsimp only
    split
    · exact isSet_spread.mpr (.inl adopted)
    · exact adopted

theorem isSet_hold (s : Tokens) (j : Nat) : (s.hold k).isSet j = s.isSet j := by
  rw [hold, isSet_change]
  exact fun _ => rfl

theorem isSet_release (s : Tokens) (j : Nat) : (s.release k).isSet j = s.isSet j := by
  rw [release, isSet_change]
  exact fun _ => rfl

namespace Family

/-! ### Who was made from whom -/

/-- Some holder of `p` made the token `c` from it. -/
def Born (acts : List Act) (p : Nat) (mode : ChildMode) (c : Nat) : Prop :=
  ∃ before, before ++ [.createChild p mode] <+: acts ∧
    (run before).tokens.isHeld p = true ∧ ((run before).tokens.createChild p mode).1 = c

/-- Some holder of `t` called for its setting. -/
def Called (acts : List Act) (t : Nat) : Prop :=
  ∃ before, before ++ [.set t] <+: acts ∧ (run before).tokens.isHeld t = true

/-- A child of any kind. -/
def Child (acts : List Act) (p c : Nat) : Prop :=
  ∃ mode, Born acts p mode c

/-- A linked child. -/
def LinkedChild (acts : List Act) (p c : Nat) : Prop :=
  Born acts p .linked c

/-- An unbroken chain of linked children, maybe none. -/
abbrev Lineage (acts : List Act) : Nat → Nat → Prop :=
  Relation.ReflTransGen (LinkedChild acts)

/-- A chain of children, maybe none. -/
abbrev Offspring (acts : List Act) : Nat → Nat → Prop :=
  Relation.ReflTransGen (Child acts)

/-- A chain of children, at least one. -/
abbrev Ancestor (acts : List Act) : Nat → Nat → Prop :=
  Relation.TransGen (Child acts)

variable {acts later : List Act} {a : Act} {f : Family} {mode mode' : ChildMode}
  {p p' c i t k : Nat}

theorem createChild_number (s : Tokens) (p : Nat) (mode : ChildMode) :
    (s.createChild p mode).1 = s.made.length := by
  cases mode with
  | independent => rfl
  | linked => rfl

theorem born_snoc : Born (acts ++ [a]) p mode c ↔ Born acts p mode c ∨
    a = .createChild p mode ∧ (run acts).tokens.isHeld p = true ∧
      (run acts).tokens.made.length = c := by
  simp only [Born, createChild_number]
  constructor
  · rintro ⟨before, comes, held, number⟩
    rcases List.prefix_concat_iff.mp comes with last | earlier
    · obtain ⟨rfl, same⟩ := List.append_inj' last rfl
      exact .inr ⟨(List.singleton_inj.mp same).symm, held, number⟩
    · exact .inl ⟨before, earlier, held, number⟩
  · rintro (⟨before, comes, held, number⟩ | ⟨rfl, held, number⟩)
    · exact ⟨before, comes.trans (List.prefix_append _ _), held, number⟩
    · exact ⟨acts, List.prefix_refl _, held, number⟩

theorem Born.snoc (b : Born acts p mode c) (a : Act) : Born (acts ++ [a]) p mode c :=
  born_snoc.mpr (.inl b)

theorem Called.snoc (called : Called acts t) (a : Act) : Called (acts ++ [a]) t := by
  obtain ⟨before, comes, held⟩ := called
  exact ⟨before, comes.trans (List.prefix_append _ _), held⟩

theorem Lineage.snoc (l : Lineage acts t k) (a : Act) : Lineage (acts ++ [a]) t k := by
  have grows : LinkedChild acts ≤ LinkedChild (acts ++ [a]) := fun _ _ b => Born.snoc b a
  exact Relation.ReflTransGen.mono grows t k l

theorem made_createChild (s : Tokens) (p : Nat) (mode : ChildMode) :
    (s.createChild p mode).2.made.length = s.made.length + 1 := by
  cases mode with
  | independent => simp [createChild, create]
  | linked =>
    have adopted : (adopt s p).made.length = s.made.length + 1 := by
      rw [adopt, made_change]
      simp [create]
    rw [createChild_linked]
    dsimp only
    split
    · rw [Tokens.set, made_spread, adopted]
    · exact adopted

theorem made_after (f : Family) (a : Act) :
    f.tokens.made.length ≤ (f.after a).tokens.made.length := by
  cases a with
  | create => simp [after, Tokens.create]
  | createChild k mode =>
    simp only [after]
    split
    · rw [made_createChild]
      exact Nat.le_succ _
    · exact Nat.le_refl _
  | clone k =>
    simp only [after]
    split
    · exact Nat.le_of_eq (made_change _ _ _).symm
    · exact Nat.le_refl _
  | set k =>
    simp only [after]
    split
    · exact Nat.le_of_eq (made_spread _ _).symm
    · exact Nat.le_refl _
  | drop k =>
    simp only [after]
    split
    · exact Nat.le_of_eq (made_change _ _ _).symm
    · exact Nat.le_refl _

theorem Born.made (b : Born acts p mode c) : c < (run acts).tokens.made.length := by
  induction acts using List.reverseRecOn with
  | nil =>
    obtain ⟨before, comes, -⟩ := b
    simp at comes
  | append_singleton acts a ih =>
    rw [run_snoc]
    rcases born_snoc.mp b with earlier | ⟨rfl, held, rfl⟩
    · exact Nat.lt_of_lt_of_le (ih earlier) (made_after _ _)
    · simp only [after, held, if_true]
      rw [made_createChild]
      exact Nat.lt_succ_self _

theorem Born.lt (b : Born acts p mode c) : p < c := by
  obtain ⟨before, -, held, rfl⟩ := b
  rw [createChild_number]
  exact lt_of_isHeld held

/-- A token has one parent, and is its child in one mode. -/
theorem Born.unique (b : Born acts p mode c) (b' : Born acts p' mode' c) :
    p' = p ∧ mode' = mode := by
  induction acts using List.reverseRecOn with
  | nil =>
    obtain ⟨before, comes, -⟩ := b
    simp at comes
  | append_singleton acts a ih =>
    rcases born_snoc.mp b with earlier | ⟨rfl, -, number⟩
    · rcases born_snoc.mp b' with earlier' | ⟨rfl, -, number⟩
      · exact ih earlier earlier'
      · exact absurd earlier.made (by omega)
    · rcases born_snoc.mp b' with earlier' | ⟨same, -, -⟩
      · exact absurd earlier'.made (by omega)
      · cases same
        exact ⟨rfl, rfl⟩

/-- The links of a family are its linked children. -/
theorem mem_links_run : (p, c) ∈ (run acts).links ↔ LinkedChild acts p c := by
  induction acts using List.reverseRecOn with
  | nil =>
    refine ⟨fun member => absurd member List.not_mem_nil, ?_⟩
    rintro ⟨before, comes, -⟩
    simp at comes
  | append_singleton acts a ih =>
    rw [run_snoc, LinkedChild, born_snoc, ← LinkedChild, ← ih]
    cases a with
    | create => simp [after]
    | createChild k mode =>
      cases held : (run acts).tokens.isHeld k with
      | false =>
        simp only [after, held, Bool.false_eq_true, if_false]
        refine ⟨.inl, ?_⟩
        rintro (member | ⟨same, held', -⟩)
        · exact member
        · cases same
          simp [held] at held'
      | true =>
        simp only [after, held, if_true]
        cases mode with
        | independent => simp
        | linked =>
          rw [createChild_number, List.mem_append, List.mem_singleton]
          constructor
          · rintro (old | new)
            · exact .inl old
            · cases new
              exact .inr ⟨rfl, held, rfl⟩
          · rintro (old | ⟨same, -, rfl⟩)
            · exact .inl old
            · cases same
              exact .inr rfl
    | clone k =>
      simp only [after]
      split <;> simp
    | set k =>
      simp only [after]
      split <;> simp
    | drop k =>
      simp only [after]
      split <;> simp

theorem Descends.lineage (d : (run acts).Descends t k) : Lineage acts t k := by
  induction d with
  | self => exact .refl
  | child _ link ih => exact ih.tail (mem_links_run.mp link)

/-! ### The forest -/

theorem Offspring.le (o : Offspring acts t k) : t ≤ k := by
  induction o with
  | refl => exact Nat.le_refl _
  | tail _ child ih =>
    obtain ⟨mode, born⟩ := child
    exact Nat.le_trans ih (Nat.le_of_lt born.lt)

theorem Ancestor.lt (a : Ancestor acts t k) : t < k := by
  induction a with
  | single child =>
    obtain ⟨mode, born⟩ := child
    exact born.lt
  | tail _ child ih =>
    obtain ⟨mode, born⟩ := child
    exact Nat.lt_trans ih born.lt

theorem Lineage.offspring (l : Lineage acts t k) : Offspring acts t k := by
  have child : LinkedChild acts ≤ Child acts := fun _ _ b => ⟨.linked, b⟩
  exact Relation.ReflTransGen.mono child t k l

/-- A linked chain to another token comes through the token's parent. -/
theorem Lineage.through_parent (l : Lineage acts t k) (apart : t ≠ k) (b : Born acts p mode k) :
    mode = .linked ∧ Lineage acts t p := by
  cases l with
  | refl => exact absurd rfl apart
  | tail above last =>
    obtain ⟨rfl, rfl⟩ := Born.unique last b
    exact ⟨rfl, above⟩

theorem not_lineage_of_ancestor (above : Ancestor acts k t) : ¬ Lineage acts t k := by
  intro l
  have := above.lt
  have := l.offspring.le
  omega

theorem not_lineage_of_sibling (b : Born acts p mode t) (b' : Born acts p mode' k)
    (apart : t ≠ k) : ¬ Lineage acts t k := by
  intro l
  have := (l.through_parent apart b').2.offspring.le
  have := b.lt
  omega

theorem not_lineage_behind (above : Offspring acts t p) (b : Born acts p .independent c)
    (behind : Offspring acts c k) : ¬ Lineage acts t k := by
  have outside : t < c := Nat.lt_of_le_of_lt above.le b.lt
  induction behind with
  | refl =>
    intro l
    cases (l.through_parent (Nat.ne_of_lt outside) b).1
  | @tail i k inside child ih =>
    intro l
    obtain ⟨mode, born⟩ := child
    have beyond : t < k :=
      Nat.lt_of_lt_of_le outside (Offspring.le (inside.tail ⟨mode, born⟩))
    exact ih (l.through_parent (Nat.ne_of_lt beyond) born).2

/-! ### What is set -/

/-- No act unsets a token. -/
theorem isSet_after (a : Act) (set : f.tokens.isSet k = true) :
    (f.after a).tokens.isSet k = true := by
  cases a with
  | create => exact (isSet_create _ _).trans set
  | createChild p mode =>
    simp only [after]
    split
    · exact isSet_createChild_of_isSet mode set
    · exact set
  | clone p =>
    simp only [after]
    split
    · exact (isSet_hold _ _).trans set
    · exact set
  | set p =>
    simp only [after]
    split
    · exact isSet_spread.mpr (.inl set)
    · exact set
  | drop p =>
    simp only [after]
    split
    · exact (isSet_release _ _).trans set
    · exact set

theorem isSet_run_append (later : List Act) (set : (run acts).tokens.isSet k = true) :
    (run (acts ++ later)).tokens.isSet k = true := by
  induction later using List.reverseRecOn with
  | nil => simpa using set
  | append_singleton later a ih =>
    rw [← List.append_assoc, run_snoc]
    exact isSet_after a ih

/-- A token that is not below another by linked children is not changed by its setting. -/
theorem get?_after_set (apart : ¬ Lineage acts t k) :
    ((run acts).after (.set t)).tokens.get? k = (run acts).tokens.get? k := by
  simp only [after]
  split
  · apply get?_spread_of_unreached
    rintro ⟨w, start, path⟩
    rw [List.mem_singleton.mp start] at path
    exact apart ((run_settled acts).heldDescent path).descends.lineage
  · rfl

theorem run_isSet (set : (run acts).tokens.isSet k = true) :
    ∃ t, Called acts t ∧ Lineage acts t k := by
  induction acts using List.reverseRecOn generalizing k with
  | nil => simp [run, isSet, get?] at set
  | append_singleton acts a ih =>
    -- What was set before the act was set by an earlier call.
    have earlier : ∀ {j}, (run acts).tokens.isSet j = true →
        ∃ t, Called (acts ++ [a]) t ∧ Lineage (acts ++ [a]) t j := by
      intro j before
      obtain ⟨t, called, lineage⟩ := ih before
      exact ⟨t, called.snoc a, lineage.snoc a⟩
    rw [run_snoc] at set
    cases a with
    | create => exact earlier (isSet_create _ _ ▸ set)
    | createChild p mode =>
      simp only [after] at set
      split at set
      · rename_i held
        rcases isSet_createChild held mode set with before | ⟨rfl, rfl, parent⟩
        · exact earlier before
        · obtain ⟨t, called, lineage⟩ := earlier parent
          exact ⟨t, called, lineage.tail (born_snoc.mpr (.inr ⟨rfl, held, rfl⟩))⟩
      · exact earlier set
    | clone p =>
      simp only [after] at set
      split at set
      · exact earlier (isSet_hold _ _ ▸ set)
      · exact earlier set
    | set t =>
      by_cases lineage : Lineage acts t k
      · simp only [after] at set
        split at set
        · rename_i held
          exact ⟨t, ⟨acts, List.prefix_refl _, held⟩, lineage.snoc _⟩
        · exact earlier set
      · rw [isSet, get?_after_set lineage] at set
        exact earlier set
    | drop p =>
      simp only [after] at set
      split at set
      · exact earlier (isSet_release _ _ ▸ set)
      · exact earlier set

/-- After every history of tokens, a token is set only by a call, on itself or on a token from which
it was made by an unbroken chain of linked children, and it stays set. The setting of a token
changes nothing else than tokens of such chains: no ancestor, no sibling, and nothing behind an
independent child. A child starts set if it is linked and its parent is set. The recursion of a
setting ends, in one way, and flips no flag twice. -/
theorem cancellation_confined (acts : List Act) :
    -- whence
    (∀ k, (run acts).tokens.isSet k = true → ∃ t, Called acts t ∧ Lineage acts t k) ∧
    -- for good
    (∀ later k, (run acts).tokens.isSet k = true → (run (acts ++ later)).tokens.isSet k = true) ∧
    -- how far
    (∀ t k,
      ¬ Lineage acts t k ∨ Ancestor acts k t ∨
        (t ≠ k ∧ ∃ p, Child acts p t ∧ Child acts p k) ∨
        (∃ p c, Offspring acts t p ∧ Born acts p .independent c ∧ Offspring acts c k) →
      ((run acts).after (.set t)).tokens.get? k = (run acts).tokens.get? k) ∧
    -- from the start
    (∀ p mode, (run acts).tokens.isHeld p = true →
      Born (acts ++ [.createChild p mode]) p mode (run acts).tokens.made.length ∧
      ((run acts).after (.createChild p mode)).tokens.get? (run acts).tokens.made.length =
        some { isSet := decide (mode = .linked) && (run acts).tokens.isSet p }) ∧
    -- the recursion
    ∀ (s : Tokens) (t : Nat), ∃ flips, Raising [t] s flips (s.set t) ∧
      (∀ flips' s', Raising [t] s flips' s' → flips' = flips ∧ s' = s.set t) ∧
      flips.Nodup ∧ ∀ j, j ∈ flips ↔ s.isSet j = false ∧ (s.set t).isSet j = true := by
  refine ⟨fun k set => run_isSet set, fun later k set => isSet_run_append later set, ?_, ?_, ?_⟩
  · rintro t k (apart | above | ⟨apart, p, ⟨mode, b⟩, ⟨mode', b'⟩⟩ | ⟨p, c, above, b, behind⟩)
    · exact get?_after_set apart
    · exact get?_after_set (not_lineage_of_ancestor above)
    · exact get?_after_set (not_lineage_of_sibling b b' apart)
    · exact get?_after_set (not_lineage_behind above b behind)
  · intro p mode held
    refine ⟨born_snoc.mpr (.inr ⟨rfl, held, rfl⟩), ?_⟩
    simp only [after, held, if_true]
    exact get?_createChild held mode
  · intro s t
    obtain ⟨flips, r⟩ := raising_spread [t] s
    obtain ⟨once, flipped⟩ := r.flips
    refine ⟨flips, r, fun _ _ other => r.unique other, once, ?_⟩
    intro j
    constructor
    · intro member
      exact ⟨(flipped j).1 member, (flipped j).2.mpr (.inl member)⟩
    · rintro ⟨unset, set⟩
      exact ((flipped j).2.mp set).resolve_right (by simp [unset])

end Family
end PullStream.Tokens
