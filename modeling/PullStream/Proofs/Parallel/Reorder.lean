import Mathlib.Data.List.Induction
import Mathlib.Data.List.Nodup
import Mathlib.Data.List.Perm.Basic
import PullStream.Parallel.Reorder

/-!
A reorder buffer releases the contiguous prefix.

Results come in under distinct indices, in any order and with pops in between. What has been
popped, numbered from zero, and what is parked are then together what has been put in
(`Traffic.Kept`). So a result is popped in its place or it is parked, nothing is ready exactly
if the next index is missing, and an index that is new cannot be below the next one, for all of
those have been put in.

* `perm_cons_filter_ne`, `popReady_some`, `insert_fresh` — what a single call does.
* `Traffic.run_kept` — the invariant holds after every history of calls.
* `Traffic.drain_ready` — pops come to an end, where nothing is ready.
* `contiguous_release` — the contract of a reorder buffer, spelled out.
-/

namespace PullStream

/-! ### Keys -/

/-- An entry whose key occurs once is split off by a filter. -/
theorem perm_cons_filter_of_mem {ρ : Type} {entries : List (Nat × ρ)} {entry : Nat × ρ}
    (distinct : (entries.map Prod.fst).Nodup) (member : entry ∈ entries) :
    entries.Perm (entry :: entries.filter (·.1 != entry.1)) := by
  obtain ⟨before, after, rfl⟩ := List.append_of_mem member
  have apart : entry.1 ∉ (before ++ after).map Prod.fst := by
    have cons := (List.perm_middle.map Prod.fst).nodup_iff.mp distinct
    exact (List.nodup_cons.mp cons).1
  have others : (before ++ entry :: after).filter (·.1 != entry.1) = before ++ after := by
    have kept : (before ++ after).filter (·.1 != entry.1) = before ++ after := by
      rw [List.filter_eq_self]
      intro other known
      have different : other.1 ≠ entry.1 := fun same => apart (same ▸ List.mem_map_of_mem known)
      simpa using different
    simpa [List.filter_append] using kept
  rw [others]
  exact List.perm_middle

/-- A key that occurs once is split off by a filter. -/
theorem perm_cons_filter_ne {ρ : Type} {entries : List (Nat × ρ)} {k : Nat}
    (distinct : (entries.map Prod.fst).Nodup) (member : k ∈ entries.map Prod.fst) :
    (entries.map Prod.fst).Perm (k :: (entries.filter (·.1 != k)).map Prod.fst) := by
  obtain ⟨entry, known, rfl⟩ := List.mem_map.mp member
  exact (perm_cons_filter_of_mem distinct known).map Prod.fst

/-- Without the entry of a key there are fewer entries. -/
theorem length_filter_ne_lt {ρ : Type} {entries : List (Nat × ρ)} {k : Nat}
    (member : k ∈ entries.map Prod.fst) : (entries.filter (·.1 != k)).length < entries.length := by
  obtain ⟨entry, known, same⟩ := List.mem_map.mp member
  exact List.length_filter_lt_length_iff_exists.mpr ⟨entry, known, by simp [same]⟩

namespace Reorder

variable {ρ : Type} {b b' : Reorder ρ} {r : ρ} {k : Nat}

/-! ### Single calls -/

/-- Nothing is ready if the next position is not parked. -/
theorem not_mem_of_popReady_none (h : b.popReady = none) : b.next ∉ b.parked.map Prod.fst := by
  intro member
  obtain ⟨entry, parked, same⟩ := List.mem_map.mp member
  simp only [popReady, Option.map_eq_none_iff, List.find?_eq_none] at h
  exact h entry parked (by simpa using same)

/-- What is ready was parked at the next position. -/
theorem popReady_some (h : b.popReady = some (r, b')) :
    (b.next, r) ∈ b.parked ∧ b'.next = b.next + 1 ∧
      b'.parked = b.parked.filter (·.1 != b.next) := by
  simp only [popReady, Option.map_eq_some_iff] at h
  obtain ⟨⟨i, r'⟩, found, same⟩ := h
  have position : i = b.next := by simpa using List.find?_some found
  cases same
  subst position
  exact ⟨List.mem_of_find?_eq_some found, rfl, rfl⟩

/-- A result of a new position joins those that are parked. -/
theorem insert_fresh (fresh : k ∉ b.parked.map Prod.fst) (r : ρ) :
    b.insert k r = { b with parked := (k, r) :: b.parked } := by
  have others : b.parked.filter (·.1 != k) = b.parked := by
    rw [List.filter_eq_self]
    intro entry parked
    have apart : entry.1 ≠ k := fun same => fresh (same ▸ List.mem_map_of_mem parked)
    simpa using apart
  rw [insert, others]

/-- Emptying a buffer goes by what is ready: nothing, or one result and then the rest. -/
theorem popReady_induct {motive : Reorder ρ → Prop}
    (none : ∀ b, b.popReady = none → motive b)
    (some : ∀ b r b', b.popReady = some (r, b') → motive b' → motive b)
    (b : Reorder ρ) : motive b := by
  induction size : b.size using Nat.strongRecOn generalizing b with
  | ind n ih =>
    cases h : b.popReady with
    | none => exact none b h
    | some released =>
      obtain ⟨r, b'⟩ := released
      refine some b r b' h (ih b'.size ?_ b' rfl)
      rw [← size]
      exact size_lt_of_popReady h

/-! ### Histories -/

/-- What may be done to a buffer. -/
inductive Call (ρ : Type) where
  | insert (index : Nat) (result : ρ)
  | pop
  deriving DecidableEq, Repr

/-- A buffer, with what has been put in and what has been popped, oldest first. -/
structure Traffic (ρ : Type) where
  buffer : Reorder ρ := {}
  inserted : List (Nat × ρ) := []
  popped : List ρ := []

namespace Traffic

variable {t : Traffic ρ} {calls : List (Call ρ)} {index n : Nat}

/-- The indices under which results have been put in. -/
def indices (t : Traffic ρ) : List Nat :=
  t.inserted.map Prod.fst

/-- One call, with the books kept. A pop when nothing is ready leaves all as it is. -/
def after (t : Traffic ρ) : Call ρ → Traffic ρ
  | .insert index result =>
    { t with
      buffer := t.buffer.insert index result
      inserted := t.inserted ++ [(index, result)] }
  | .pop =>
    match t.buffer.popReady with
    | none => t
    | some (result, buffer) => { t with buffer, popped := t.popped ++ [result] }

/-- A history of calls on a new buffer. -/
def run (calls : List (Call ρ)) : Traffic ρ :=
  calls.foldl after {}

theorem run_snoc (calls : List (Call ρ)) (call : Call ρ) :
    run (calls ++ [call]) = (run calls).after call := by
  rw [run, List.foldl_append, ← run, List.foldl_cons, List.foldl_nil]

theorem after_pop_none (h : t.buffer.popReady = none) : t.after .pop = t := by
  simp only [after, h]

theorem after_pop_some (h : t.buffer.popReady = some (r, b)) :
    t.after .pop = { t with buffer := b, popped := t.popped ++ [r] } := by
  simp only [after, h]

theorem after_pop_inserted (t : Traffic ρ) : (t.after .pop).inserted = t.inserted := by
  simp only [after]
  split <;> rfl

/-- What has been put in stays in the books. -/
theorem inserted_prefix (t : Traffic ρ) (calls : List (Call ρ)) :
    t.inserted <+: (calls.foldl after t).inserted := by
  induction calls generalizing t with
  | nil => exact List.prefix_rfl
  | cons call calls ih =>
    refine List.IsPrefix.trans ?_ (ih (t.after call))
    cases call with
    | insert index result => exact ⟨[(index, result)], rfl⟩
    | pop => exact (after_pop_inserted t).symm ▸ List.prefix_rfl

theorem nodup_of_foldl (calls : List (Call ρ)) (distinct : (calls.foldl after t).indices.Nodup) :
    t.indices.Nodup :=
  distinct.sublist ((t.inserted_prefix calls).sublist.map Prod.fst)

theorem fresh_of_insert (distinct : (t.after (.insert index r)).indices.Nodup) :
    index ∉ t.indices := by
  simp only [after, indices, List.map_append] at distinct
  exact fun member => List.disjoint_of_nodup_append distinct member (by simp)

/-! ### The invariant -/

/-- What has been popped, numbered from zero, and what is parked is what has been put in. -/
structure Kept (t : Traffic ρ) : Prop where
  next : t.buffer.next = t.popped.length
  entries : t.inserted.Perm (t.popped.mapIdx Prod.mk ++ t.buffer.parked)

namespace Kept

theorem start : Kept ({} : Traffic ρ) :=
  ⟨rfl, .refl _⟩

/-- The indices of what has been popped are the first ones. -/
theorem indices (kept : Kept t) :
    t.indices.Perm (List.range t.popped.length ++ t.buffer.parked.map Prod.fst) := by
  have first : (t.popped.mapIdx Prod.mk).map Prod.fst = List.range t.popped.length :=
    List.ext_getElem (by simp) (by simp)
  rw [← first, ← List.map_append]
  exact kept.entries.map Prod.fst

theorem insert (kept : Kept t) (fresh : index ∉ t.indices) (r : ρ) :
    Kept (t.after (.insert index r)) := by
  obtain ⟨next, entries⟩ := id kept
  have unparked : index ∉ t.buffer.parked.map Prod.fst := fun parked =>
    fresh (kept.indices.mem_iff.mpr (List.mem_append_right _ parked))
  rw [after, insert_fresh unparked]
  have inFront : (t.inserted ++ [(index, r)]).Perm ((index, r) :: t.inserted) :=
    List.perm_append_singleton _ _
  exact ⟨next, inFront.trans ((entries.cons _).trans List.perm_middle.symm)⟩

theorem pop (kept : Kept t) (distinct : t.indices.Nodup) : Kept (t.after .pop) := by
  cases ready : t.buffer.popReady with
  | none =>
    rw [after_pop_none ready]
    exact kept
  | some released =>
    obtain ⟨r, b⟩ := released
    obtain ⟨member, next, rest⟩ := popReady_some ready
    have parked := (kept.indices.nodup_iff.mp distinct).of_append_right
    rw [after_pop_some ready]
    refine ⟨by simp [next, kept.next], ?_⟩
    have split := perm_cons_filter_of_mem parked member
    rw [List.mapIdx_concat, ← kept.next, rest, List.append_assoc]
    exact kept.entries.trans (split.append_left _)

end Kept

theorem run_kept (distinct : (run calls).indices.Nodup) : Kept (run calls) := by
  -- From the end of the history; what was put in before is distinct too.
  induction calls using List.reverseRecOn with
  | nil => exact .start
  | append_singleton calls call ih =>
    rw [run_snoc] at distinct ⊢
    have before : (run calls).indices.Nodup := nodup_of_foldl [call] distinct
    cases call with
    | insert index r => exact (ih before).insert (fresh_of_insert distinct) r
    | pop => exact (ih before).pop before

namespace Kept

/-! ### What follows from it -/

theorem length (kept : Kept t) : t.buffer.size + t.popped.length = t.inserted.length := by
  rw [kept.entries.length_eq, List.length_append, List.length_mapIdx, Nat.add_comm, size]

/-- Nothing is ready exactly if the next index has not been put in. -/
theorem popReady_none_iff (kept : Kept t) :
    t.buffer.popReady = none ↔ t.popped.length ∉ t.indices := by
  rw [kept.indices.mem_iff, List.mem_append, List.mem_range, ← kept.next]
  constructor
  · rintro none (behind | parked)
    · exact Nat.lt_irrefl _ behind
    · exact not_mem_of_popReady_none none parked
  · intro missing
    cases ready : t.buffer.popReady with
    | none => rfl
    | some released =>
      obtain ⟨r, b'⟩ := released
      obtain ⟨member, -, -⟩ := popReady_some ready
      exact absurd (.inr (List.mem_map_of_mem member)) missing

/-- What has been popped is what was put in under the first indices, in their order. -/
theorem popped_iff (kept : Kept t) (distinct : t.indices.Nodup) {i : Nat} :
    t.popped[i]? = some r ↔ i < t.popped.length ∧ (i, r) ∈ t.inserted := by
  have known : ∀ {r}, t.popped[i]? = some r → (i, r) ∈ t.inserted := by
    intro r there
    rw [kept.entries.mem_iff]
    refine List.mem_append_left _ (List.mem_iff_getElem?.mpr ⟨i, ?_⟩)
    rw [List.getElem?_mapIdx, there]
    rfl
  constructor
  · intro there
    exact ⟨(List.getElem?_eq_some_iff.mp there).1, known there⟩
  · rintro ⟨within, member⟩
    have there := List.getElem?_eq_getElem within
    have same := List.inj_on_of_nodup_map distinct member (known there) rfl
    exact there.trans (congrArg (fun entry => some entry.2) same.symm)

/-- An index that is new is not below the next one. -/
theorem next_le_of_fresh (kept : Kept t) (fresh : index ∉ t.indices) : t.buffer.next ≤ index := by
  rw [kept.next]
  apply Nat.le_of_not_lt
  intro behind
  exact fresh (kept.indices.mem_iff.mpr (List.mem_append_left _ (List.mem_range.mpr behind)))

/-- If the first `n` indices have been put in and nothing is ready, everything has left. -/
theorem emptied (kept : Kept t) (all : t.indices.Perm (List.range n))
    (none : t.buffer.popReady = none) : t.popped.length = n ∧ t.buffer.size = 0 := by
  have missing := kept.popReady_none_iff.mp none
  rw [all.mem_iff, List.mem_range] at missing
  have count : t.inserted.length = n := by
    simpa [Traffic.indices] using all.length_eq
  have length := kept.length
  omega

end Kept

/-! ### Draining -/

/-- Pops until nothing is ready. -/
def drain (t : Traffic ρ) : Traffic ρ :=
  match h : t.buffer.popReady with
  | none => t
  | some (result, buffer) =>
    have := size_lt_of_popReady h
    drain { t with buffer, popped := t.popped ++ [result] }
termination_by t.buffer.size

theorem drain_none (h : t.buffer.popReady = none) : t.drain = t := by
  rw [drain]
  split
  · rfl
  · rename_i ready
    rw [h] at ready
    cases ready

theorem drain_some (h : t.buffer.popReady = some (r, b)) : t.drain = (t.after .pop).drain := by
  rw [after_pop_some h, drain]
  split
  · rename_i none
    rw [h] at none
    cases none
  · rename_i ready
    rw [h] at ready
    cases ready
    rfl

/-- Draining goes by what is ready: nothing, or one pop and then the rest. -/
theorem drain_induct {motive : Traffic ρ → Prop}
    (none : ∀ t, t.buffer.popReady = none → motive t)
    (some : ∀ t r b, t.buffer.popReady = some (r, b) → motive (t.after .pop) → motive t)
    (t : Traffic ρ) : motive t := by
  induction buffer : t.buffer using popReady_induct generalizing t with
  | none b h => exact none t (buffer ▸ h)
  | some b r b' h ih =>
    have ready := buffer ▸ h
    refine some t r b' ready (ih _ ?_)
    rw [after_pop_some ready]

/-- A drain leaves nothing ready. -/
theorem drain_ready (t : Traffic ρ) : t.drain.buffer.popReady = none := by
  induction t using drain_induct with
  | none t h => rwa [drain_none h]
  | some t r b h ih => rwa [drain_some h]

/-- A drain is some pops. -/
theorem drain_pops (t : Traffic ρ) :
    ∃ pops : List (Call ρ), t.drain = pops.foldl after t ∧ t.drain.inserted = t.inserted := by
  induction t using drain_induct with
  | none t h => exact ⟨[], drain_none h, by rw [drain_none h]⟩
  | some t r b h ih =>
    obtain ⟨pops, same, inserted⟩ := ih
    exact ⟨.pop :: pops, by rw [drain_some h, same]; rfl,
      by rw [drain_some h, inserted, after_pop_inserted]⟩

/-- Puts results in, one after the other, and drains the buffer behind each. -/
def served (entries : List (Nat × ρ)) : Traffic ρ :=
  entries.foldl (fun t entry => (t.after (.insert entry.1 entry.2)).drain) {}

/-- What is served is a history of calls, at whose end nothing is ready. -/
theorem served_run (entries : List (Nat × ρ)) :
    (∃ calls, served entries = run calls) ∧ (served entries).inserted = entries ∧
      (served entries).buffer.popReady = none := by
  induction entries using List.reverseRecOn with
  | nil => exact ⟨⟨[], rfl⟩, rfl, rfl⟩
  | append_singleton entries entry ih =>
    obtain ⟨⟨calls, ran⟩, inserted, -⟩ := ih
    have step : served (entries ++ [entry]) =
        ((served entries).after (.insert entry.1 entry.2)).drain := by
      rw [served, List.foldl_append, ← served, List.foldl_cons, List.foldl_nil]
    obtain ⟨pops, drained, kept⟩ :=
      drain_pops ((served entries).after (.insert entry.1 entry.2))
    rw [step]
    refine ⟨⟨calls ++ .insert entry.1 entry.2 :: pops, ?_⟩, ?_, drain_ready _⟩
    · rw [drained, ran, run, run, List.foldl_append, List.foldl_cons]
    · rw [kept, after, inserted]

end Traffic

/-! ### The contract -/

/-- A reorder buffer releases exactly the contiguous prefix, after every history of calls that
puts results in under distinct indices. If the indices are the first ones, in any order, and the
buffer is drained behind each, everything has left at the end. -/
theorem contiguous_release :
    (∀ calls : List (Call ρ), (Traffic.run calls).indices.Nodup →
      let t := Traffic.run calls
      -- what has been popped are the results of the first indices, in that order
      (∀ i r, t.popped[i]? = some r ↔ i < t.popped.length ∧ (i, r) ∈ t.inserted) ∧
      -- nothing is ready exactly if the index behind them is missing
      (t.buffer.popReady = none ↔ t.popped.length ∉ t.indices) ∧
      t.buffer.size + t.popped.length = t.inserted.length ∧
      -- nothing has been put in below the next index
      ∀ before index r later, calls = before ++ .insert index r :: later →
        (Traffic.run before).buffer.next ≤ index) ∧
    ∀ (n : Nat) (entries : List (Nat × ρ)), (entries.map Prod.fst).Perm (List.range n) →
      let t := Traffic.served entries
      (∃ calls, t = Traffic.run calls) ∧ t.inserted = entries ∧ t.popped.length = n ∧
        (∀ i r, t.popped[i]? = some r ↔ (i, r) ∈ entries) ∧ t.buffer.size = 0 := by
  refine ⟨fun calls distinct => ?_, fun n entries all => ?_⟩
  · have kept := Traffic.run_kept distinct
    refine ⟨fun i r => kept.popped_iff distinct, kept.popReady_none_iff, kept.length, ?_⟩
    rintro before index r later rfl
    rw [Traffic.run, List.foldl_append, List.foldl_cons] at distinct
    have inserted := Traffic.nodup_of_foldl later distinct
    have front := Traffic.run_kept (Traffic.nodup_of_foldl [.insert index r] inserted)
    exact front.next_le_of_fresh (Traffic.fresh_of_insert inserted)
  · obtain ⟨⟨calls, ran⟩, inserted, none⟩ := Traffic.served_run entries
    have first : (Traffic.served entries).indices.Perm (List.range n) := by
      rwa [Traffic.indices, inserted]
    have distinct := first.nodup_iff.mpr List.nodup_range
    have kept : Traffic.Kept (Traffic.served entries) := by
      rw [ran] at distinct ⊢
      exact Traffic.run_kept distinct
    obtain ⟨length, size⟩ := kept.emptied first none
    refine ⟨⟨calls, ran⟩, inserted, length, fun i r => ?_, size⟩
    rw [kept.popped_iff distinct, inserted, length]
    refine and_iff_right_of_imp fun member => ?_
    exact List.mem_range.mp (all.mem_iff.mp (List.mem_map_of_mem member))

/-- Two results wait for the one before them, and one behind a gap stays. Three that come in
from behind leave in order. -/
theorem contiguous_release_gap :
    let calls : List (Call Char) :=
      [.insert 2 'c', .insert 1 'b', .pop, .insert 0 'a', .pop, .pop, .pop, .pop, .insert 4 'e']
    let t := Traffic.run calls
    let entries := [(2, 'c'), (0, 'a'), (1, 'b')]
    t.indices.Nodup ∧ t.popped = ['a', 'b', 'c'] ∧ t.buffer.popReady = none ∧ t.buffer.size = 1 ∧
      (entries.map Prod.fst).Perm (List.range 3) ∧
      (Traffic.served entries).popped.length = 3 ∧
      (Traffic.served entries).popped[0]? = some 'a' ∧
      (Traffic.served entries).popped[2]? = some 'c' ∧
      (Traffic.served entries).buffer.size = 0 := by
  intro calls t entries
  have distinct : t.indices.Nodup := by decide
  have popped : t.popped = ['a', 'b', 'c'] := by decide
  have all : (entries.map Prod.fst).Perm (List.range 3) := by decide
  obtain ⟨histories, servings⟩ := contiguous_release (ρ := Char)
  obtain ⟨-, ready, size, -⟩ := histories calls distinct
  obtain ⟨-, -, length, places, empty⟩ := servings 3 entries all
  refine ⟨distinct, popped, ready.mpr (by decide), ?_, all, length, ?_, ?_, empty⟩
  · have out : t.popped.length = 3 := by decide
    have put : t.inserted.length = 4 := by decide
    have size : t.buffer.size + t.popped.length = t.inserted.length := size
    omega
  · exact (places 0 'a').mpr (by decide)
  · exact (places 2 'c').mpr (by decide)

end Reorder
end PullStream
