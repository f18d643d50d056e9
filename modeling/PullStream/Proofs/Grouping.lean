import Mathlib.Data.List.Induction
import Mathlib.Data.List.Nodup
import PullStream.Proofs.Folding
import PullStream.Proofs.Parallel.Reference

/-!
What grouping comes to.

The elements of a source have entries, which are the elements with their keys, or the failures of
the key function. Grouping puts the entries in groups, one for each key with its elements in their
order, or in one list that has each key once. The first entry that is a failure, or that repeats a
key where that is a failure, is what comes of them.

* `groupsOf_eq_error`, `groupsOf_eq_ok`, `Partition` — groups.
* `singlesOf_eq_error`, `singlesOf_eq_ok` — one element for each key.
* `singlesOf_ok_iff` — the second succeeds if and only if each group has one element.
-/

namespace PullStream

open Consumer (Groups addTo)

variable {α γ κ : Type}

/-! ### Entries -/

/-- An element with its key. -/
def keyed (g : α → Nat → Except Failure κ) (a : α) (i : Nat) : Except Failure (κ × α) :=
  (g a i).map (·, a)

theorem keyed_eq_ok {g : α → Nat → Except Failure κ} {a b : α} {i : Nat} {k : κ}
    (ok : keyed g a i = .ok (k, b)) : g a i = .ok k ∧ b = a := by
  rw [keyed] at ok
  cases called : g a i with
  | error e =>
    rw [called] at ok
    cases ok
  | ok k' =>
    rw [called] at ok
    cases ok
    exact ⟨rfl, rfl⟩

theorem resultsOf_eq_mapIdx (f : α → Nat → Except Failure γ) (xs : List α)
    (fault : Option Failure) :
    (sourceOf xs fault).mapIdx (fun i r => r.bind fun a => f a i) = resultsOf f xs fault := by
  have items : (xs.map Except.ok).mapIdx (fun i r => r.bind fun a => f a i) =
      xs.mapIdx fun i a => f a i := by
    apply List.ext_getElem?
    intro i
    rw [List.getElem?_mapIdx, List.getElem?_mapIdx, List.getElem?_map]
    cases xs[i]? <;> rfl
  rw [sourceOf, resultsOf, List.mapIdx_append, items]
  cases fault <;> rfl

/-- A source of which all entries are there has no failure. -/
theorem unfailed_of_resultsOf {f : α → Nat → Except Failure γ} {xs : List α}
    {fault : Option Failure} {entries : List γ} (same : resultsOf f xs fault = entries.map .ok) :
    fault = none := by
  cases fault with
  | none => rfl
  | some e =>
    have member : .error e ∈ entries.map (Except.ok (ε := Failure)) := by
      rw [← same]
      simp [resultsOf]
    simp at member

/-- A source of which all entries are there has no failure, and they are its elements with their
keys. -/
theorem keyed_resultsOf_eq_ok {g : α → Nat → Except Failure κ} {xs : List α}
    {fault : Option Failure} {entries : List (κ × α)}
    (same : resultsOf (keyed g) xs fault = entries.map .ok) :
    fault = none ∧ entries.map Prod.snd = xs ∧
      ∀ i k a, entries[i]? = some (k, a) → g a i = .ok k := by
  obtain rfl := unfailed_of_resultsOf same
  have each : ∀ i, xs[i]?.map (fun a => keyed g a i) = entries[i]?.map .ok := by
    intro i
    have entry := congrArg (·[i]?) same
    simpa [resultsOf] using entry
  refine ⟨rfl, ?_, ?_⟩
  · apply List.ext_getElem?
    intro i
    have entry := each i
    rw [List.getElem?_map]
    cases here : entries[i]? with
    | none =>
      rw [here, Option.map_none, Option.map_eq_none_iff] at entry
      exact entry.symm
    | some p =>
      rw [here] at entry
      obtain ⟨a, there, ok⟩ := Option.map_eq_some_iff.mp entry
      rw [there, Option.map_some, (keyed_eq_ok ok).2]
  · intro i k a there
    have entry := each i
    rw [there] at entry
    obtain ⟨b, -, ok⟩ := Option.map_eq_some_iff.mp entry
    obtain ⟨called, rfl⟩ := keyed_eq_ok ok
    exact called

/-- No key repeats with one more entry if its key is new. -/
theorem nodup_keys_concat {entries : List (κ × α)} {p : κ × α} :
    ((entries ++ [p]).map Prod.fst).Nodup ↔
      p.1 ∉ entries.map Prod.fst ∧ (entries.map Prod.fst).Nodup := by
  rw [List.map_append, List.map_singleton, ← List.concat_eq_append, List.nodup_concat]

section Groups

variable [DecidableEq κ]

/-- The elements with a key. -/
def withKey (k : κ) (entries : List (κ × α)) : List α :=
  (entries.filter (·.1 = k)).map Prod.snd

/-- The elements by key. -/
def grouped (entries : List (κ × α)) : Groups κ α :=
  entries.foldl (fun groups p => addTo p.1 p.2 groups) []

theorem grouped_concat (entries : List (κ × α)) (p : κ × α) :
    grouped (entries ++ [p]) = addTo p.1 p.2 (grouped entries) := by
  simp [grouped]

theorem withKey_concat (k : κ) (entries : List (κ × α)) (p : κ × α) :
    withKey k (entries ++ [p]) =
      if p.1 = k then withKey k entries ++ [p.2] else withKey k entries := by
  by_cases same : p.1 = k <;> simp [withKey, same]

/-! ### Adding to groups -/

theorem addTo_of_new {k : κ} {groups : Groups κ α} (new : k ∉ groups.map Prod.fst) (a : α) :
    addTo k a groups = groups ++ [(k, [a])] := by
  induction groups with
  | nil => rfl
  | cons group groups ih =>
    obtain ⟨other, same⟩ : k ≠ group.1 ∧ k ∉ groups.map Prod.fst := by simpa using new
    rw [addTo, if_neg (Ne.symm other), ih same]
    rfl

theorem addTo_of_old {keys : List κ} (nodup : keys.Nodup) {k : κ} (old : k ∈ keys)
    (items : κ → List α) (a : α) :
    addTo k a (keys.map fun k => (k, items k)) =
      keys.map fun k' => (k', if k = k' then items k' ++ [a] else items k') := by
  induction keys with
  | nil => cases old
  | cons k' keys ih =>
    obtain ⟨new, nodup⟩ := List.nodup_cons.mp nodup
    rw [List.map_cons, List.map_cons, addTo]
    by_cases same : k' = k
    · subst same
      have others : ∀ k ∈ keys, (k, items k) = (k, if k' = k then items k ++ [a] else items k) := by
        intro k member
        rw [if_neg]
        rintro rfl
        exact new member
      rw [if_pos rfl, if_pos rfl, List.map_congr_left others]
    · have member : k ∈ keys := (List.mem_cons.mp old).resolve_left (Ne.symm same)
      rw [if_neg same, if_neg (Ne.symm same), ih nodup member]

theorem addTo_perm (k : κ) (a : α) (groups : Groups κ α) :
    ((addTo k a groups).flatMap Prod.snd).Perm (groups.flatMap Prod.snd ++ [a]) := by
  induction groups with
  | nil => exact .refl _
  | cons group groups ih =>
    rw [addTo]
    split
    · simp only [List.flatMap_cons, List.append_assoc]
      exact List.perm_append_comm.append_left _
    · simp only [List.flatMap_cons, List.append_assoc]
      exact ih.append_left _

/-! ### Groups -/

/-- Entries in groups: there is one for each key that has been computed, with the elements of the
key in their order, so that each element is in one group once. -/
structure Partition (entries : List (κ × α)) (keys : List κ) (groups : Groups κ α) : Prop where
  nodup : keys.Nodup
  mem_keys : ∀ k, k ∈ keys ↔ k ∈ entries.map Prod.fst
  eq_map : groups = keys.map fun k => (k, withKey k entries)
  once : (groups.flatMap Prod.snd).Perm (entries.map Prod.snd)

theorem withKey_eq_nil {k : κ} {entries : List (κ × α)} (none : k ∉ entries.map Prod.fst) :
    withKey k entries = [] := by
  rw [withKey, List.map_eq_nil_iff, List.filter_eq_nil_iff]
  intro p member same
  exact none (List.mem_map.mpr ⟨p, member, of_decide_eq_true same⟩)

namespace Partition

variable {entries : List (κ × α)} {keys : List κ} {groups : Groups κ α} {p : κ × α}

/-- Wherever one more element goes, each is still in one group once. -/
theorem once_addTo (partition : Partition entries keys groups) :
    ((addTo p.1 p.2 groups).flatMap Prod.snd).Perm ((entries ++ [p]).map Prod.snd) := by
  rw [List.map_append]
  exact (addTo_perm _ _ _).trans (partition.once.append_right _)

/-- One more element goes behind the others of its key. -/
theorem addTo_old (partition : Partition entries keys groups) (old : p.1 ∈ keys) :
    Partition (entries ++ [p]) keys (addTo p.1 p.2 groups) := by
  refine ⟨partition.nodup, ?_, ?_, partition.once_addTo⟩
  · intro k
    rw [partition.mem_keys, List.map_append, List.mem_append, List.map_singleton,
      List.mem_singleton]
    constructor
    · exact .inl
    · rintro (there | rfl)
      · exact there
      · exact (partition.mem_keys p.1).mp old
  · rw [partition.eq_map, addTo_of_old partition.nodup old]
    simp only [withKey_concat]

/-- One more element whose key is new makes a group behind the others. -/
theorem addTo_new (partition : Partition entries keys groups) (new : p.1 ∉ keys) :
    Partition (entries ++ [p]) (keys ++ [p.1]) (addTo p.1 p.2 groups) := by
  refine ⟨?_, ?_, ?_, partition.once_addTo⟩
  · rw [← List.concat_eq_append]
    exact partition.nodup.concat new
  · intro k
    simp [partition.mem_keys]
  · have keysOf : (keys.map fun k => (k, withKey k entries)).map Prod.fst = keys := by
      simp [Function.comp_def]
    have others : ∀ k ∈ keys, (k, withKey k entries) = (k, withKey k (entries ++ [p])) := by
      intro k member
      rw [withKey_concat, if_neg]
      rintro rfl
      exact new member
    have none : withKey p.1 entries = [] := withKey_eq_nil (mt (partition.mem_keys p.1).mpr new)
    rw [partition.eq_map, addTo_of_new (by rwa [keysOf]), List.map_congr_left others,
      List.map_append, List.map_singleton, withKey_concat, if_pos rfl, none, List.nil_append]

end Partition

theorem grouped_partition (entries : List (κ × α)) :
    ∃ keys, Partition entries keys (grouped entries) := by
  induction entries using List.reverseRecOn with
  | nil => exact ⟨[], .nil, by simp, rfl, .refl _⟩
  | append_singleton entries p ih =>
    obtain ⟨keys, partition⟩ := ih
    rw [grouped_concat]
    by_cases old : p.1 ∈ keys
    · exact ⟨keys, partition.addTo_old old⟩
    · exact ⟨keys ++ [p.1], partition.addTo_new old⟩

theorem withKey_length (k : κ) (entries : List (κ × α)) :
    (withKey k entries).length = (entries.map Prod.fst).count k := by
  rw [withKey, List.length_map, List.count, List.countP_map, List.countP_eq_length_filter]
  rfl

/-- Each group has one element if and only if no key repeats. -/
theorem grouped_single_iff {entries : List (κ × α)} :
    (∀ group ∈ grouped entries, group.2.length = 1) ↔ (entries.map Prod.fst).Nodup := by
  obtain ⟨keys, -, mem, groups, -⟩ := grouped_partition entries
  rw [groups, List.forall_mem_map, List.nodup_iff_count_eq_one]
  constructor
  · intro single k member
    rw [← withKey_length]
    exact single k ((mem k).mpr member)
  · intro once k member
    rw [withKey_length]
    exact once k ((mem k).mp member)

/-- Without a repetition each entry is a group. -/
theorem grouped_of_nodup {entries : List (κ × α)} (nodup : (entries.map Prod.fst).Nodup) :
    grouped entries = entries.map fun p => (p.1, [p.2]) := by
  induction entries using List.reverseRecOn with
  | nil => rfl
  | append_singleton entries p ih =>
    obtain ⟨new, nodup⟩ := nodup_keys_concat.mp nodup
    have keysOf : (entries.map fun p => (p.1, [p.2])).map Prod.fst = entries.map Prod.fst := by
      simp [Function.comp_def]
    rw [grouped_concat, ih nodup, addTo_of_new (by rwa [keysOf]), List.map_append,
      List.map_singleton]

/-! ### Entries with failures -/

/-- An entry goes into its group. -/
def groupIn (groups : Groups κ α) (p : κ × α) (_ : Nat) : Except Failure (Groups κ α) :=
  .ok (addTo p.1 p.2 groups)

/-- An entry goes behind the others, unless its key is there. -/
def singleIn (entries : List (κ × α)) (p : κ × α) (i : Nat) : Except Failure (List (κ × α)) :=
  if entries.any (·.1 = p.1) then .error (.duplicateKey i) else .ok (entries ++ [p])

/-- What entries come to in groups. -/
def groupsOf (rs : List (Except Failure (κ × α))) : Except Failure (Groups κ α) :=
  foldResults groupIn [] 0 rs

/-- What entries come to with one element for each key. -/
def singlesOf (rs : List (Except Failure (κ × α))) : Except Failure (List (κ × α)) :=
  foldResults singleIn [] 0 rs

theorem groupsOf_ok (entries : List (κ × α)) :
    groupsOf (entries.map .ok) = .ok (grouped entries) := by
  induction entries using List.reverseRecOn with
  | nil => rfl
  | append_singleton entries p ih =>
    rw [groupsOf] at ih ⊢
    rw [List.map_append, List.map_singleton, foldResults_concat ih, groupIn, grouped_concat]

theorem groupsOf_eq_ok {rs : List (Except Failure (κ × α))} {groups : Groups κ α} :
    groupsOf rs = .ok groups ↔ ∃ entries, rs = entries.map .ok ∧ groups = grouped entries := by
  constructor
  · intro folded
    obtain ⟨entries, rfl⟩ := exists_of_foldResults_ok folded
    rw [groupsOf_ok] at folded
    cases folded
    exact ⟨entries, rfl, rfl⟩
  · rintro ⟨entries, rfl, rfl⟩
    exact groupsOf_ok entries

theorem groupsOf_eq_error {rs : List (Except Failure (κ × α))} {e : Failure} :
    groupsOf rs = .error e ↔
      ∃ (before : List (κ × α)) (rest : _), rs = before.map .ok ++ .error e :: rest := by
  rw [groupsOf, foldResults_eq_error]
  constructor
  · rintro ⟨before, _, _, rest, rfl, -, rfl | ⟨p, -, fails⟩⟩
    · exact ⟨before, rest, rfl⟩
    · cases fails
  · rintro ⟨before, rest, rfl⟩
    exact ⟨before, _, _, rest, rfl, groupsOf_ok before, .inl rfl⟩

theorem any_key_iff {entries : List (κ × α)} {k : κ} :
    entries.any (·.1 = k) = true ↔ k ∈ entries.map Prod.fst := by
  simp

theorem singleIn_new {entries : List (κ × α)} {p : κ × α} (new : p.1 ∉ entries.map Prod.fst)
    (i : Nat) : singleIn entries p i = .ok (entries ++ [p]) :=
  if_neg (mt any_key_iff.mp new)

theorem singleIn_old {entries : List (κ × α)} {p : κ × α} (old : p.1 ∈ entries.map Prod.fst)
    (i : Nat) : singleIn entries p i = .error (.duplicateKey i) :=
  if_pos (any_key_iff.mpr old)

theorem singlesOf_ok {entries : List (κ × α)} (nodup : (entries.map Prod.fst).Nodup) :
    singlesOf (entries.map .ok) = .ok entries := by
  induction entries using List.reverseRecOn with
  | nil => rfl
  | append_singleton entries p ih =>
    obtain ⟨new, nodup⟩ := nodup_keys_concat.mp nodup
    have before := ih nodup
    rw [singlesOf] at before ⊢
    rw [List.map_append, List.map_singleton, foldResults_concat before, singleIn_new new]

/-- What has been folded in is there, and no key of it was there before. -/
theorem nodup_of_singlesOf {all entries : List (κ × α)}
    (folded : singlesOf (all.map .ok) = .ok entries) :
    entries = all ∧ (all.map Prod.fst).Nodup := by
  induction all using List.reverseRecOn generalizing entries with
  | nil =>
    cases folded
    exact ⟨rfl, .nil⟩
  | append_singleton all p ih =>
    rw [singlesOf, List.map_append, List.map_singleton] at folded
    cases before : foldResults singleIn [] 0 (all.map .ok) with
    | error e =>
      rw [foldResults_append, before] at folded
      cases folded
    | ok entries' =>
      obtain ⟨rfl, nodup⟩ := ih before
      rw [foldResults_concat before] at folded
      by_cases old : p.1 ∈ entries'.map Prod.fst
      · rw [singleIn_old old] at folded
        cases folded
      · rw [singleIn_new old] at folded
        cases folded
        exact ⟨rfl, nodup_keys_concat.mpr ⟨old, nodup⟩⟩

theorem singlesOf_eq_ok {rs : List (Except Failure (κ × α))} {entries : List (κ × α)} :
    singlesOf rs = .ok entries ↔ rs = entries.map .ok ∧ (entries.map Prod.fst).Nodup := by
  constructor
  · intro folded
    obtain ⟨all, rfl⟩ := exists_of_foldResults_ok folded
    obtain ⟨rfl, nodup⟩ := nodup_of_singlesOf folded
    exact ⟨rfl, nodup⟩
  · rintro ⟨rfl, nodup⟩
    exact singlesOf_ok nodup

theorem singlesOf_eq_error {rs : List (Except Failure (κ × α))} {e : Failure} :
    singlesOf rs = .error e ↔ ∃ (before : List (κ × α)) (r : _) (rest : _),
      rs = before.map .ok ++ r :: rest ∧ (before.map Prod.fst).Nodup ∧
      (r = .error e ∨
        ∃ p, r = .ok p ∧ p.1 ∈ before.map Prod.fst ∧ e = .duplicateKey before.length) := by
  rw [singlesOf, foldResults_eq_error]
  constructor
  · rintro ⟨before, entries, r, rest, rfl, folded, fails⟩
    obtain ⟨rfl, nodup⟩ := nodup_of_singlesOf folded
    refine ⟨entries, r, rest, rfl, nodup, fails.imp_right ?_⟩
    rintro ⟨p, same, failed⟩
    by_cases old : p.1 ∈ entries.map Prod.fst
    · rw [singleIn_old old, Nat.zero_add] at failed
      cases failed
      exact ⟨p, same, old, rfl⟩
    · rw [singleIn_new old] at failed
      cases failed
  · rintro ⟨before, r, rest, rfl, nodup, fails⟩
    refine ⟨before, before, r, rest, rfl, singlesOf_ok nodup, fails.imp_right ?_⟩
    rintro ⟨p, rfl, old, rfl⟩
    exact ⟨p, rfl, by rw [singleIn_old old, Nat.zero_add]⟩

/-- One element for each key is what groups of one element come to. -/
theorem singlesOf_ok_iff {rs : List (Except Failure (κ × α))} {entries : List (κ × α)} :
    singlesOf rs = .ok entries ↔ groupsOf rs = .ok (entries.map fun p => (p.1, [p.2])) := by
  rw [singlesOf_eq_ok, groupsOf_eq_ok]
  constructor
  · rintro ⟨rfl, nodup⟩
    exact ⟨entries, rfl, (grouped_of_nodup nodup).symm⟩
  · rintro ⟨all, rfl, same⟩
    have nodup : (all.map Prod.fst).Nodup := by
      rw [← grouped_single_iff, ← same, List.forall_mem_map]
      exact fun _ _ => rfl
    rw [grouped_of_nodup nodup] at same
    have injective : Function.Injective fun p : κ × α => (p.1, [p.2]) := by
      rintro ⟨k, a⟩ ⟨k', a'⟩ same
      simpa using same
    cases List.map_injective_iff.mpr injective same
    exact ⟨rfl, nodup⟩

/-- There is one element for each key if and only if there are groups, of one element each. -/
theorem singlesOf_succeeds_iff {rs : List (Except Failure (κ × α))} :
    (∃ entries, singlesOf rs = .ok entries) ↔
      ∃ groups, groupsOf rs = .ok groups ∧ ∀ group ∈ groups, group.2.length = 1 := by
  constructor
  · rintro ⟨entries, single⟩
    refine ⟨_, singlesOf_ok_iff.mp single, ?_⟩
    rw [List.forall_mem_map]
    exact fun _ _ => rfl
  · rintro ⟨groups, folded, single⟩
    obtain ⟨entries, rfl, rfl⟩ := groupsOf_eq_ok.mp folded
    exact ⟨entries, singlesOf_ok (grouped_single_iff.mp single)⟩

end Groups

end PullStream
