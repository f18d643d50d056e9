import PullStream.Proofs.Grouping
import PullStream.Proofs.Parallel.Consuming
import PullStream.Proofs.Sequence.Agreement

/-!
The grouping operations agree.

Grouping folds the entries of the elements as they come, and so does grouping in parallel, whose
entries come in their order whatever the key functions take their time for. Therefore both have
one result. The operation that wants one element for each key folds the same entries.

* `group_computes`, `groupKeyed_computes`, `groupSingle_computes` — the operations.
* `groupKeyed_concludes` — grouping in parallel, under every schedule.
* `groupings_agree` — what they come to.
-/

namespace PullStream

open Consumer (Groups Result group groupKeyed groupSingle)

variable {ω α κ : Type} {xs : List α} {fault : Option Failure} {g : α → Nat → Except Failure κ}

/-- What is mapped comes in order, up to the first failure. -/
theorem inOrder_mapped {β : Type} (f : α → Nat → Except Failure β) (xs : List α)
    (fault : Option Failure) :
    inOrder (resultsOf (mapped f) xs fault) = untilFailure (resultsOf f xs fault) := by
  have delivered : ∀ r : Except Failure β, delivery (r.map some) = some r := by
    intro r
    cases r <;> rfl
  have results : resultsOf (mapped f) xs fault = (resultsOf f xs fault).map (·.map some) := by
    have each : xs.mapIdx (fun i a => mapped f a i) =
        (xs.mapIdx fun i a => f a i).map (·.map some) := by
      apply List.ext_getElem?
      simp [Function.comp_def, mapped]
    rw [resultsOf, resultsOf, List.map_append, each]
    cases fault <;> rfl
  rw [inOrder_eq_untilFailure, results, List.filterMap_map]
  simp [delivered]

/-! ### The operations -/

namespace Consumer

theorem bind_ok {ρ : Type} (r : Except Failure ρ) : r.bind .ok = r := by
  cases r <;> rfl

/-- A fold that puts an element with its key into its memory folds the entries. -/
theorem foldResults_keyed {σ : Type} (start : σ) (put : σ → κ × α → Nat → Except Failure σ)
    (g : α → Nat → Except Failure κ) (xs : List α) (fault : Option Failure) :
    (foldResults (fun s a i => (keyed g a i).bind fun p => put s p i) start 0
      (sourceOf xs fault)).bind .ok = foldResults put start 0 (resultsOf (keyed g) xs fault) := by
  rw [bind_ok, foldResults_bind, ← resultsOf_eq_mapIdx]
  simp only [Nat.zero_add]

variable [DecidableEq κ] {m : Machine ω α}

/-- Grouping a source is grouping its entries. -/
theorem group_computes (delivers : m.Delivers (sourceOf xs fault)) {key : Step ω α κ}
    (gives : key.Gives g) :
    Computes m (group key) (groupsOf (resultsOf (keyed g) xs fault)) := by
  rw [groupsOf, ← foldResults_keyed]
  apply reduce_computes delivers
  intro groups a i now w
  change (key a i now w).1.map _ = (keyed g a i).bind _
  rw [gives a i now w, keyed]
  cases g a i <;> rfl

/-- The one element of each key of a source is that of its entries. -/
theorem groupSingle_computes (delivers : m.Delivers (sourceOf xs fault)) {key : Step ω α κ}
    (gives : key.Gives g) :
    Computes m (groupSingle key) (singlesOf (resultsOf (keyed g) xs fault)) := by
  rw [singlesOf, ← foldResults_keyed]
  apply reduce_computes delivers
  intro entries a i now w
  have given := gives a i now w
  rcases called : key a i now w with ⟨r, w'⟩
  rw [called] at given
  obtain rfl : r = g a i := given
  dsimp only
  rw [called, keyed]
  cases g a i with
  | error e => rfl
  | ok k =>
    dsimp only [Except.map, Except.bind, singleIn]
    split <;> rfl

theorem groupKeyed_gives (groups : Groups κ α) :
    Step.Gives (fun p (_ : Nat) (_ : Time) (w : ω) => (.ok (addTo p.1 p.2 groups), w))
      (groupIn groups) :=
  fun _ _ _ _ => rfl

/-- Grouping entries, of which nothing comes behind a failure. -/
theorem groupKeyed_computes {m : Machine ω (κ × α)} {rs : List (Except Failure (κ × α))}
    (delivers : m.Delivers (untilFailure rs)) : Computes m groupKeyed (groupsOf rs) := by
  have computes : Computes m groupKeyed
      ((foldResults groupIn [] 0 (untilFailure rs)).bind .ok) :=
    reduce_computes delivers groupKeyed_gives
  rwa [foldResults_untilFailure, bind_ok] at computes

end Consumer

variable [DecidableEq κ]

/-- Behind an ordered dispatcher whose workers compute the keys, there is one result, whatever
they take their time for. -/
theorem Dispatcher.Course.groupKeyed_concludes {τ : Type} [Nonempty τ] {concurrency : Nat}
    (positive : 0 < concurrency) :
    Concludes (ω := ω) (.of (mapped (keyed g)) xs fault False) τ concurrency xs.length groupKeyed
      (groupsOf (resultsOf (keyed g) xs fault)) := by
  rw [groupsOf, ← foldResults_untilFailure, ← Consumer.bind_ok (foldResults _ _ _ _),
    ← inOrder_mapped]
  exact reduce_concludes positive not_false Consumer.groupKeyed_gives

namespace Sequence

/-! ### The agreement -/

/-- Grouping in parallel. -/
theorem parallelKeyed_computes {s : Sequence ω α} {key : RiskyStep ω α κ} {concurrency : Nat}
    (positive : 0 < concurrency) (delivers : s.machine.Delivers (sourceOf xs fault))
    (gives : key.Gives g) :
    ∃ p, s.parallelKeyed concurrency key = .ok p ∧
      Computes p.machine groupKeyed (groupsOf (resultsOf (keyed g) xs fault)) := by
  have yields : (RiskyStep.worker key fun a k => .value (k, a)).Yields (mapped (keyed g)) := by
    apply RiskyStep.worker_yields gives
    · intro a i k given
      rw [mapped, keyed, given]
      rfl
    · intro a i e given
      rw [mapped, keyed, given]
      rfl
  obtain ⟨p, built, delivered⟩ := parallel_delivers delivers yields positive
  rw [inOrder_mapped] at delivered
  exact ⟨p, built, Consumer.groupKeyed_computes delivered⟩

/-- Grouping, grouping in parallel and the operation that wants one element for each key come to
what the entries of the elements come to: the first failure among them, or the elements by key.
With one element for each key the last has the same, and else it fails at the first entry that
repeats a key, if no failure comes before. -/
theorem groupings_agree (xs : List α) (fault : Option Failure) (g : α → Nat → Except Failure κ)
    {concurrency : Nat} (positive : 0 < concurrency) :
    let entries := resultsOf (keyed g) xs fault
    -- the operations, on every sequence
    (∀ (s : Sequence ω α) (key : Step ω α κ) (risky : RiskyStep ω α κ),
      s.machine.Delivers (sourceOf xs fault) → key.Gives g → risky.Gives g →
      Computes s.machine (group key) (groupsOf entries) ∧
      (∃ p, s.parallelKeyed concurrency risky = .ok p ∧
        Computes p.machine groupKeyed (groupsOf entries)) ∧
      Computes s.machine (groupSingle key) (singlesOf entries)) ∧
    -- the keys may be computed under any schedule
    (∀ (τ : Type) [Nonempty τ],
      Dispatcher.Course.Concludes (ω := ω) (.of (mapped (keyed g)) xs fault False) τ concurrency
        xs.length groupKeyed (groupsOf entries)) ∧
    -- groups
    (∀ e, groupsOf entries = .error e ↔
      ∃ (before : List (κ × α)) (rest : _), entries = before.map .ok ++ .error e :: rest) ∧
    (∀ groups, groupsOf entries = .ok groups →
      fault = none ∧ ∃ (pairs : List (κ × α)) (keys : List κ), pairs.map Prod.snd = xs ∧
        (∀ i k a, pairs[i]? = some (k, a) → g a i = .ok k) ∧ Partition pairs keys groups) ∧
    -- one element for each key
    ((∃ singles, singlesOf entries = .ok singles) ↔
      ∃ groups, groupsOf entries = .ok groups ∧ ∀ group ∈ groups, group.2.length = 1) ∧
    (∀ singles, singlesOf entries = .ok singles ↔
      groupsOf entries = .ok (singles.map fun p => (p.1, [p.2]))) ∧
    (∀ e, singlesOf entries = .error e ↔
      ∃ (before : List (κ × α)) (r : _) (rest : _), entries = before.map .ok ++ r :: rest ∧
        (before.map Prod.fst).Nodup ∧
        (r = .error e ∨
          ∃ p, r = .ok p ∧ p.1 ∈ before.map Prod.fst ∧ e = .duplicateKey before.length)) := by
  intro entries
  refine ⟨?_, ?_, ?_, ?_, ?_, ?_, ?_⟩
  · intro s key risky delivers gives risks
    exact ⟨Consumer.group_computes delivers gives,
      parallelKeyed_computes positive delivers risks,
      Consumer.groupSingle_computes delivers gives⟩
  · intro τ _
    exact Dispatcher.Course.groupKeyed_concludes positive
  · intro e
    exact groupsOf_eq_error
  · intro groups succeeded
    obtain ⟨pairs, same, rfl⟩ := groupsOf_eq_ok.mp succeeded
    obtain ⟨unfailed, items, called⟩ := keyed_resultsOf_eq_ok same
    obtain ⟨keys, partition⟩ := grouped_partition pairs
    exact ⟨unfailed, pairs, keys, items, called, partition⟩
  · exact singlesOf_succeeds_iff
  · intro singles
    exact singlesOf_ok_iff
  · intro e
    exact singlesOf_eq_error

/-- Three numbers by parity, of which the third has the key of the first, while the key of the
first takes longest. -/
theorem groupings_agree_parity :
    let g : Nat → Nat → Except Failure Nat := fun a _ => .ok (a % 2)
    let risky : RiskyStep Unit Nat Nat := fun a i _ w =>
      (.started { delay := 3 - a, finish := fun _ w => (.ok (g a i), w) }, w)
    let numbers : Sequence Unit Nat := ofList [1, 2, 3]
    0 < 2 ∧
    Computes numbers.machine (group (Step.pure g)) (.ok [(1, [1, 3]), (0, [2])]) ∧
    (∃ p, numbers.parallelKeyed 2 risky = .ok p ∧
      Computes p.machine groupKeyed (.ok [(1, [1, 3]), (0, [2])])) ∧
    Computes numbers.machine (groupSingle (Step.pure g)) (.error (.duplicateKey 2)) := by
  intro g risky numbers
  have agreed := (groupings_agree [1, 2, 3] none g (show 0 < 2 by decide)).1 numbers (Step.pure g)
    risky (Machine.ofResults_delivers _) (fun _ _ _ _ => rfl)
    fun _ _ _ _ => ⟨_, rfl, fun _ _ => rfl⟩
  exact ⟨by decide, agreed⟩

end Sequence
end PullStream
