import PullStream.Proofs.Deciding

/-!
Folds that find something.

The first element is decided by the first arrival, and the only one by the second at the latest. A
search looks at elements until one has the answer that is sought, and asks its step function about
no other.

* `FirstOf`, `SingleOf`, `SearchOf` — what these folds come to, by what has arrived.
* `first_decides`, `single_decides`, `search_decides` — every use comes to that.
* `any_eq_search`, `all_eq_search` — the two searches.
-/

namespace PullStream

variable {ω ν α : Type}

open Consumer (Verdict Folding Result fold)

/-! ### The first element, and the only one -/

/-- What the first element comes to. -/
inductive FirstOf (missing : Result α) : List (Arrival α) → Option (Result α) → Prop where
  | waiting : FirstOf missing [] none
  | item a : FirstOf missing [.item a] (some (.ok a))
  | failure e : FirstOf missing [.failure e] (some (.error e))
  | ended : FirstOf missing [.ended] (some missing)

/-- What the only element comes to. -/
inductive SingleOf (missing : Result α) : List (Arrival α) → Option (Result α) → Prop where
  | waiting : SingleOf missing [] none
  | failure e : SingleOf missing [.failure e] (some (.error e))
  | ended : SingleOf missing [.ended] (some missing)
  | item a : SingleOf missing [.item a] none
  | second a b : SingleOf missing [.item a, .item b] (some (.error .moreThanOne))
  | failureBehind a e : SingleOf missing [.item a, .failure e] (some (.error e))
  | endedBehind a : SingleOf missing [.item a, .ended] (some (.ok a))

/-- What the step function of `first` says. -/
def firstRuling : Ruling ν α Unit α :=
  fun _ a _ x v y => v = .stop a ∧ y = x

/-- What the step function of `single` says. -/
def singleRuling : Ruling ν α (Option α) α
  | none, a, _, x, v, y => v = .goOn (some a) ∧ y = x
  | some _, _, _, x, v, y => v = .fail .moreThanOne ∧ y = x

section Elements

variable {missing : Result α} {view : ω → ν} {source source' : Machine ω α} {before x : ν}
  {as : List (Arrival α)}

theorem first_judges (view : ω → ν) :
    Judges view firstRuling fun _ (a : α) _ _ w => (.stop a, w) :=
  fun _ _ _ _ _ => ⟨rfl, rfl⟩

theorem single_judges (view : ω → ν) :
    Judges view singleRuling fun s (a : α) _ _ w =>
      match s with
      | none => (.goOn (some a), w)
      | some _ => (.fail .moreThanOne, w) := by
  rintro (_ | a) b i now w <;> exact ⟨rfl, rfl⟩

theorem firstRuling_deterministic : (firstRuling : Ruling ν α Unit α).Deterministic := by
  rintro s a i x v v' y y' ⟨rfl, rfl⟩ ⟨rfl, rfl⟩
  exact ⟨rfl, rfl⟩

theorem singleRuling_deterministic : (singleRuling : Ruling ν α (Option α) α).Deterministic := by
  rintro (_ | s) a i x v v' y y' ⟨rfl, rfl⟩ ⟨rfl, rfl⟩ <;> exact ⟨rfl, rfl⟩

theorem firstOf_of_weighed {m : Folding Unit α}
    (weighed : Weighed firstRuling (fun _ => missing) () before as m x) :
    FirstOf missing as m.decision? ∧ x = before := by
  induction weighed with
  | start => exact ⟨.waiting, rfl⟩
  | @hear as s i y b m z _ hears ih =>
    obtain ⟨of, rfl⟩ := ih
    change FirstOf missing as none at of
    cases of
    cases hears with
    | goOn said => cases said.1
    | stop said =>
      cases said.1
      exact ⟨.item _, said.2⟩
    | fail said => cases said.1
    | failure => exact ⟨.failure _, rfl⟩
    | ended => exact ⟨.ended, rfl⟩

/-- The memory of `single` is the element that has come. -/
theorem singleOf_of_weighed {m : Folding (Option α) α}
    (weighed : Weighed singleRuling
      (fun | some a => .ok a | none => missing) none before as m x) :
    SingleOf missing as m.decision? ∧ x = before ∧
      ∀ s i, m = .running s i → as = s.toList.map .item := by
  induction weighed with
  | start =>
    refine ⟨.waiting, rfl, fun s i same => ?_⟩
    cases same
    rfl
  | @hear as s i y b m z _ hears ih =>
    obtain ⟨-, rfl, held⟩ := ih
    cases held s i rfl
    cases hears with
    | goOn said =>
      cases s with
      | none =>
        cases said.1
        refine ⟨.item _, said.2, fun s i same => ?_⟩
        cases same
        rfl
      | some a => cases said.1
    | stop said =>
      cases s with
      | none => cases said.1
      | some a => cases said.1
    | fail said =>
      cases s with
      | none => cases said.1
      | some a =>
        cases said.1
        exact ⟨.second _ _, said.2, nofun⟩
    | failure =>
      cases s with
      | none => exact ⟨.failure _, rfl, nofun⟩
      | some a => exact ⟨.failureBehind _ _, rfl, nofun⟩
    | ended =>
      cases s with
      | none => exact ⟨.ended, rfl, nofun⟩
      | some a => exact ⟨.endedBehind _, rfl, nofun⟩

theorem first_decides (keeps : source.Keeps view) (missing : Result α) :
    Decides source (.first missing) view fun before as decision x =>
      FirstOf missing as decision ∧ x = before :=
  decides_of_weighed (first_judges view) keeps firstOf_of_weighed

theorem single_decides (keeps : source.Keeps view) (missing : Result α) :
    Decides source (.single missing) view fun before as decision x =>
      SingleOf missing as decision ∧ x = before := by
  refine decides_of_weighed (single_judges view) keeps fun weighed => ?_
  obtain ⟨of, same, -⟩ := singleOf_of_weighed weighed
  exact ⟨of, same⟩

end Elements

/-! ### Searching -/

/-- What a step function that answers yes or no may say about an element, with what `view` shows
before and after. -/
abbrev Replying (ν α : Type) := α → Nat → ν → Except Failure Bool → ν → Prop

/-- The step function says nothing else. -/
def Replies (view : ω → ν) (replies : Replying ν α) (p : Step ω α Bool) : Prop :=
  ∀ a i now w, replies a i (view w) (p a i now w).1 (view (p a i now w).2)

/-- Nothing is left open by what may be said. -/
def Replying.Deterministic (replies : Replying ν α) : Prop :=
  ∀ ⦃a i x r r' y y'⦄, replies a i x r y → replies a i x r' y' → r = r' ∧ y = y'

/-- Elements on which the answer was not the one that is sought. -/
inductive Missed (replies : Replying ν α) (sought : Bool) (before : ν) : List α → ν → Prop where
  | start : Missed replies sought before [] before
  | next {seen x a y} : Missed replies sought before seen x →
      replies a seen.length x (.ok !sought) y → Missed replies sought before (seen ++ [a]) y

/-- What a search has come to. It looks at no element behind the one that has decided it. -/
inductive SearchOf (replies : Replying ν α) (sought : Bool) (before : ν) :
    List (Arrival α) → Option (Result Bool) → ν → Prop where
  | going {seen x} : Missed replies sought before seen x →
      SearchOf replies sought before (seen.map .item) none x
  | found {seen x a y} : Missed replies sought before seen x →
      replies a seen.length x (.ok sought) y →
      SearchOf replies sought before (seen.map .item ++ [.item a]) (some (.ok sought)) y
  | broken {seen x a e y} : Missed replies sought before seen x →
      replies a seen.length x (.error e) y →
      SearchOf replies sought before (seen.map .item ++ [.item a]) (some (.error e)) y
  | failure {seen x e} : Missed replies sought before seen x →
      SearchOf replies sought before (seen.map .item ++ [.failure e]) (some (.error e)) x
  | ended {seen x} : Missed replies sought before seen x →
      SearchOf replies sought before (seen.map .item ++ [.ended]) (some (.ok !sought)) x

/-- What the answer makes of a search. -/
def sighted (sought : Bool) : Except Failure Bool → Verdict Unit Bool
  | .ok b => if b = sought then .stop sought else .goOn ()
  | .error e => .fail e

/-- A search for an answer: it ends at the first element that has it. -/
def Consumer.search (sought : Bool) (p : Step ω α Bool) : Consumer ω α (Result Bool) :=
  fold () (fun _ a i now w => (sighted sought (p a i now w).1, (p a i now w).2))
    fun _ => .ok !sought

section Search

variable {p : Step ω α Bool} {replies : Replying ν α} {sought : Bool} {view : ω → ν}
  {source source' : Machine ω α}

theorem any_eq_search (p : Step ω α Bool) : Consumer.any p = .search true p := by
  unfold Consumer.any Consumer.search
  congr 1
  funext _ a i now w
  rcases p a i now w with ⟨_ | _ | _, w'⟩ <;> rfl

theorem all_eq_search (p : Step ω α Bool) : Consumer.all p = .search false p := by
  unfold Consumer.all Consumer.search
  congr 1
  funext _ a i now w
  rcases p a i now w with ⟨_ | _ | _, w'⟩ <;> rfl

/-- What the step function of a search says. -/
def searchRuling (replies : Replying ν α) (sought : Bool) : Ruling ν α Unit Bool :=
  fun _ a i x v y => ∃ r, replies a i x r y ∧ v = sighted sought r

theorem search_judges (replied : Replies view replies p) (sought : Bool) :
    Judges view (searchRuling replies sought) fun _ a i now w =>
      (sighted sought (p a i now w).1, (p a i now w).2) :=
  fun _ a i now w => ⟨_, replied a i now w, rfl⟩

theorem searchRuling_deterministic (deterministic : replies.Deterministic) :
    (searchRuling replies sought).Deterministic := by
  rintro s a i x v v' y y' ⟨r, said, rfl⟩ ⟨r', said', rfl⟩
  obtain ⟨rfl, rfl⟩ := deterministic said said'
  exact ⟨rfl, rfl⟩

/-- A search goes on at the other answer, and stops at the one that is sought. -/
theorem sighted_iff {r : Except Failure Bool} :
    (sighted sought r = .goOn () ↔ r = .ok !sought) ∧
      (∀ b, sighted sought r = .stop b ↔ b = sought ∧ r = .ok sought) ∧
      ∀ e, sighted sought r = .fail e ↔ r = .error e := by
  rcases r with e | b
  · simp [sighted]
  · cases b <;> cases sought <;> simp [sighted, eq_comm]

theorem searchOf_of_weighed {before x : ν} {as : List (Arrival α)} {m : Folding Unit Bool}
    (weighed : Weighed (searchRuling replies sought) (fun _ => .ok !sought) () before as m x) :
    SearchOf replies sought before as m.decision? x := by
  induction weighed with
  | start => exact .going .start
  | @hear as s i y b m z weighed hears ih =>
    have index := weighed.running.2
    change SearchOf replies sought before as none y at ih
    obtain ⟨missed⟩ := ih
    rename_i seen
    rw [List.length_map] at index
    subst index
    cases hears with
    | goOn said =>
      obtain ⟨r, said, same⟩ := said
      cases sighted_iff.1.mp same.symm
      have going := SearchOf.going (missed.next said)
      rw [List.map_append] at going
      exact going
    | stop said =>
      obtain ⟨r, said, same⟩ := said
      obtain ⟨rfl, rfl⟩ := (sighted_iff.2.1 _).mp same.symm
      exact .found missed said
    | fail said =>
      obtain ⟨r, said, same⟩ := said
      cases (sighted_iff.2.2 _).mp same.symm
      exact .broken missed said
    | failure => exact .failure missed
    | ended => exact .ended missed

theorem search_decides (keeps : source.Keeps view) (replied : Replies view replies p)
    (sought : Bool) :
    Decides source (.search sought p) view (SearchOf replies sought) :=
  decides_of_weighed (search_judges replied sought) keeps searchOf_of_weighed

end Search

end PullStream
