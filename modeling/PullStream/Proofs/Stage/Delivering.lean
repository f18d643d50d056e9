import PullStream.Proofs.Machine.Delivery
import PullStream.Proofs.Parallel.Reference
import PullStream.Proofs.Stage.Via
import PullStream.Stage.Elementwise

/-!
What elementwise stages deliver.

An elementwise stage counts the elements of its input and answers each by its result; a
failure and the end pass through it. On a source that hands out some elements, and perhaps a
failure behind them, it delivers the results position by position; guarded, it delivers them
in order up to the first failure.

* `Elementwise.via_delivers`, `Elementwise.guarded_delivers` — these two facts.
* `map_elementwise`, `filter_elementwise`, `intercept_elementwise` — the stages.
-/

namespace PullStream

variable {ω α β : Type}

/-- Results in order are what each delivers, up to the first failure. -/
theorem inOrder_eq_untilFailure (rs : List (Except Failure (Option β))) :
    inOrder rs = untilFailure (rs.filterMap delivery) := by
  induction rs with
  | nil => rfl
  | cons r rs ih =>
    rcases r with e | _ | b
    · rfl
    · exact ih
    · exact congrArg (.ok b :: ·) ih

/-! ### Results of step functions -/

/-- An element is replaced by the step function's result. -/
def mapped (f : α → Nat → Except Failure β) (a : α) (i : Nat) : Except Failure (Option β) :=
  (f a i).map some

/-- An element is left out if the step function says no. -/
def chosen (p : α → Nat → Except Failure Bool) (a : α) (i : Nat) : Except Failure (Option α) :=
  (p a i).map fun yes => if yes then some a else none

/-- An element stays what it is. -/
def inspected (f : α → Nat → Except Failure Unit) (a : α) (i : Nat) : Except Failure (Option α) :=
  (f a i).map fun _ => some a

theorem ofExcept_output (r : Except Failure β) :
    (Answer.ofExcept r).output? = delivery (r.map some) := by
  cases r <;> rfl

theorem ofDecision_output (a : α) (r : Except Failure Bool) :
    (Answer.ofDecision a r).output? = delivery (r.map fun yes => if yes then some a else none) := by
  rcases r with e | _ | _ <;> rfl

namespace Transducer

/-- A stage that answers each element by its result. -/
structure Elementwise (t : Transducer ω α β) (index : t.Memory → Nat)
    (result : α → Nat → Except Failure (Option β)) : Prop where
  start : index t.start = 0
  before : ∀ m now w, t.before m now w = none
  answer : ∀ m a now w, (t.item m a now w).1.output? = delivery (result a (index m))
  goesOn : ∀ m a now w, (t.item m a now w).1 ≠ .done
  counts : ∀ m a now w, index (t.item m a now w).2.1 = index m + 1
  fail : ∀ m e now w, t.fail m e now w = (.fail e, m, w)
  done : ∀ m now w, t.done m now w = (.done, m, w)
  holds : ∀ m, t.holds m = true

theorem map_elementwise {f : Step ω α β} {g : α → Nat → Except Failure β} (gives : f.Gives g) :
    Elementwise (map f) (fun i : Nat => i) (mapped g) where
  start := rfl
  before _ _ _ := rfl
  answer i a now w := by
    have same : ((map f).item i a now w).1 = .ofExcept (g a i) :=
      congrArg Answer.ofExcept (gives a i now w)
    exact (congrArg Answer.output? same).trans (ofExcept_output (g a i))
  goesOn i a now w := by
    have same : ((map f).item i a now w).1 = .ofExcept (f a i now w).1 := rfl
    rw [same]
    cases (f a i now w).1 <;> simp [Answer.ofExcept]
  counts _ _ _ _ := rfl
  fail _ _ _ _ := rfl
  done _ _ _ := rfl
  holds _ := rfl

theorem filter_elementwise {p : Step ω α Bool} {g : α → Nat → Except Failure Bool}
    (gives : p.Gives g) : Elementwise (filter p) (fun i : Nat => i) (chosen g) where
  start := rfl
  before _ _ _ := rfl
  answer i a now w := by
    have same : ((filter p).item i a now w).1 = .ofDecision a (g a i) :=
      congrArg (Answer.ofDecision a) (gives a i now w)
    exact (congrArg Answer.output? same).trans (ofDecision_output a (g a i))
  goesOn i a now w := by
    have same : ((filter p).item i a now w).1 = .ofDecision a (p a i now w).1 := rfl
    rw [same]
    rcases (p a i now w).1 with e | _ | _ <;> simp [Answer.ofDecision]
  counts _ _ _ _ := rfl
  fail _ _ _ _ := rfl
  done _ _ _ := rfl
  holds _ := rfl

theorem intercept_elementwise {f : Step ω α Unit} {g : α → Nat → Except Failure Unit}
    (gives : f.Gives g) : Elementwise (intercept f) (fun i : Nat => i) (inspected g) := by
  have returns : (f.map fun a _ => a).Gives fun a i => (g a i).map fun _ => a := by
    intro a i now w
    exact congrArg (Except.map fun _ => a) (gives a i now w)
  have same : inspected g = mapped fun a i => (g a i).map fun _ => a := by
    funext a i
    rw [inspected, mapped]
    cases g a i <;> rfl
  rw [same]
  exact map_elementwise returns

namespace Elementwise

variable {t : Transducer ω α β} {index : t.Memory → Nat}
  {result : α → Nat → Except Failure (Option β)} {input : Machine ω α} {xs : List α}
  {fault : Option Failure}

/-- How far a stage has come whose input has delivered `n` entries. -/
structure Passed (t : Transducer ω α β) (index : t.Memory → Nat)
    (result : α → Nat → Except Failure (Option β)) (input : Machine ω α) (xs : List α)
    (fault : Option Failure) (s : input.State × t.Memory) (answers : List (Answer β)) (n : Nat) :
    Prop where
  position : input.At (sourceOf xs fault) s.1 n
  counted : n ≤ xs.length → index s.2 = n
  delivered : outputs answers = ((resultsOf result xs fault).take n).filterMap delivery
  ended : .done ∈ answers → n = (sourceOf xs fault).length

/-- The next result is delivered in its place. -/
theorem Passed.next {s s' : input.State × t.Memory} {answers : List (Answer β)} {n : Nat}
    (p : Passed t index result input xs fault s answers n) {r : Except Failure α}
    (there : (sourceOf xs fault)[n]? = some r) {b : Answer β}
    {x : Except Failure (Option β)} (right : (resultsOf result xs fault)[n]? = some x)
    (answer : b.output? = delivery x) (goesOn : b ≠ .done)
    (position : input.At (sourceOf xs fault) s'.1 (n + 1))
    (counted : n + 1 ≤ xs.length → index s'.2 = n + 1) :
    Passed t index result input xs fault s' (answers ++ [b]) (n + 1) := by
  refine ⟨position, counted, ?_, fun done => ?_⟩
  · have one : ([x].filterMap delivery) = (delivery x).toList := by
      cases h : delivery x with
      | none => simp [h]
      | some y => simp [h]
    rw [outputs_append, outputs_singleton, answer, p.delivered, List.take_add_one, right,
      List.filterMap_append, Option.toList_some, one]
  · have old : .done ∈ answers := by
      rcases List.mem_append.mp done with old | new
      · exact old
      · exact absurd (List.mem_singleton.mp new).symm goesOn
    have bound := (List.getElem?_eq_some_iff.mp there).1
    have last := p.ended old
    omega

/-- An answer that delivers nothing leaves the position. -/
theorem Passed.silent {s s' : input.State × t.Memory} {answers : List (Answer β)} {n : Nat}
    (p : Passed t index result input xs fault s answers n) {b : Answer β}
    (nothing : b.output? = none) (position : input.At (sourceOf xs fault) s'.1 n)
    (counted : index s'.2 = index s.2) (ended : b = .done → n = (sourceOf xs fault).length) :
    Passed t index result input xs fault s' (answers ++ [b]) n := by
  refine ⟨position, fun inside => counted.trans (p.counted inside), ?_, fun done => ?_⟩
  · rw [outputs_append, outputs_singleton, nothing, p.delivered, Option.toList_none,
      List.append_nil]
  · rcases List.mem_append.mp done with old | new
    · exact p.ended old
    · exact ended (List.mem_singleton.mp new).symm

variable (e : Elementwise t index result) (delivers : input.Delivers (sourceOf xs fault))
include e delivers

theorem reach_passed {s : (input.via t).State} {answers : List (Answer β)}
    (reached : (input.via t).Reach s answers) :
    ∃ n, Passed t index result input xs fault s answers n := by
  induction reached with
  | start => exact ⟨0, .start, fun _ => e.start, rfl, fun done => absurd done List.not_mem_nil⟩
  | @tick s answers _ now w ih =>
    obtain ⟨n, position, counted, delivered, ended⟩ := ih
    exact ⟨n, position.tick now w, counted, delivered, ended⟩
  | @poll s answers _ now w ih =>
    obtain ⟨n, p⟩ := ih
    have asked := Machine.via_poll input t s now w
    generalize (input.via t).poll s now w = answer at asked
    cases asked with
    | before own => exact absurd own (by simp [e.before])
    | @item a q own asked =>
      have next := p.position.output delivers asked rfl
      have there := sourceOf_element next.1
      have inside : n < xs.length := (List.getElem?_eq_some_iff.mp there).1
      have counted := p.counted (Nat.le_of_lt inside)
      have right := resultsOf_element result fault there
      refine ⟨n + 1, p.next next.1 right ?_ (e.goesOn _ _ _ _) ?_ ?_⟩
      · rw [Machine.react, e.answer, counted]
      · rw [Machine.react, Machine.release_held _ (e.holds _)]
        exact next.2
      · intro _
        rw [Machine.react, e.counts, counted]
    | @fail error q own asked =>
      have next := p.position.output delivers asked rfl
      obtain ⟨rfl, rfl⟩ := sourceOf_failure next.1
      rw [e.fail]
      refine ⟨_, p.next next.1 (resultsOf_fault result error) rfl (by simp [Machine.react]) ?_ ?_⟩
      · rw [Machine.react, Machine.release_held _ (e.holds _)]
        exact next.2
      · intro beyond
        omega
    | @done q own asked =>
      have all := p.position.done delivers asked
      have next := p.position.silent asked rfl
      rw [e.done]
      refine ⟨n, p.silent rfl ?_ rfl fun _ => all⟩
      rw [Machine.react, Machine.release_held _ (e.holds _)]
      exact next
    | @pass g q own asked notFail notDone =>
      have next := p.position.silent asked (Answer.output?_signal notFail)
      refine ⟨n, p.silent (Answer.output?_signal notFail) next rfl ?_⟩
      intro same
      injection same with same
      exact absurd same notDone

/-- An elementwise stage delivers the result of each position. -/
theorem via_delivers : (input.via t).Delivers ((resultsOf result xs fault).filterMap delivery) := by
  intro s answers reached
  obtain ⟨n, p⟩ := reach_passed e delivers reached
  rw [p.delivered]
  constructor
  · exact (List.take_prefix n _).filterMap delivery
  · intro done
    have all := p.ended done
    rw [length_sourceOf result] at all
    rw [all, List.take_length]

/-- Guarded, it delivers the results in order. -/
theorem guarded_delivers :
    (input.via t).guarded.Delivers (inOrder (resultsOf result xs fault)) := by
  rw [inOrder_eq_untilFailure]
  exact Machine.guarded_delivers (via_delivers e delivers)

end Elementwise
end Transducer
end PullStream
