import Mathlib.Algebra.BigOperators.Group.Finset.Basic
import PullStream.Proofs.Parallel.Reference
import PullStream.Proofs.Stage.Asking

/-!
What is said about elements that are retried.

About an element there are some attempts that fail and are to be repeated, and then one that
succeeds or is given up (`Story`). A dialogue of this kind records one story after the other, in
the order of the elements, and then the beginning of one more. What it puts out is told by the
stories: one entry for each success, and one for a failure that nobody gets over, which is the
last.

* `Recounted` — the stories of a dialogue, and what it puts out.
* `Config.Leads.recounted` — every dialogue records stories.
* `Recounted.length_log_le` — how much is said, by the number of attempts.
-/

namespace PullStream.Dialogue

variable {α β : Type} {failing : Bool}

/-! ### Stories -/

/-- How an element came out. -/
inductive Outcome (β : Type) where
  | succeeded (b : β)
  | givenUp (e : Failure)

/-- What became of an element: the failures of the attempts that were repeated, and how it came
out. -/
structure Story (β : Type) where
  failures : List Failure
  outcome : Outcome β

/-- An attempt that fails, and the judgment of it. -/
def attemptFailed (a : α) (i : Nat) (d : Decision) (e : Failure) :
    List (retry α β failing).Utterance :=
  [.asked (Attempted.operation a i), .answered (Attempted.operation a i) (.error e),
    .asked (Attempted.judgment e a i), .answered (Attempted.judgment e a i) d]

/-- Attempts that fail and are to be repeated. -/
def repeats (a : α) (i : Nat) (failures : List Failure) : List (retry α β failing).Utterance :=
  failures.flatMap (attemptFailed a i .retry)

/-- What is said of the last attempt. -/
def Outcome.record (a : α) (i : Nat) : Outcome β → List (retry α β failing).Utterance
  | .succeeded b =>
    [.asked (Attempted.operation a i), .answered (Attempted.operation a i) (.ok b)]
  | .givenUp e => attemptFailed a i .giveUp e

/-- All that is said about an element. -/
def Story.record (a : α) (i : Nat) (story : Story β) : List (retry α β failing).Utterance :=
  repeats a i story.failures ++ story.outcome.record a i

/-- What an element comes to: the result of its last attempt, or nothing if it has been given up
and that is no failure. -/
def Story.output? (failing : Bool) (story : Story β) : Option (Except Failure β) :=
  match story.outcome with
  | .succeeded b => some (.ok b)
  | .givenUp e => if failing then some (.error e) else none

/-- What the elements come to. -/
def told (failing : Bool) (stories : List (Story β)) : List (Except Failure β) :=
  stories.filterMap (Story.output? failing)

/-- The stories of the first elements, one after the other. -/
def records (xs : List α) (stories : List (Story β)) : List (retry α β failing).Utterance :=
  ((xs.zip stories).mapIdx fun i p => p.2.record p.1 i).flatten

/-- What has been said about an element that is being worked on, and where that leaves the
dialogue. -/
inductive Working (a : α) (i : Nat) :
    List (retry α β failing).Utterance → (retry α β failing).Status → Prop where
  | again (failures : List Failure) :
      Working a i (repeats a i failures) (.asking (Attempted.operation a i))
  | trying (failures : List Failure) :
      Working a i (repeats a i failures ++ [.asked (Attempted.operation a i)])
        (.awaiting (Attempted.operation a i))
  | failed (failures : List Failure) (e : Failure) :
      Working a i (repeats a i failures ++ [.asked (Attempted.operation a i),
          .answered (Attempted.operation a i) (.error e)])
        (.asking (Attempted.judgment e a i))
  | judging (failures : List Failure) (e : Failure) :
      Working a i (repeats a i failures ++ [.asked (Attempted.operation a i),
          .answered (Attempted.operation a i) (.error e), .asked (Attempted.judgment e a i)])
        (.awaiting (Attempted.judgment e a i))

theorem repeats_concat (a : α) (i : Nat) (failures : List Failure) (e : Failure) :
    (repeats a i (failures ++ [e]) : List (retry α β failing).Utterance) =
      repeats a i failures ++ attemptFailed a i .retry e := by
  simp [repeats]

theorem told_concat (stories : List (Story β)) (story : Story β) :
    told failing (stories ++ [story]) = told failing stories ++ (story.output? failing).toList := by
  cases output : story.output? failing <;> simp [told, output]

section Records

variable {front : List α} {stories : List (Story β)} (same : front.length = stories.length)
include same

/-- Only the elements that have a story count. -/
theorem records_append (rest : List α) :
    (records (front ++ rest) stories : List (retry α β failing).Utterance) =
      records front stories := by
  have zipped : (front ++ rest).zip (stories ++ []) = front.zip stories ++ rest.zip [] :=
    List.zip_append same
  rw [List.append_nil, List.zip_nil_right, List.append_nil] at zipped
  rw [records, records, zipped]

theorem records_concat (a : α) (story : Story β) :
    (records (front ++ [a]) (stories ++ [story]) : List (retry α β failing).Utterance) =
      records front stories ++ story.record a stories.length := by
  have zipped : (front ++ [a]).zip (stories ++ [story]) =
      front.zip stories ++ [a].zip [story] := List.zip_append same
  simp [records, zipped, same]

end Records

/-! ### Dialogues -/

/-- How many elements have a story, and what has been said about the one behind them, if that
has been taken. -/
inductive Position : List α → List (Story β) → List (retry α β failing).Utterance →
    (retry α β failing).Status → Prop where
  | between {items stories} : items.length = stories.length → Position items stories [] .idle
  | within {front a stories begun status} : front.length = stories.length →
      Working a stories.length begun status → Position (front ++ [a]) stories begun status

/-- A dialogue that has taken `items`, and the failure `fault` behind them, if any. It has
recorded `stories`, and `begun` about the element that is being worked on. -/
structure Recounted (c : (retry α β failing).Config) (items : List α) (fault : Option Failure)
    (stories : List (Story β)) (begun : List (retry α β failing).Utterance) : Prop where
  source : c.source = sourceOf items fault
  log : c.log = records items stories ++ begun
  outs : c.outs = told failing stories ++ fault.toList.map .error
  position : Position items stories begun c.status
  faulted : fault ≠ none → c.status = .idle
  /-- Behind an element that has failed there is nothing. -/
  alone : ∀ e, .error e ∈ told failing stories → c.status = .idle ∧ fault = none
  last : ∀ e, .error e ∉ told failing stories.dropLast

section Steps

variable {c d : (retry α β failing).Config} {items : List α} {fault : Option Failure}
  {stories : List (Story β)} {begun : List (retry α β failing).Utterance}

/-- While nothing has failed, no element and no source has. -/
theorem Recounted.clean (recounted : Recounted c items fault stories begun) (clean : c.Clean) :
    fault = none ∧ ∀ e, .error e ∉ told failing stories := by
  constructor
  · cases fault with
    | none => rfl
    | some e => exact absurd (by simp [recounted.outs]) (clean e)
  · intro e member
    exact clean e (recounted.outs ▸ List.mem_append_left _ member)

/-- An element is being worked on, and the next thing has been said about it. -/
theorem Recounted.said (recounted : Recounted c items fault stories begun) (clean : c.Clean)
    {said : List (retry α β failing).Utterance} {status : (retry α β failing).Status}
    (position : Position items stories (begun ++ said) status) :
    Recounted { c with log := c.log ++ said, status } items fault stories (begun ++ said) where
  source := recounted.source
  log := (congrArg (· ++ said) recounted.log).trans (List.append_assoc ..)
  outs := recounted.outs
  position := position
  faulted := fun faulted => absurd (recounted.clean clean).1 faulted
  alone := fun e member => absurd member ((recounted.clean clean).2 e)
  last := recounted.last

/-- The story of an element is complete. -/
theorem Recounted.concluded {front : List α} {a : α}
    (recounted : Recounted c (front ++ [a]) fault stories begun) (clean : c.Clean)
    (count : front.length = stories.length) (story : Story β)
    {said : List (retry α β failing).Utterance}
    (record : begun ++ said = story.record a stories.length) :
    Recounted { c with
      log := c.log ++ said
      outs := c.outs ++ (story.output? failing).toList
      status := .idle } (front ++ [a]) fault (stories ++ [story]) [] := by
  obtain ⟨rfl, untroubled⟩ := recounted.clean clean
  refine ⟨recounted.source, ?_, ?_, .between (by simp [count]), fun _ => rfl,
    fun _ _ => ⟨rfl, rfl⟩, ?_⟩
  · dsimp only
    rw [recounted.log, records_append count, records_concat count, List.append_assoc, record,
      List.append_nil]
  · dsimp only
    rw [recounted.outs, told_concat]
    simp
  · rw [List.dropLast_concat]
    exact untroubled

theorem Recounted.taken (recounted : Recounted c items fault stories begun) (clean : c.Clean)
    (idle : c.status = .idle) (a : α) :
    Recounted { c with
      source := c.source ++ [.ok a]
      status := .asking (Attempted.operation a (itemsOf c.source).length) }
      (items ++ [a]) none stories [] := by
  obtain ⟨rfl, untroubled⟩ := recounted.clean clean
  obtain ⟨source, log, outs, position, -, -, last⟩ := recounted
  rw [idle] at position
  cases position with
  | within _ working => cases working
  | between count =>
    refine ⟨?_, ?_, outs, ?_, fun faulted => absurd rfl faulted,
      fun e member => absurd member (untroubled e), last⟩
    · simp [source, sourceOf]
    · simpa [records_append count] using log
    · rw [source, itemsOf_sourceOf, count]
      exact .within count (.again [])

theorem Recounted.passed (recounted : Recounted c items fault stories begun) (clean : c.Clean)
    (idle : c.status = .idle) (e : Failure) :
    Recounted { c with source := c.source ++ [.error e], outs := c.outs ++ [.error e] }
      items (some e) stories begun := by
  obtain ⟨rfl, untroubled⟩ := recounted.clean clean
  obtain ⟨source, log, outs, position, -, -, last⟩ := recounted
  refine ⟨?_, log, ?_, position, fun _ => idle, fun e member => absurd member (untroubled e), last⟩
  · simp [source, sourceOf]
  · simp [outs]

/-- A question is asked about the element that is being worked on. -/
theorem Recounted.questioned (recounted : Recounted c items fault stories begun)
    (clean : c.Clean) {q : (retry α β failing).Query} (asking : c.status = .asking q) :
    Recounted { c with log := c.log ++ [.asked q], status := .awaiting q }
      items fault stories (begun ++ [.asked q]) := by
  apply recounted.said clean
  have position := recounted.position
  rw [asking] at position
  cases position with
  | within count working =>
    apply Position.within count
    cases working with
    | again failures => exact .trying failures
    | failed failures e =>
      rw [List.append_assoc]
      exact .judging failures e

/-- A reply about an element either leaves more to be said about it or concludes its story. -/
theorem Recounted.heard (recounted : Recounted c items fault stories begun) (clean : c.Clean)
    {q : (retry α β failing).Query} (awaiting : c.status = .awaiting q)
    (r : (retry α β failing).Reply q) :
    ∃ stories begun, Recounted (c.heard q r) items fault stories begun := by
  have position := recounted.position
  rw [awaiting] at position
  cases position with
  | @within front a _ _ _ count working =>
    cases working with
    | trying failures =>
      rcases r with e | b
      · refine ⟨_, _, recounted.said clean (.within count ?_)⟩
        rw [List.append_assoc]
        exact .failed failures e
      · refine ⟨_, _, recounted.concluded clean count ⟨failures, .succeeded b⟩ ?_⟩
        simp [Story.record, Outcome.record]
    | judging failures e =>
      rcases r with _ | _
      · refine ⟨_, _, recounted.said clean (.within count ?_)⟩
        rw [List.append_assoc]
        change Working a _ (repeats a _ failures ++ attemptFailed a _ .retry e) _
        rw [← repeats_concat]
        exact .again _
      · cases failing
        all_goals
          refine ⟨_, _, recounted.concluded clean count ⟨failures, .givenUp e⟩ ?_⟩
          simp [Story.record, Outcome.record, attemptFailed]

end Steps

/-- Every dialogue records stories. -/
theorem Config.Leads.recounted {c : (retry α β failing).Config} (reached : Leads {} c) :
    ∃ items fault stories begun, Recounted c items fault stories begun := by
  induction reached with
  | refl =>
    refine ⟨[], none, [], [], rfl, rfl, rfl, .between rfl, ?_, ?_, ?_⟩ <;> simp [told]
  | tail _ goes ih =>
    obtain ⟨items, fault, stories, begun, recounted⟩ := ih
    obtain ⟨clean, step⟩ := goes
    cases step with
    | pass idle => exact ⟨_, _, _, _, recounted.passed clean idle _⟩
    | take idle => exact ⟨_, _, _, _, recounted.taken clean idle _⟩
    | ask asking =>
      exact ⟨_, _, _, _, recounted.questioned clean asking⟩
    | hear r awaiting =>
      obtain ⟨stories, begun, recounted⟩ := recounted.heard clean awaiting r
      exact ⟨_, _, stories, begun, recounted⟩

/-! ### Attempts -/

/-- The element on which an attempt is begun. -/
def attempted? : (retry α β failing).Utterance → Option Nat
  | .asked (Attempted.operation _ i) => some i
  | _ => none

/-- The elements on which attempts have been made. -/
def attempts (said : List (retry α β failing).Utterance) : List Nat :=
  said.filterMap attempted?

/-- No more is said than goes with the attempts, and they are on the first `n` elements. -/
structure Spaced (n : Nat) (said : List (retry α β failing).Utterance) : Prop where
  length_le : said.length ≤ 4 * (attempts said).length
  index_lt : ∀ i ∈ attempts said, i < n

namespace Spaced

variable {n : Nat} {said said' : List (retry α β failing).Utterance}

theorem nil : Spaced n ([] : List (retry α β failing).Utterance) :=
  ⟨Nat.le_refl _, fun _ none => absurd none List.not_mem_nil⟩

theorem append (spaced : Spaced n said) (spaced' : Spaced n said') : Spaced n (said ++ said') := by
  constructor
  · rw [attempts, List.filterMap_append, List.length_append, List.length_append]
    have first := spaced.length_le
    have second := spaced'.length_le
    rw [attempts] at first second
    omega
  · intro i member
    rw [attempts, List.filterMap_append, List.mem_append] at member
    exact member.elim (spaced.index_lt i) (spaced'.index_lt i)

theorem flatten {parts : List (List (retry α β failing).Utterance)}
    (spaced : ∀ said ∈ parts, Spaced n said) : Spaced n parts.flatten := by
  induction parts with
  | nil => exact .nil
  | cons said parts ih =>
    have rest := ih fun said member => spaced said (List.mem_cons_of_mem _ member)
    exact (spaced said List.mem_cons_self).append rest

theorem of_attempt {i : Nat} (attempt : attempts said = [i]) (few : said.length ≤ 4)
    (bound : i < n) : Spaced n said :=
  ⟨by simpa [attempt] using few, by simpa [attempt] using bound⟩

variable {a : α} {i : Nat}

theorem repeats (bound : i < n) (failures : List Failure) :
    Spaced n (Dialogue.repeats a i failures : List (retry α β failing).Utterance) := by
  rw [Dialogue.repeats, List.flatMap_def]
  apply flatten
  intro said member
  obtain ⟨e, -, rfl⟩ := List.mem_map.mp member
  exact .of_attempt rfl (Nat.le_refl 4) bound

theorem record (bound : i < n) (story : Story β) :
    Spaced n (story.record a i : List (retry α β failing).Utterance) := by
  apply (repeats bound story.failures).append
  cases story.outcome with
  | succeeded b => exact .of_attempt rfl (by simp [Outcome.record]) bound
  | givenUp e => exact .of_attempt rfl (Nat.le_refl 4) bound

theorem working {status : (retry α β failing).Status} (bound : i < n)
    (working : Working a i said status) : Spaced n said := by
  cases working with
  | again failures => exact repeats bound failures
  | trying failures => exact (repeats bound failures).append (.of_attempt rfl (by simp) bound)
  | failed failures e => exact (repeats bound failures).append (.of_attempt rfl (by simp) bound)
  | judging failures e => exact (repeats bound failures).append (.of_attempt rfl (by simp) bound)

theorem position {items : List α} {stories : List (Story β)}
    {status : (retry α β failing).Status} (position : Position items stories said status) :
    Spaced items.length said := by
  cases position with
  | between => exact .nil
  | within count begun => exact working (by simp [count]) begun

/-- How much is said, by the attempts on each element. -/
theorem length_le_sum (spaced : Spaced n said) :
    said.length ≤ 4 * ∑ i ∈ Finset.range n, (attempts said).count i := by
  have counted := Multiset.sum_count_eq_card (s := Finset.range n)
    (m := (attempts said : Multiset Nat))
    fun i member => Finset.mem_range.mpr (spaced.index_lt i (Multiset.mem_coe.mp member))
  simp only [Multiset.coe_count, Multiset.coe_card] at counted
  rw [counted]
  exact spaced.length_le

end Spaced

/-- How much a dialogue has said, by the attempts on each element. -/
theorem Recounted.length_log_le {c : (retry α β failing).Config} {items : List α}
    {fault : Option Failure} {stories : List (Story β)}
    {begun : List (retry α β failing).Utterance}
    (recounted : Recounted c items fault stories begun) :
    c.log.length ≤ 4 * ∑ i ∈ Finset.range items.length, (attempts c.log).count i := by
  apply Spaced.length_le_sum
  rw [recounted.log]
  apply Spaced.append
  · apply Spaced.flatten
    intro said member
    obtain ⟨i, bound, rfl⟩ := List.mem_mapIdx.mp member
    rw [List.length_zip] at bound
    exact .record (by omega) _
  · exact .position recounted.position

end PullStream.Dialogue
