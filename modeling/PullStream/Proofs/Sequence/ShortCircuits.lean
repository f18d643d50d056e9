import PullStream.Proofs.Finding
import PullStream.Proofs.Stage.Taking
import PullStream.Sequence

/-!
What stops early reads no further.

Taking so many elements pulls the source so often at most, whoever pulls and however often. The
first element takes one pull and the only one two; a search pulls up to the element, the failure or
the end that decides it, and asks its step function about nothing behind. So sources that begin
alike come to the same, whatever they have behind: a failure there does not surface, and a source
without an end does no harm.

* `first_pulls`, `single_pulls` — how many pulls there are.
* `Sequence.short_circuits` — all of it, for sequences in both modes.
-/

namespace PullStream

variable {ω ν α : Type} {view : ω → ν} {source source' : Machine ω α}

open Consumer (Result)

/-- The first element takes one pull. -/
theorem first_pulls (keeps : source.Keeps view) {missing : Result α} {before x : ν}
    {memory : (Consumer.first (ω := ω) missing).Memory} {state : source.State}
    {answers : List (Answer α)}
    (used : (Consumer.first missing).Uses source view before memory state x answers) :
    pullsBegun answers ≤ 1 ∧
      ∀ r, (Consumer.first (ω := ω) missing).want memory = .finish r → pullsBegun answers = 1 := by
  obtain ⟨decision, ⟨of, -⟩, ⟨rfl, wants⟩ | ⟨r, rfl, -, counts⟩⟩ :=
    (first_decides keeps missing).uses used
  · have more := (length_arrivals_le answers).2
    generalize arrivals answers = as at of more
    cases of
    exact ⟨more, fun r finished => by cases wants.symm.trans finished⟩
  · generalize arrivals answers = as at of counts
    have one : pullsBegun answers = 1 := by cases of <;> exact counts
    exact ⟨Nat.le_of_eq one, fun _ _ => one⟩

/-- The only element takes two at most. -/
theorem single_pulls (keeps : source.Keeps view) {missing : Result α} {before x : ν}
    {memory : (Consumer.single (ω := ω) missing).Memory} {state : source.State}
    {answers : List (Answer α)}
    (used : (Consumer.single missing).Uses source view before memory state x answers) :
    pullsBegun answers ≤ 2 := by
  obtain ⟨decision, ⟨of, -⟩, ⟨rfl, -⟩ | ⟨r, rfl, -, counts⟩⟩ :=
    (single_decides keeps missing).uses used
  · have more := (length_arrivals_le answers).2
    generalize arrivals answers = as at of more
    cases of with
    | waiting => exact Nat.le_succ_of_le more
    | item => exact more
  · generalize arrivals answers = as at of counts
    rw [counts]
    cases of <;> simp

namespace Sequence

/-- What stops early pulls its source up to what decides it. Taking hands on so many arrivals and
reports the end behind them, at once, and waits only when its source does. The consumers come to
what has arrived up to the decision, with the failure that comes before it. Two sequences that
begin alike come to the same in each of these ways. -/
theorem short_circuits (s s' : Sequence ω α) (keeps : s.machine.Keeps view)
    (keeps' : s'.machine.Keeps view) :
    (∀ count,
      let taken := (s.machine.via (.takeFirst (s.mode == .waiting) count)).guarded
      s.take count = ⟨s.mode, taken⟩ ∧
      (∀ t answers, taken.Reach t answers →
        ∃ asked, s.machine.Reach t.1.1 asked ∧ Taken count answers asked ∧
          Prompt (s.mode == .waiting) count s.machine t asked) ∧
      (∀ script, s.machine.GoesBy script → (s.take count).machine.GoesBy (script.cut count)) ∧
      ∀ script script', s.machine.GoesBy script → s'.machine.GoesBy script' →
        (∀ i < count, script i = script' i) →
        ∀ t as t' as', (s.take count).machine.Draining t as →
          (s'.take count).machine.Draining t' as' → Agree as as') ∧
    (∀ missing,
      Decides s.machine (.first missing) view
        (fun before as decision x => FirstOf missing as decision ∧ x = before) ∧
      (∀ before memory state x answers,
        (Consumer.first missing).Uses s.machine view before memory state x answers →
        pullsBegun answers ≤ 1 ∧
          ∀ r, (Consumer.first missing).want memory = .finish r → pullsBegun answers = 1) ∧
      Indifferent s.machine s'.machine (.first missing) view) ∧
    (∀ missing,
      Decides s.machine (.single missing) view
        (fun before as decision x => SingleOf missing as decision ∧ x = before) ∧
      (∀ before memory state x answers,
        (Consumer.single missing).Uses s.machine view before memory state x answers →
        pullsBegun answers ≤ 2) ∧
      Indifferent s.machine s'.machine (.single missing) view) ∧
    ∀ (p : Step ω α Bool) (replies : Replying ν α), Replies view replies p →
      Decides s.machine (.any p) view (SearchOf replies true) ∧
      Decides s.machine (.all p) view (SearchOf replies false) ∧
      (replies.Deterministic → Indifferent s.machine s'.machine (.any p) view ∧
        Indifferent s.machine s'.machine (.all p) view) := by
  refine ⟨fun count => ⟨rfl, ?_, ?_, ?_⟩, fun missing => ⟨?_, ?_, ?_⟩, fun missing => ⟨?_, ?_, ?_⟩,
    fun p replies replied => ?_⟩
  · exact fun t answers reached => guarded_taken reached
  · exact fun script goes => take_goesBy goes
  · intro script script' goes goes' same t as t' as' draining draining'
    have alike : script.cut count = script'.cut count := by
      funext i
      unfold Script.cut
      split
      · rename_i inside
        exact same i inside
      · rfl
    exact (take_goesBy goes).agree (alike ▸ take_goesBy goes') draining draining'
  · exact first_decides keeps missing
  · exact fun before memory state x answers used => first_pulls keeps used
  · exact indifferent_of_judges (first_judges view) firstRuling_deterministic keeps keeps'
  · exact single_decides keeps missing
  · exact fun before memory state x answers used => single_pulls keeps used
  · exact indifferent_of_judges (single_judges view) singleRuling_deterministic keeps keeps'
  · rw [any_eq_search, all_eq_search]
    refine ⟨search_decides keeps replied true, search_decides keeps replied false, ?_⟩
    intro deterministic
    exact ⟨indifferent_of_judges (search_judges replied true)
        (searchRuling_deterministic deterministic) keeps keeps',
      indifferent_of_judges (search_judges replied false)
        (searchRuling_deterministic deterministic) keeps keeps'⟩

/-- A list, and a source without an end that begins as it does. Nobody who looks for a two can tell
them apart. -/
theorem short_circuits_endless :
    let list : Sequence Unit Nat := .ofList [1, 2, 3]
    let endless : Sequence Unit Nat := ⟨.immediate, .counting (· + 1)⟩
    let isTwo : Step Unit Nat Bool := .pure fun a _ => .ok (a == 2)
    let replies : Replying Unit Nat := fun a _ _ r _ => r = .ok (a == 2)
    list.machine.Keeps id ∧ endless.machine.Keeps id ∧ Replies id replies isTwo ∧
      replies.Deterministic ∧ Indifferent list.machine endless.machine (.any isTwo) id := by
  intro list endless isTwo replies
  have keeps : list.machine.Keeps id := ⟨fun _ _ _ => rfl, fun _ _ _ => rfl⟩
  have keeps' : endless.machine.Keeps id := ⟨fun _ _ _ => rfl, fun _ _ _ => rfl⟩
  have replied : Replies id replies isTwo := fun _ _ _ _ => rfl
  have deterministic : replies.Deterministic :=
    fun _ _ _ _ _ _ _ said said' => ⟨said.trans said'.symm, rfl⟩
  obtain ⟨-, -, -, search⟩ := short_circuits list endless keeps keeps'
  exact ⟨keeps, keeps', replied, deterministic,
    ((search isTwo replies replied).2.2 deterministic).1⟩

end Sequence
end PullStream
