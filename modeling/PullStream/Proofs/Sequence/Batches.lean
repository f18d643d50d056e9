import PullStream.Proofs.Stage.Batching
import PullStream.Sequence

/-!
What batching guarantees.

A sequence in batches delivers the full batches of its source and what is left over, or the
failure of the source in the place of that. It does so whatever its mode: both modes have one
machine, whose every poll has delivered all that can be made of what the source has answered.

* `guarded_filled` — how far a sequence in batches has come, however it is used.
* `Gathered.of_delivers` — what that is when the source delivers a list.
-/

namespace PullStream

variable {ω α : Type} {size width : Nat} {input : Machine ω α} {xs : List α}
  {fault : Option Failure}

open Transducer (batch)

/-- A failure comes behind a failure of the source only. -/
theorem Gathered.closed_of_failed {asked : List (Answer α)} {out : List (Except Failure (List α))}
    (gathered : Gathered size asked out) {e : Failure} (failed : .error e ∈ out) :
    .done ∈ asked ∨ ∃ e, .fail e ∈ asked := by
  cases gathered with
  | going clean unended => simp at failed
  | failed e' clean unended => exact .inr ⟨e', by simp⟩
  | ended clean unended => exact .inl (by simp)

/-- With a source that delivers a list, what has been gathered is a first part of the batches of
that list, and all of them if the source is over. -/
theorem Gathered.of_delivers (positive : 0 < size) {asked : List (Answer α)}
    {out : List (Except Failure (List α))} (gathered : Gathered size asked out)
    (first : outputs asked <+: sourceOf xs fault)
    (all : .done ∈ asked → outputs asked = sourceOf xs fault) :
    out <+: batches size xs fault ∧
      ((.done ∈ asked ∨ ∃ e, .fail e ∈ asked) → out = batches size xs fault) := by
  cases gathered with
  | going clean unended =>
    constructor
    · have items : itemsOf (outputs asked) <+: xs := by
        have among := first.filterMap Except.toOption
        rwa [← itemsOf, ← itemsOf, itemsOf_sourceOf] at among
      have full := (fullBatches_mono positive items).map (Except.ok (ε := Failure))
      cases fault <;> exact full.trans (List.prefix_append _ _)
    · rintro (done | ⟨e, failed⟩)
      · exact absurd done unended
      · exact absurd failed (clean e)
  | @failed asked e clean unended =>
    rw [outputs_append, outputs_fail] at first
    have whole := told_of_failed first (e := e) (by simp)
    have items := congrArg itemsOf whole
    rw [itemsOf_append, itemsOf_sourceOf, show itemsOf [.error e] = ([] : List α) from rfl,
      List.append_nil] at items
    have entry : .error e ∈ sourceOf xs fault := by
      rw [← whole]
      simp
    rw [items, error_mem_sourceOf.mp entry]
    exact ⟨List.prefix_rfl, fun _ => rfl⟩
  | @ended asked clean unended =>
    have whole := all (by simp)
    rw [outputs_append, outputs_done, List.append_nil] at whole
    have none : fault = none := by
      cases fault with
      | none => rfl
      | some e =>
        have failed : .error e ∈ outputs asked := whole ▸ error_mem_sourceOf.mpr rfl
        exact absurd (error_mem_outputs.mp failed) (clean e)
    rw [whole, itemsOf_sourceOf, none]
    exact ⟨List.prefix_rfl, fun _ => rfl⟩

/-- How far a sequence in batches has come when its source has answered `asked`. -/
structure Batched (size : Nat) (answers : List (Answer (List α))) (asked : List (Answer α)) :
    Prop where
  /-- What has been delivered is what can be made of the answers of the source. -/
  gathered : Gathered size asked (outputs answers)
  /-- The end is reported behind a failure or the end of the source. -/
  closed : .done ∈ answers → .done ∈ asked ∨ ∃ e, .fail e ∈ asked
  /-- When a batch has just been handed out, nothing has been pulled that is not in it or in the
  ones before. -/
  prompt : ∀ before b, answers = before ++ [.item b] →
    (itemsOf (outputs answers)).flatten = itemsOf (outputs asked)
  /-- A poll waits when the source does. -/
  waits : answers.countP Answer.isWait = asked.countP Answer.isWait
  /-- Nothing breaks down but the source. -/
  sound : ∀ message, .crash message ∈ answers → .crash message ∈ asked
  /-- Up to the end there is one more poll than the source has for each batch, at most, and one
  for the batch in the making. -/
  paced : .done ∉ answers → busyPolls answers ≤ busyPolls asked + (outputs answers).length + 1

/-- However a sequence in batches is used, it has come so far as its source lets it. -/
theorem guarded_batched (positive : 0 < size) (fits : size ≤ Transducer.roomFor width)
    {t : (input.via (batch size width)).guarded.State} {answers : List (Answer (List α))}
    (reached : (input.via (batch size width)).guarded.Reach t answers) :
    ∃ asked, input.Reach t.1.1 asked ∧ Batched size answers asked := by
  cases reached.guarded with
  | going below clean =>
    obtain ⟨asked, source, filled, paced⟩ := reach_filled positive fits below
    refine ⟨asked, source, filled.gathered, filled.closed, ?_, paced.waits, paced.sound, ?_⟩
    · rintro before b rfl
      exact filled.prompt positive (paced.empty before b rfl)
    · intro unended
      have bound := paced.paced unended
      split at bound <;> omega
  | @failed s taken e n below clean =>
    obtain ⟨asked, source, filled, paced⟩ := reach_filled positive fits below
    have ends : outputs (taken ++ [.fail e] ++ List.replicate n .done) =
        outputs (taken ++ [.fail e]) := by
      simp [outputs, Answer.output?]
    have failed : .error e ∈ outputs (taken ++ [.fail e]) := by simp
    refine ⟨asked, source, ends ▸ filled.gathered, ?_, ?_, ?_, ?_, ?_⟩
    · exact fun _ => filled.gathered.closed_of_failed failed
    · intro before b same
      cases n with
      | zero => simp at same
      | succ n =>
        rw [List.replicate_succ', ← List.append_assoc] at same
        cases List.append_inj_right' same rfl
    · rw [← paced.waits]
      simp [List.countP_replicate, Answer.isWait]
    · intro message broken
      exact paced.sound message (by simpa using broken)
    · intro unended
      cases n with
      | zero =>
        have bound := paced.paced (by simpa using unended)
        rw [List.replicate_zero, List.append_nil]
        split at bound <;> omega
      | succ n => exact absurd (by simp [List.replicate_succ]) unended

namespace Sequence

/-- Batching cuts its source into full batches, which are handed out in the polls that get their
last elements, and a shorter batch of what is left over at the end; at a failure of the source
that is lost, and the failure comes in its place. That holds in both modes, and wherever the
source waits. -/
theorem batch_partitions (positive : 0 < size) (fits : size ≤ Transducer.roomFor width) :
    (∀ xs : List α, (fullBatches size xs).length = xs.length / size ∧
      (∀ batch ∈ fullBatches size xs, batch.length = size) ∧
      (leftOver size xs).length = xs.length % size ∧
      (fullBatches size xs).flatten ++ leftOver size xs = xs ∧
      (itemsOf (batches size xs none)).flatten = xs) ∧
    ∀ source : Machine ω α,
      let batched := (source.via (.batch size width)).guarded
      (∀ mode, Sequence.batch ⟨mode, source⟩ size width = .ok ⟨mode, batched⟩) ∧
      (∀ t answers, batched.Reach t answers →
        ∃ asked, source.Reach t.1.1 asked ∧ Batched size answers asked) ∧
      ∀ xs fault, source.Delivers (sourceOf xs fault) →
        batched.Delivers (batches size xs fault) := by
  constructor
  · intro xs
    exact ⟨length_fullBatches xs, fun _ member => length_of_mem_fullBatches member,
      length_leftOver xs, flatten_fullBatches positive xs, flatten_batches positive xs⟩
  · intro source batched
    refine ⟨fun mode => if_neg (Nat.pos_iff_ne_zero.mp positive), ?_, ?_⟩
    · intro t answers reached
      exact guarded_batched positive fits reached
    · intro xs fault delivers t answers reached
      obtain ⟨asked, below, kept⟩ := guarded_batched positive fits reached
      obtain ⟨first, all⟩ := delivers below
      obtain ⟨part, whole⟩ := kept.gathered.of_delivers positive first all
      exact ⟨part, fun done => whole (kept.closed done)⟩

/-- Three elements in twos are one full batch and one shorter one. -/
theorem batch_partitions_three :
    0 < 2 ∧ 2 ≤ Transducer.roomFor 8 ∧
      (∀ mode, Sequence.batch ⟨mode, .ofList (ω := Unit) [1, 2, 3]⟩ 2 8 =
        .ok ⟨mode, ((Machine.ofList [1, 2, 3]).via (.batch 2 8)).guarded⟩) ∧
      ((Machine.ofList (ω := Unit) [1, 2, 3]).via (.batch 2 8)).guarded.Delivers
        [.ok [1, 2], .ok [3]] := by
  have room : 2 ≤ Transducer.roomFor 8 := by decide
  obtain ⟨-, partitions⟩ := batch_partitions (ω := Unit) (α := Nat) Nat.two_pos room
  obtain ⟨built, -, delivers⟩ := partitions (.ofList [1, 2, 3])
  exact ⟨Nat.two_pos, room, built, delivers [1, 2, 3] none (Machine.ofResults_delivers _)⟩

end Sequence
end PullStream
