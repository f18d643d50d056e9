import PullStream.Proofs.ReadAhead.Clocked
import PullStream.Sequence

/-!
What reading ahead guarantees.

Reading ahead changes when elements come, and nothing else: the consumer gets the elements of the
source in their order, and behind them its failure or its end, under every schedule of the pump,
the source and the consumer. The source is ahead of the consumer by `size` items at most, and a
pump that does nothing has asked its source or is that far ahead. An immediate sequence is left
alone.

* `buffer_invisible` — that is said of courses, and of every use of a sequence, which follows one.
-/

namespace PullStream

variable {ω α : Type}

/-- What a source hands out goes up to its failure. -/
theorem untilFailure_sourceOf (xs : List α) (fault : Option Failure) :
    untilFailure (sourceOf xs fault) = sourceOf xs fault := by
  refine untilFailure_of_terminal fun e failed => ?_
  have whole := congrArg List.length (told_of_failed (List.dropLast_prefix _) failed)
  rw [List.length_dropLast] at whole
  have some := List.length_pos_of_mem (List.dropLast_subset _ failed)
  omega

namespace Sequence

open ReadAhead (Course)
open ReadAhead.Course (Works Relays)

/-- With a buffer the consumer gets what the source hands out, entry by entry, and its end or its
failure behind all of it. The source is never asked for more than `size` items beyond those that
have been handed out, not even when the consumer has gone; a pump that can do nothing by itself
has asked its source, or exactly `size` items are waiting for a consumer that is there. A consumer
that has to wait waits for the source. In use, a pump without a step to take is such a pump, and the
source that it has asked waits. An immediate sequence is passed through as it is. -/
theorem buffer_invisible {size : Nat} (positive : 0 < size) :
    (∀ (xs : List α) (fault : Option Failure) (c : Course α), c.Relays (sourceOf xs fault) size →
      outputs c.answers <+: sourceOf xs fault ∧
      (.done ∈ c.answers → outputs c.answers = sourceOf xs fault) ∧
      (∀ before e after, c.answers = before ++ .fail e :: after →
        outputs before ++ [.error e] = sourceOf xs fault ∧ outputs after = []) ∧
      (c.pump.phase ≠ .idle → c.pump.feed.abandoned = false → c.pump.poll.1 = .wait →
        ∃ c', Relation.ReflTransGen Works c c' ∧ c'.stage = .resting ∧
          c'.pump.phase = .pulling)) ∧
    (∀ c : Course α, c.Reaches size →
      (c.pump.phase = .idle → c.told = []) ∧
      (itemsOf c.pump.feed.backlog).length ≤ size ∧
      (itemsOf c.told).length ≤ size + (itemsOf (outputs c.answers)).length ∧
      -- there is room for the item that the source has been asked for
      (c.pump.phase = .pulling →
        (itemsOf c.told).length < size + (itemsOf (outputs c.answers)).length) ∧
      (c.pump.phase ≠ .idle → c.pump.phase ≠ .stopped → (∀ c', ¬ Works c c') →
        c.stage = .resting ∧ (c.pump.phase = .pulling ∨
          c.pump.feed.abandoned = false ∧ (itemsOf c.pump.feed.backlog).length = size))) ∧
    ∀ s : Sequence ω α,
      (s.mode = .immediate → s.buffer size = .ok s) ∧
      (s.mode = .waiting →
        let buffered := (s.machine.readAhead size).guarded
        s.buffer size = .ok ⟨.waiting, buffered⟩ ∧
        (∀ t answers, buffered.Reach t answers →
          ∃ (c : Course α) (late : Nat) (asked : List (Answer α)), c.Reaches size ∧
            c.pump = t.1.1.2 ∧ c.stage = .resting ∧
            answers = c.answers ++ List.replicate late .done ∧
            (∃ r, s.machine.Reach r asked ∧ (c.pump.phase ≠ .stopped → t.1.1.1 = r)) ∧
            outputs asked = c.told ∧
            -- a pump without a step to take can do nothing by itself in the course
            ∀ now w, (ReadAhead.advance s.machine t.1.1 now w).1 = .blocked →
              (∀ c', ¬ Works c c') ∧
              (c.pump.phase = .pulling → (s.machine.poll t.1.1.1 now w).1 = .wait)) ∧
        ∀ xs fault, s.machine.Delivers (sourceOf xs fault) →
          buffered.Delivers (sourceOf xs fault)) := by
  refine ⟨?_, ?_, ?_⟩
  · intro xs fault c relayed
    obtain ⟨first, all, failed⟩ := relayed.delivers
    exact ⟨first, all, failed, relayed.waits positive⟩
  · intro c reached
    have kept := reached.kept
    have constant := reached.constant
    have balance := kept.balance
    have within := kept.within
    have least := kept.counted.least
    refine ⟨fun idle => (kept.fresh idle).1, by omega, by omega, fun pulling => ?_,
      reached.parked⟩
    have room := kept.room pulling
    omega
  · intro s
    have nonzero : size ≠ 0 := Nat.pos_iff_ne_zero.mp positive
    constructor
    · intro immediate
      rw [buffer, if_neg nonzero, immediate]
    · intro waiting buffered
      refine ⟨by rw [buffer, if_neg nonzero, waiting], ?_, ?_⟩
      · intro t answers reached
        obtain ⟨c, asked, late, tracks, same⟩ := ReadAhead.guarded_tracks reached
        refine ⟨c, late, asked, tracks.reached, tracks.pump, tracks.resting, same, ?_, tracks.told,
          ?_⟩
        · rw [tracks.pump]
          exact tracks.source
        · rw [tracks.pump]
          exact tracks.blocked
      · intro xs fault delivers
        have guarded := Machine.guarded_delivers (ReadAhead.readAhead_delivers size delivers)
        rwa [untilFailure_sourceOf] at guarded

/-- Two items read ahead by one: the pump has put the first into the feed, and waits. -/
theorem full_relays :
    Relays (sourceOf [7, 8] none) 1
      ({ pump :=
          { size := 1, phase := .waiting ⟨.read, 0⟩
            feed := { shared := [.item 7], pending := 1 } }
         told := [.ok 7], answers := [.skip] } : Course Nat) := by
  have fresh : Relays (sourceOf [7, 8] none) 1 ({ pump := { size := 1 } } : Course Nat) := .start
  have asking : Relays (sourceOf [7, 8] none) 1
      ({ pump := { size := 1, phase := .pulling }, answers := [.skip] } : Course Nat) :=
    (((fresh.poll rfl).works (.register rfl rfl)).works (.stay rfl rfl)).works
      (.room rfl Nat.one_pos)
  have told : Relays (sourceOf [7, 8] none) 1
      ({ pump :=
          { size := 1, phase := .surveying, feed := { shared := [.item 7], pending := 1 } }
         told := [.ok 7], answers := [.skip] } : Course Nat) :=
    asking.item rfl rfl rfl
  exact ((told.works (.register rfl rfl)).works (.stay rfl rfl)).works (.full rfl (Nat.le_refl 1))

/-- There it is exactly one item ahead. -/
theorem buffer_invisible_full :
    0 < 1 ∧
    (∃ c : Course Nat, c.Relays (sourceOf [7, 8] none) 1 ∧
      c.pump.phase ≠ .idle ∧ c.pump.phase ≠ .stopped ∧ (∀ c', ¬ Works c c') ∧
      (itemsOf c.pump.feed.backlog).length = 1 ∧
      (itemsOf c.told).length ≤ 1 + (itemsOf (outputs c.answers)).length) ∧
    (⟨.waiting, .ofList [7, 8]⟩ : Sequence Unit Nat).buffer 1 =
      .ok ⟨.waiting, ((Machine.ofList [7, 8]).readAhead 1).guarded⟩ ∧
    ((Machine.ofList (ω := Unit) [7, 8]).readAhead 1).guarded.Delivers [.ok 7, .ok 8] := by
  obtain ⟨-, courses, uses⟩ := buffer_invisible (ω := Unit) (α := Nat) Nat.one_pos
  refine ⟨Nat.one_pos, ⟨_, full_relays, by simp, by simp, ?_, ?_, ?_⟩, ?_⟩
  · exact ReadAhead.Course.still_of_waiting rfl rfl rfl
  · obtain ⟨-, -, -, -, parked⟩ := courses _ full_relays.reaches
    rcases parked (by simp) (by simp) (ReadAhead.Course.still_of_waiting rfl rfl rfl) with
      ⟨-, pulling | ⟨-, full⟩⟩
    · cases pulling
    · exact full
  · exact (courses _ full_relays.reaches).2.2.1
  · obtain ⟨built, -, delivers⟩ := (uses ⟨.waiting, .ofList [7, 8]⟩).2 rfl
    exact ⟨built, delivers [7, 8] none (Machine.ofResults_delivers _)⟩

end Sequence
end PullStream
