import PullStream.Clockwork
import PullStream.Proofs.Sequence.Batches

/-!
Room for batches.

A batch may have any length but zero, and room for all its elements is reserved beforehand. A
reservation spans a limited number of bytes, and there are lengths beyond it for elements of
every width but zero; the check of the length lets them pass.

* `le_roomFor_iff`, `exists_beyond_room_iff` — which lengths there is room for.
* `Usable`, `Roomless` — batches that there is room for, and batches that there is none for.
* `usable_of_fits`, `roomless_of_beyond` — each length is one or the other.
-/

namespace PullStream

variable {ω α : Type} {size width : Nat}

open Transducer (batch roomFor noRoom)

/-! ### Lengths -/

/-- There is room for as many elements as have no more bytes together than the largest offset. -/
theorem le_roomFor_iff (sized : 0 < width) :
    size ≤ roomFor width ↔ size * width ≤ twoTo 63 - 1 := by
  rw [roomFor, if_neg (Nat.pos_iff_ne_zero.mp sized)]
  exact Nat.le_div_iff_mul_le sized

/-- Some lengths are beyond all room unless the elements need none. -/
theorem exists_beyond_room_iff :
    (∃ size < wordLimit, roomFor width < size) ↔ 0 < width := by
  constructor
  · rintro ⟨size, word, beyond⟩
    rw [Nat.pos_iff_ne_zero]
    rintro rfl
    rw [roomFor, if_pos rfl] at beyond
    omega
  · intro sized
    have less : twoTo 63 - 1 < wordLimit - 1 := by decide
    have room : roomFor width ≤ twoTo 63 - 1 := by
      rw [roomFor, if_neg (Nat.pos_iff_ne_zero.mp sized)]
      exact Nat.div_le_self _ _
    exact ⟨wordLimit - 1, by decide, Nat.lt_of_le_of_lt room less⟩

/-! ### With room and without -/

/-- Batches that can be used: both modes build them, and nothing breaks down but the source. -/
structure Usable (source : Machine ω α) (size width : Nat) : Prop where
  built : ∀ mode, Sequence.putBatch ⟨mode, source⟩ size width =
    .built ⟨mode, (source.via (batch size width)).guarded⟩
  sound : ∀ t answers, (source.via (batch size width)).guarded.Reach t answers →
    ∃ asked, source.Reach t.1.1 asked ∧
      ∀ message, .crash message ∈ answers → .crash message ∈ asked

/-- Batches that cannot: a stage that may wait breaks down while it is made, the other one in its
every poll. The source is never asked. -/
structure Roomless (source : Machine ω α) (size width : Nat) : Prop where
  crashed : Sequence.putBatch ⟨.waiting, source⟩ size width = .crashed noRoom
  built : Sequence.putBatch ⟨.immediate, source⟩ size width =
    .built ⟨.immediate, (source.via (batch size width)).guarded⟩
  unasked : ∀ t answers, (source.via (batch size width)).guarded.Reach t answers →
    source.Reach t.1.1 [] ∧ ∀ answer ∈ answers, answer = .crash noRoom
  polled : ∀ t answers, (source.via (batch size width)).guarded.Reach t answers → ∀ now w,
    (source.via (batch size width)).guarded.poll t now w = (.crash noRoom, t, w)
  /-- Whoever pulls goes down with it, before anything else has happened. -/
  ran : ∀ {ρ : Type} (c : Consumer ω (List α) ρ), c.want c.start = .pull → ∀ output now w,
    let setting : Setting ω (List α) (source.via (batch size width)).guarded.hub :=
      .initially _ now w
    setting.consume c output = (.crashed noRoom, setting)

/-- A length that passes the check is put on unless there is no room for it. -/
theorem putBatch_of_positive (positive : 0 < size) (mode : Mode) (source : Machine ω α) :
    Sequence.putBatch ⟨mode, source⟩ size width =
      if mode = .waiting ∧ roomFor width < size then .crashed noRoom
      else .built ⟨mode, (source.via (batch size width)).guarded⟩ := by
  have accepted : Sequence.batch ⟨mode, source⟩ size width =
      .ok ⟨mode, (source.via (batch size width)).guarded⟩ :=
    if_neg (Nat.pos_iff_ne_zero.mp positive)
  rw [Sequence.putBatch, accepted]

theorem usable_of_fits (positive : 0 < size) (fits : size ≤ roomFor width)
    (source : Machine ω α) : Usable source size width where
  built mode := by
    rw [putBatch_of_positive positive, if_neg]
    exact fun beyond => absurd fits (Nat.not_le_of_lt beyond.2)
  sound t answers reached := by
    obtain ⟨asked, below, kept⟩ := guarded_batched positive fits reached
    exact ⟨asked, below, kept.sound⟩

/-! ### Without room -/

/-- Batches that have not been begun, on a source in some state. -/
def unbegun (source : Machine ω α) (size width : Nat) (s : source.State) :
    (source.via (batch size width)).guarded.State :=
  ((s, (batch (ω := ω) (α := α) size width).start), false)

section Beyond

variable (beyond : roomFor width < size)
include beyond

/-- A stage that is about to begin a batch breaks down, and is where it was. -/
theorem poll_beyond (source : Machine ω α) (s : source.State) (now : Time) (w : ω) :
    (source.via (batch size width)).guarded.poll (unbegun source size width s) now w =
      (.crash noRoom, unbegun source size width s, w) := by
  let begin' := (batch (ω := ω) (α := α) size width).start
  have answer : (batch size width).before begin' now w = some (.crash noRoom, begin', w) :=
    if_neg (Nat.not_le_of_lt beyond)
  have same : (source.via (batch size width)).poll (s, begin') now w =
      (.crash noRoom, (s, begin'), w) := by
    simp only [Machine.via, answer]
    rfl
  have going := Machine.guarded_poll_going (m := source.via (batch size width)) (s, begin') now w
  rwa [same] at going

/-- It stays there, and all its answers are of that kind. -/
theorem reach_beyond {source : Machine ω α} {t : (source.via (batch size width)).guarded.State}
    {answers : List (Answer (List α))}
    (reached : (source.via (batch size width)).guarded.Reach t answers) :
    ∃ s, t = unbegun source size width s ∧ source.Reach s [] ∧
      ∀ answer ∈ answers, answer = .crash noRoom := by
  induction reached with
  | start => exact ⟨source.start, rfl, .start, by simp⟩
  | poll _ now w ih =>
    obtain ⟨s, rfl, below, all⟩ := ih
    rw [poll_beyond beyond]
    refine ⟨s, rfl, below, fun answer member => ?_⟩
    rcases List.mem_append.mp member with old | new
    · exact all answer old
    · exact List.mem_singleton.mp new
  | tick _ now w ih =>
    obtain ⟨s, rfl, below, all⟩ := ih
    exact ⟨_, rfl, below.tick now w, all⟩

theorem roomless_of_beyond (source : Machine ω α) : Roomless source size width where
  crashed := by
    rw [putBatch_of_positive (Nat.zero_lt_of_lt beyond), if_pos ⟨rfl, beyond⟩]
  built := by
    rw [putBatch_of_positive (Nat.zero_lt_of_lt beyond), if_neg]
    exact fun waits => by cases waits.1
  unasked t answers reached := by
    obtain ⟨s, rfl, below, all⟩ := reach_beyond beyond reached
    exact ⟨below, all⟩
  polled t answers reached now w := by
    obtain ⟨s, rfl, -, -⟩ := reach_beyond beyond reached
    exact poll_beyond beyond source s now w
  ran c wants output now w := by
    intro setting
    have turn : ({ output, memory := c.start } : Setting.Reader c).turn setting =
        .crashed noRoom setting := by
      have polled := poll_beyond beyond source source.start now w
      have same : (source.via (batch size width)).guarded.hub.poll output setting.state
          setting.now setting.world = (.crash noRoom, setting.state, setting.world) := polled
      simp only [Setting.Reader.turn, wants, same]
    obtain ⟨fuel, patient⟩ : ∃ fuel, Setting.patience = fuel + 1 :=
      Nat.exists_eq_add_one.mpr (by decide)
    rw [Setting.consume, patient, Setting.run, patient]
    simp only [Setting.goAll, Setting.Reader.go, turn]

end Beyond

namespace Sequence

/-- The check of the length refuses zero only. Every other length can be used in both modes if
there is room for it, which depends on the width of the elements; else the batches break down, in
one mode while they are made and in the other whenever they are pulled. Elements of every width
but zero have such lengths. -/
theorem batch_room (source : Machine ω α) (size width : Nat) :
    (∀ mode, putBatch ⟨mode, source⟩ 0 width = .refused .zeroBatch) ∧
      (0 < size → size ≤ Transducer.roomFor width → Usable source size width) ∧
      (Transducer.roomFor width < size → Roomless source size width) ∧
      (0 < width → (size ≤ Transducer.roomFor width ↔ size * width ≤ twoTo 63 - 1)) ∧
      ((∃ size < wordLimit, Transducer.roomFor width < size) ↔ 0 < width) :=
  ⟨fun _ => rfl, fun positive fits => usable_of_fits positive fits source,
    fun beyond => roomless_of_beyond beyond source, le_roomFor_iff, exists_beyond_room_iff⟩

/-- There is no room for the longest batches of elements of 24 bytes. -/
theorem batch_room_longest :
    Transducer.roomFor 24 < wordLimit - 1 ∧
      Roomless (Machine.ofList (ω := Unit) [1, 2]) (wordLimit - 1) 24 := by
  have beyond : Transducer.roomFor 24 < wordLimit - 1 := by decide
  obtain ⟨-, -, roomless, -⟩ := batch_room (ω := Unit) (.ofList [1, 2]) (wordLimit - 1) 24
  exact ⟨beyond, roomless beyond⟩

/-- Not every length that passes the check can be used. -/
theorem batch_not_usable :
    ¬ ∀ size, 0 < size → size < wordLimit →
      Usable (Machine.ofList (ω := Unit) [1, 2]) size 24 := by
  intro all
  have usable := all (wordLimit - 1) (by decide) (by decide)
  have beyond : Transducer.roomFor 24 < wordLimit - 1 := by decide
  have crashed := (roomless_of_beyond beyond (.ofList (ω := Unit) [1, 2])).crashed
  rw [usable.built] at crashed
  cases crashed

end Sequence
end PullStream
