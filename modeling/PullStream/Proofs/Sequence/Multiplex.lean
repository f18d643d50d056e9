import PullStream.Proofs.Fanout.Clocked
import PullStream.Proofs.Machine.Delivery
import PullStream.Proofs.Parallel.Reference
import PullStream.Sequence

/-!
What the outputs of a fan-out guarantee.

Each output delivers the whole source, whatever the others do, and the slowest of those that
are there paces the pump. That is said of courses, so of a pump and its outputs under every
schedule, and of every use of the outputs of a hub, which follows a course.

* `served_whole`, `served_failed`, `served_ended` — one output beside what the source says.
-/

namespace PullStream.Sequence

open Fanout (Course)
open Fanout.Course (Works Served Kept)

variable {ω α : Type} {xs : List α} {fault : Option Failure}

/-! ### Outputs -/

section Output

variable {s : Course α} {k : Nat} {f : Feed α}

/-- What an output has delivered, with what it holds, is what the source has handed out. -/
theorem served_whole (v : Served s k f) (present : f.abandoned = false)
    (resting : s.stage = .resting) : outputs (s.answers k) ++ f.backlog = s.told := by
  obtain ⟨accepted, sound, all⟩ := v.books
  obtain ⟨waiting, same, queue⟩ := sound.conserved
  rw [queue present, ← same, all present, Course.given_of_resting resting]

/-- A failure is delivered behind all items, and nothing after it. -/
theorem served_failed (v : Served s k f) {before after : List (Answer α)} {e : Failure}
    (failed : s.answers k = before ++ .fail e :: after) :
    outputs before ++ [.error e] = s.told ∧ outputs after = [] := by
  obtain ⟨accepted, sound, -⟩ := v.books
  obtain ⟨-, none⟩ := sound.failure_last failed
  have all := v.complete (.inr ⟨e, by simp [failed]⟩)
  rw [failed, ← List.singleton_append, outputs_append, outputs_append, outputs_fail, none,
    List.append_nil] at all
  exact ⟨all, none⟩

/-- The end is reported when the source is over. -/
theorem served_ended (v : Served s k f) (done : .done ∈ s.answers k) :
    outputs (s.answers k) = s.told ∧ (s.ended = true ∨ ∃ e, .error e ∈ s.told) := by
  obtain ⟨accepted, sound, -⟩ := v.books
  exact ⟨v.complete (.inl done), v.closed (sound.ended done).2.1⟩

end Output

/-! ### The contract -/

/-- Each output of a fan-out delivers what the source hands out, entry by entry, and reports its
end or its failure behind all of it, whatever the others do. There is one pump, started when an
output is asked for the first time. With a `buffer` no output holds more than that many items,
so the source is never further ahead of one that is there; and a pump that can do nothing by
itself has asked its source, or an output that is there is full. In use, a pump without a step to
take is such a pump, and the source that it has asked waits. -/
theorem multiplex_whole {count : Nat} (positive : 0 < count) (buffer : Nat) :
    (∀ s : Course α, s.Reaches count buffer →
      s.starts ≤ 1 ∧ (s.starts = 0 ↔ ∀ k, s.answers k = []) ∧ (s.starts = 0 → s.told = []) ∧
      -- what the source hands out ends at a failure
      (∀ e, .error e ∉ s.told.dropLast) ∧
      (∀ (k : Nat) (f : Feed α), s.fanout.feeds[k]? = some f →
        outputs (s.answers k) <+: s.told ∧
        -- nothing is lost on the way to an output that is there
        (f.abandoned = false → s.stage = .resting →
          outputs (s.answers k) ++ f.backlog = s.told) ∧
        (.done ∈ s.answers k → outputs (s.answers k) = s.told ∧
          (s.ended = true ∨ ∃ e, .error e ∈ s.told)) ∧
        (∀ before e after, s.answers k = before ++ .fail e :: after →
          outputs before ++ [.error e] = s.told ∧ outputs after = []) ∧
        (0 < buffer → (itemsOf f.backlog).length ≤ f.pending ∧ f.pending ≤ buffer ∧
          (f.abandoned = false → (itemsOf s.told).length ≤
            buffer + (itemsOf (outputs (s.answers k))).length))) ∧
      (s.starts ≠ 0 → s.fanout.phase ≠ .stopped → (∀ s', ¬ Works s s') →
        s.stage = .resting ∧ s.fanout.phase = .pulling ∨
          0 < buffer ∧ ∃ (k : Nat) (f : Feed α), s.fanout.feeds[k]? = some f ∧
            f.abandoned = false ∧ buffer ≤ (itemsOf f.backlog).length)) ∧
    ∀ s : Sequence ω α,
      let hub := s.machine.fanout count buffer
      s.multiplex count buffer = .ok hub ∧
      ∀ t answers gone, hub.Reach t answers gone →
        (∃ c : Course α, c.Reaches count buffer ∧ c.fanout = t.1.2 ∧ c.answers = answers ∧
          c.stage = .resting ∧
          (∀ (k : Nat) f, t.1.2.feeds[k]? = some f → f.abandoned = gone k) ∧
          -- a pump without a step to take can do nothing by itself in the course
          (∀ now w, (Fanout.advance s.machine t.1 now w).1 = .blocked →
            (∀ c', ¬ Works c c') ∧
            (c.fanout.phase = .pulling → (s.machine.poll t.1.1 now w).1 = .wait)) ∧
          ∀ xs fault, s.machine.Delivers (sourceOf xs fault) →
            c.told <+: sourceOf xs fault ∧ (c.ended = true → c.told = sourceOf xs fault)) ∧
        ∀ xs fault, s.machine.Delivers (sourceOf xs fault) → ∀ k < count,
          outputs (answers k) <+: sourceOf xs fault ∧
          (.done ∈ answers k → outputs (answers k) = sourceOf xs fault) := by
  constructor
  · intro s reached
    have kept := reached.kept
    have served := reached.serves
    obtain ⟨buffers, -⟩ := reached.constant
    obtain ⟨once, unasked, untold⟩ := reached.begun.once
    refine ⟨once, unasked, untold, kept.last, ?_, ?_⟩
    · intro k f there
      have v := served k f there
      refine ⟨v.delivered, served_whole v, served_ended v, fun _ _ _ => served_failed v, ?_⟩
      intro limited
      have roomy := reached.roomy limited k f there
      exact ⟨v.counted.least, buffers ▸ roomy.within,
        fun present => buffers ▸ roomy.ahead v present⟩
    · intro started going still
      have notIdle : s.fanout.phase ≠ .idle := by
        intro idle
        cases reached.begun with
        | fresh zero => exact started zero
        | started _ _ notIdle => exact notIdle idle
      rcases reached.parked notIdle going still with
        pulling | ⟨limited, k, f, there, present, full⟩
      · exact .inl pulling
      · refine .inr ⟨buffers ▸ limited, k, f, there, present, ?_⟩
        rw [← (served k f there).counted.exact present, ← buffers]
        exact full
  · intro s hub
    refine ⟨if_neg (Nat.pos_iff_ne_zero.mp positive), ?_⟩
    intro t answers gone reached
    obtain ⟨⟨c, tracks⟩, same⟩ := Fanout.reach_follows reached
    have blocked := tracks.blocked
    obtain ⟨course, fanout, rfl, resting, replies, r, asked, told, complete, -⟩ := tracks
    have source : ∀ xs fault, s.machine.Delivers (sourceOf xs fault) →
        c.told <+: sourceOf xs fault ∧ (c.ended = true → c.told = sourceOf xs fault) := by
      intro xs fault delivers
      obtain ⟨first, all⟩ := delivers asked
      rw [told] at first all
      exact ⟨first, fun ended => all (complete ended)⟩
    rw [← fanout] at blocked
    refine ⟨⟨c, course, fanout, rfl, resting, same, blocked, source⟩, ?_⟩
    intro xs fault delivers k exists'
    obtain ⟨first, all⟩ := source xs fault delivers
    have bound : k < c.fanout.feeds.length := course.constant.2 ▸ exists'
    have v := course.serves k _ (List.getElem?_eq_getElem bound)
    refine ⟨v.delivered.trans first, fun done => ?_⟩
    obtain ⟨whole, ended | ⟨e, failed⟩⟩ := served_ended v done
    · exact whole.trans (all ended)
    · exact whole.trans (told_of_failed first failed)

/-- Two outputs with room for one item each, of which the first has read the only item: the
pump waits for the second. -/
theorem paced_reaches :
    Course.Reaches 2 1
      ({ fanout :=
          { buffer := 1, phase := .waiting 1 ⟨.read, 0⟩
            feeds := [{ reads := 1, empties := 1 }, { shared := [.item 7], pending := 1 }] }
         starts := 1, past := [.ok 7]
         answers := Function.update (Function.update (fun _ => []) 0 [.skip]) 0
          [.skip, .item 7] } : Course Nat) := by
  have fresh : Course.Reaches 2 1 ({ fanout := .create 2 1 } : Course Nat) := .start
  have asking : Course.Reaches 2 1
      ({ fanout := { buffer := 1, phase := .pulling, feeds := [{}, {}] }
         starts := 1, answers := Function.update (fun _ => []) 0 [.skip] } : Course Nat) :=
    (((fresh.step (@Course.Step.poll _ _ 0 _ rfl rfl)).checked rfl rfl).checked rfl rfl).checked
      rfl rfl
  have handed : Course.Reaches 2 1
      ({ fanout :=
          { buffer := 1, phase := .checking 0
            feeds :=
              [{ shared := [.item 7], pending := 1 }, { shared := [.item 7], pending := 1 }] }
         starts := 1, past := [.ok 7]
         answers := Function.update (fun _ => []) 0 [.skip] } : Course Nat) :=
    asking.answered rfl rfl (some (.ok 7))
  have read : Course.Reaches 2 1
      ({ fanout :=
          { buffer := 1, phase := .checking 0
            feeds := [{ reads := 1, empties := 1 }, { shared := [.item 7], pending := 1 }] }
         starts := 1, past := [.ok 7]
         answers := Function.update (Function.update (fun _ => []) 0 [.skip]) 0
          [.skip, .item 7] } : Course Nat) :=
    handed.step (@Course.Step.poll _ _ 0 _ rfl rfl)
  exact (read.checked rfl rfl).checked rfl rfl

/-- There the source is one item ahead of the second output, and no further. -/
theorem multiplex_whole_paced :
    0 < 2 ∧
    (∃ s : Course Nat, s.Reaches 2 1 ∧ s.told = [.ok 7] ∧ outputs (s.answers 0) = s.told ∧
      s.starts ≤ 1 ∧ (itemsOf s.told).length ≤ 1 + (itemsOf (outputs (s.answers 1))).length ∧
      ∃ (k : Nat) (f : Feed Nat), s.fanout.feeds[k]? = some f ∧ f.abandoned = false ∧
        1 ≤ (itemsOf f.backlog).length) ∧
    ∃ t answers,
      ((ofList (ω := Unit) [7]).machine.fanout 2 1).Reach t answers (fun _ => false) ∧
      answers 0 = [.skip] ∧ outputs (answers 0) <+: sourceOf [7] none := by
  have whole := multiplex_whole (ω := Unit) (α := Nat) (show 0 < 2 by decide) 1
  refine ⟨by decide, ?_, ?_⟩
  · obtain ⟨once, -, -, -, each, parked⟩ := whole.1 _ paced_reaches
    have second := (each 1 _ rfl).2.2.2.2 Nat.one_pos
    refine ⟨_, paced_reaches, rfl, rfl, once, second.2.2 rfl, ?_⟩
    rcases parked (by decide) (by simp) (Course.still_of_waiting rfl rfl rfl rfl) with
      ⟨-, pulling⟩ | ⟨-, full⟩
    · cases pulling
    · exact full
  · have fresh : ((ofList (ω := Unit) [7]).machine.fanout 2 1).Reach _ _ _ := .start
    have asked := fresh.poll Nat.two_pos rfl 0 ()
    refine ⟨_, _, asked, rfl, ?_⟩
    exact (((whole.2 (ofList [7])).2 _ _ _ asked).2 [7] none (Machine.ofResults_delivers _) 0
      Nat.two_pos).1

end PullStream.Sequence
