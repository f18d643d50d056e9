import PullStream.Proofs.Feed.Backlog
import PullStream.Proofs.Machine.Reach
import PullStream.ReadAhead

/-!
How a read-ahead pump moves, and that its output ends for good.

A step of the pump is one of a few calls, by what its source answers (`Advanced`). Each
only produces into the feed, and none goes back to where the pump has not started.
-/

namespace PullStream.ReadAhead

variable {ω α : Type} {source : Machine ω α}

/-- A step of the pump, by what happens. -/
inductive Advanced (source : Machine ω α) (s : source.State × ReadAhead α) (now : Time) (w : ω) :
    source.State × ReadAhead α → Prop where
  | still : Advanced source s now w s
  | surveyed : s.2.phase = .surveying →
      Advanced source s now w (settle source s.1 s.2 s.2.survey)
  | noticed {read} : s.2.phase = .waiting read → read.resolved s.2.feed = true →
      Advanced source s now w (settle source s.1 s.2 s.2.noticedRead)
  | pulled {a r w'} : s.2.phase = .pulling → source.poll s.1 now w = (.item a, r, w') →
      Advanced source s now w (settle source r s.2 (s.2.pulled a))
  | failed {e r w'} : s.2.phase = .pulling → source.poll s.1 now w = (.fail e, r, w') →
      Advanced source s now w (settle source r s.2 (s.2.pulledFailure e))
  | ended {r w'} : s.2.phase = .pulling → source.poll s.1 now w = (.done, r, w') →
      Advanced source s now w (settle source r s.2 s.2.pulledEnd)
  | broke {message r w'} : s.2.phase = .pulling →
      source.poll s.1 now w = (.crash message, r, w') →
      Advanced source s now w (settle source r s.2 { s.2 with phase := .stopped })
  | asked {g r w'} : s.2.phase = .pulling → source.poll s.1 now w = (.signal g, r, w') →
      (∀ e, g ≠ .fail e) → g ≠ .done → Advanced source s now w (r, s.2)

theorem advance_cases (source : Machine ω α) (s : source.State × ReadAhead α) (now : Time)
    (w : ω) : Advanced source s now w (advance source s now w).2.1 := by
  obtain ⟨below, p⟩ := s
  unfold advance
  dsimp only
  cases phase : p.phase with
  | idle => exact .still
  | stopped => exact .still
  | surveying => exact .surveyed phase
  | waiting read =>
    dsimp only
    split
    · rename_i resolved
      exact .noticed phase resolved
    · exact .still
  | pulling =>
    rcases asked : source.poll below now w with ⟨a | g, r, w'⟩
    · exact .pulled phase asked
    · cases g with
      | fail e => exact .failed phase asked
      | done => exact .ended phase asked
      | skip => exact .asked phase asked (by simp) (by simp)
      | pause => exact .asked phase asked (by simp) (by simp)
      | wait => exact .asked phase asked (by simp) (by simp)
      | crash message => exact .broke phase asked

/-- What the pump leaves alone when it has started. -/
structure Goes (p p' : ReadAhead α) : Prop where
  started : p'.phase ≠ .idle
  feed : Feed.Produced p.feed p'.feed

theorem survey_goes (p : ReadAhead α) : Goes p p.survey := by
  unfold survey
  split
  · exact ⟨by simp, .refl _⟩
  · split <;> exact ⟨by simp, .refl _⟩

theorem pulled_goes (p : ReadAhead α) (a : α) : Goes p (p.pulled a) := by
  unfold pulled
  split
  · rename_i h
    exact ⟨by simp, (Feed.feed_ok h).2.2.2⟩
  · exact ⟨by simp, .refl _⟩

theorem pulledFailure_goes (p : ReadAhead α) (e : Failure) : Goes p (p.pulledFailure e) := by
  unfold pulledFailure
  split
  · rename_i h
    exact ⟨by simp, (Feed.throw_ok h).2.2.2⟩
  · exact ⟨by simp, .refl _⟩

theorem pulledEnd_goes (p : ReadAhead α) : Goes p p.pulledEnd :=
  ⟨by simp [pulledEnd], Feed.close_produced _⟩

theorem noticedRead_goes (p : ReadAhead α) : Goes p p.noticedRead :=
  ⟨by simp [noticedRead], .refl _⟩

theorem advance_goes (source : Machine ω α) {s : source.State × ReadAhead α}
    (started : s.2.phase ≠ .idle) (now : Time) (w : ω) :
    Goes s.2 (advance source s now w).2.1.2 := by
  have step := advance_cases source s now w
  generalize (advance source s now w).2.1 = s' at step
  cases step with
  | still => exact ⟨started, .refl _⟩
  | surveyed => exact survey_goes _
  | noticed => exact noticedRead_goes _
  | pulled => exact pulled_goes _ _
  | failed => exact pulledFailure_goes _ _
  | ended => exact pulledEnd_goes _
  | broke => exact ⟨by simp [settle], .refl _⟩
  | asked => exact ⟨started, .refl _⟩

end PullStream.ReadAhead

namespace PullStream

/-- The output of a read-ahead stage has ended when its consumer has. -/
theorem Machine.readAhead_permanent {ω α : Type} (source : Machine ω α) (size : Nat) :
    (source.readAhead size).Permanent := by
  let isOver (s : source.State × ReadAhead α) : Prop :=
    s.2.phase ≠ .idle ∧ s.2.feed.finished = true
  refine @permanent_of_over _ _ (source.readAhead size) (fun s => isOver s.1)
    (fun s now w done => ?_) (fun s now w h => ?_) fun s now w h => ?_
  · obtain ⟨⟨r, p⟩, turn⟩ := s
    by_cases fresh : p.phase = .idle
    · simp [readAhead, ReadAhead.poll, fresh] at done
    · simp only [readAhead, ReadAhead.poll, fresh, if_false] at done ⊢
      exact ⟨fresh, Feed.finished_of_poll_done done⟩
  · obtain ⟨⟨r, p⟩, turn⟩ := s
    simp only [readAhead, ReadAhead.poll, h.1, if_false, Feed.poll_of_finished h.2]
  · refine Turn.step_preserves isOver (fun s w h => h) (fun s w h => ?_) s.2 s.1 w h
    have goes := ReadAhead.advance_goes source h.1 now w
    exact ⟨goes.started, goes.feed.finished.trans h.2⟩

end PullStream
