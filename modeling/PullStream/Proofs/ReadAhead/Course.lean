import PullStream.Proofs.Feed.Counter
import PullStream.Proofs.ReadAhead

/-!
The course of a read-ahead pump.

A course is a pump at work, with its books, under every schedule. Nobody waits for anybody: at
the head of its loop the pump makes a waiter, looks whether its consumer is there, then at the
backlog, and at any point in between the consumer may ask or go. The source may say anything.

* `Course.Works`, `Course.Meets`, `Course.Step` — what may happen.
* `Course.Reaches.surveyed` — with nobody in between, the steps at the head of the loop are the
  pump's own function.
* `Course.Reaches.poised` — what the pump has seen, and what its waiter tells it.
* `reach_follows` — every use of a read-ahead stage follows a course.
-/

namespace PullStream.ReadAhead

open Feed (Alerted)

variable {ω α : Type}

/-! ### Steps -/

/-- Where a pump stands within a call. -/
inductive Stage where
  /-- Between two calls. -/
  | resting
  /-- At the head of the loop, with its waiter made. -/
  | registered (read : Feed.Waiter)
  /-- At the head of the loop, having seen that the consumer is there. -/
  | attended (read : Feed.Waiter)

/-- A pump at work, with its books. -/
structure Course (α : Type) where
  pump : ReadAhead α
  stage : Stage := .resting
  /-- What the source has handed out. -/
  told : List (Except Failure α) := []
  answers : List (Answer α) := []

namespace Course

/-- The same course with the pump at another place. -/
def moved (s : Course α) (phase : Phase) (stage : Stage) : Course α :=
  { s with pump := { s.pump with phase }, stage }

/-- What the pump does by itself. -/
inductive Works (s : Course α) : Course α → Prop where
  /-- At the head of the loop it makes a waiter first. -/
  | register : s.stage = .resting → s.pump.phase = .surveying →
      Works s (s.moved .surveying (.registered (s.pump.feed.waiter .read)))
  /-- It sees that nobody consumes. -/
  | leave {read} : s.stage = .registered read → s.pump.feed.abandoned = true →
      Works s (s.moved .stopped .resting)
  /-- It sees that the consumer is there. -/
  | stay {read} : s.stage = .registered read → s.pump.feed.abandoned = false →
      Works s (s.moved .surveying (.attended read))
  /-- There is no room, and it waits. -/
  | full {read} : s.stage = .attended read → s.pump.size ≤ s.pump.feed.pending →
      Works s (s.moved (.waiting read) .resting)
  /-- There is room, and it asks its source. -/
  | room {read} : s.stage = .attended read → s.pump.feed.pending < s.pump.size →
      Works s (s.moved .pulling .resting)
  /-- The waiter has been woken. -/
  | notice {read} : s.stage = .resting → s.pump.phase = .waiting read →
      read.resolved s.pump.feed = true →
      Works s { s with pump := s.pump.noticedRead }

/-- What the pump meets with when it has asked its source. -/
inductive Meets (s : Course α) : Course α → Prop where
  /-- The source has an item. -/
  | item {a} : s.stage = .resting → s.pump.phase = .pulling →
      Meets s { s with pump := s.pump.pulled a, told := s.told ++ [.ok a] }
  /-- The source fails. -/
  | fail {e} : s.stage = .resting → s.pump.phase = .pulling →
      Meets s { s with pump := s.pump.pulledFailure e, told := s.told ++ [.error e] }
  /-- The source ends. -/
  | finish : s.stage = .resting → s.pump.phase = .pulling →
      Meets s { s with pump := s.pump.pulledEnd }
  /-- The source breaks down, and the pump with it. -/
  | broke : s.stage = .resting → s.pump.phase = .pulling →
      Meets s (s.moved .stopped .resting)

/-- One thing that may happen. -/
inductive Step (s : Course α) : Course α → Prop where
  | works {s'} : Works s s' → Step s s'
  | meets {s'} : Meets s s' → Step s s'
  /-- The consumer takes the shared buffer of the feed. -/
  | refill : Step s { s with pump := { s.pump with feed := s.pump.feed.refill } }
  /-- The consumer asks for an item. -/
  | poll : s.pump.feed.abandoned = false →
      Step s { s with pump := s.pump.poll.2, answers := s.answers ++ [s.pump.poll.1] }
  /-- The consumer goes. -/
  | drop : s.pump.feed.abandoned = false → Step s { s with pump := s.pump.drop }

/-- What courses lead to, from a pump that has not been asked for anything. -/
inductive Reaches (size : Nat) : Course α → Prop where
  | start : Reaches size { pump := { size } }
  | step {s s' : Course α} : Reaches size s → Step s s' → Reaches size s'

variable {s s' : Course α} {size : Nat}

theorem Reaches.works (reached : Reaches size s) (works : Works s s') : Reaches size s' :=
  reached.step (.works works)

/-- The steps at the head of the loop are the survey. -/
theorem Reaches.surveyed (reached : Reaches size s) (resting : s.stage = .resting)
    (phase : s.pump.phase = .surveying) : Reaches size { s with pump := s.pump.survey } := by
  have registered := reached.works (.register resting phase)
  unfold survey
  cases present : s.pump.feed.abandoned with
  | true =>
    rw [if_pos rfl]
    have left := registered.works (.leave rfl present)
    simpa [moved, ← resting] using left
  | false =>
    rw [if_neg Bool.false_ne_true]
    have attended := registered.works (.stay rfl present)
    split
    · rename_i full
      have waiting := attended.works (.full rfl full)
      simpa [moved, ← resting] using waiting
    · rename_i room
      have pulling := attended.works (.room rfl (Nat.lt_of_not_le room))
      simpa [moved, ← resting] using pulling

/-! ### What the pump has seen -/

/-- Where a pump may stand, with a waiter for the feed when it needs one. -/
def Poised (p : ReadAhead α) : Stage → Prop
  | .resting => ∀ {read}, p.phase = .waiting read → Alerted read p.feed
  | .registered read => p.phase = .surveying ∧ read.Made p.feed
  | .attended read => p.phase = .surveying ∧ Alerted read p.feed

/-- A pump that does not wait for room may rest. -/
theorem poised_resting {p : ReadAhead α} (apart : ∀ {read}, p.phase ≠ .waiting read) :
    Poised p .resting :=
  fun waiting => absurd waiting apart

/-- A pump that has not been started, has stopped or has asked its source is between two
calls. -/
theorem Poised.resting {p : ReadAhead α} {stage : Stage} (poised : Poised p stage)
    (out : p.phase ≠ .surveying) : stage = .resting := by
  cases stage with
  | resting => rfl
  | registered => exact absurd poised.1 out
  | attended => exact absurd poised.1 out

/-- The consumer leaves the pump where it is. -/
theorem Poised.later {p p' : ReadAhead α} {stage : Stage} (poised : Poised p stage)
    (phase : p'.phase = p.phase) (reads : p.feed.reads ≤ p'.feed.reads)
    (gone : p'.feed.abandoned = true → p.feed.abandoned = true ∨ p.feed.reads < p'.feed.reads) :
    Poised p' stage := by
  cases stage with
  | resting => exact fun waiting => (poised (phase ▸ waiting)).mono reads gone
  | registered => exact ⟨phase.trans poised.1, poised.2.mono reads⟩
  | attended => exact ⟨phase.trans poised.1, poised.2.mono reads gone⟩

theorem Works.poised (works : Works s s') (poised : Poised s.pump s.stage) :
    Poised s'.pump s'.stage := by
  cases works with
  | register => exact ⟨rfl, Feed.waiter_made _⟩
  | leave => exact poised_resting (by simp [moved])
  | stay stage present =>
    rw [stage] at poised
    exact ⟨rfl, .of_present poised.2 present⟩
  | full stage =>
    rw [stage] at poised
    intro read' waiting
    cases waiting
    exact poised.2
  | room => exact poised_resting (by simp [moved])
  | notice resting =>
    rw [resting]
    exact poised_resting (by simp [noticedRead])

/-- The source has answered, and the pump goes on or stops. -/
theorem pulled_phase (p : ReadAhead α) (a : α) :
    (p.pulled a).phase = .surveying ∨ (p.pulled a).phase = .stopped := by
  unfold pulled
  split
  · exact .inl rfl
  · exact .inr rfl

theorem pulledFailure_phase (p : ReadAhead α) (e : Failure) :
    (p.pulledFailure e).phase = .stopped := by
  unfold pulledFailure
  split <;> rfl

theorem Meets.poised (meets : Meets s s') : Poised s'.pump s'.stage := by
  cases meets with
  | @item a resting =>
    rw [resting]
    refine poised_resting fun {read} => ?_
    rcases pulled_phase s.pump a with goesOn | stopped
    · simp [goesOn]
    · simp [stopped]
  | @fail e resting =>
    rw [resting]
    exact poised_resting (by simp [pulledFailure_phase])
  | finish resting =>
    rw [resting]
    exact poised_resting (by simp [pulledEnd])
  | broke => exact poised_resting (by simp [moved])

theorem Step.poised (step : Step s s') (poised : Poised s.pump s.stage) :
    Poised s'.pump s'.stage := by
  cases step with
  | works works => exact works.poised poised
  | meets meets => exact meets.poised
  | refill =>
    have took := Feed.refill_consumed s.pump.feed
    exact poised.later rfl took.reads took.gone
  | poll =>
    unfold ReadAhead.poll
    split
    · rename_i idle
      rw [poised.resting (by simp [idle])]
      exact poised_resting (by simp)
    · exact poised.later rfl s.pump.feed.reads_le_poll
        fun gone => .inl (s.pump.feed.poll_untouched.abandoned.symm.trans gone)
  | drop =>
    by_cases idle : s.pump.phase = .idle
    · rw [poised.resting (by simp [idle])]
      exact poised_resting (by simp [ReadAhead.drop, idle])
    · have took := Feed.drop_consumed s.pump.feed
      exact poised.later (by simp [ReadAhead.drop, idle]) took.reads took.gone

theorem Reaches.poised (reached : Reaches size s) : Poised s.pump s.stage := by
  induction reached with
  | start => exact poised_resting (by simp)
  | step _ step ih => exact step.poised ih

end Course

/-! ### A stage follows a course -/

variable {source : Machine ω α} {size : Nat}

/-- The pump of a stage whose consumer has been given `answers`, and has gone if `gone`, is that
of a course. -/
structure Follows (size : Nat) (answers : List (Answer α)) (gone : Bool) (p : ReadAhead α) :
    Prop where
  course : ∃ told, Course.Reaches size { pump := p, told, answers }
  abandoned : p.feed.abandoned = gone

namespace Follows

variable {answers : List (Answer α)} {gone : Bool} {s : source.State × ReadAhead α}

theorem advance (v : Follows size answers gone s.2) (now : Time) (w : ω) :
    Follows size answers gone (ReadAhead.advance source s now w).2.1.2 := by
  by_cases idle : s.2.phase = .idle
  · have still : (ReadAhead.advance source s now w).2.1 = s := by
      simp [ReadAhead.advance, idle]
    rwa [still]
  obtain ⟨told, reached⟩ := v.course
  refine ⟨?_, (advance_goes source idle now w).feed.abandoned.trans v.abandoned⟩
  have step := advance_cases source s now w
  generalize (ReadAhead.advance source s now w).2.1 = s' at step
  cases step with
  | still => exact ⟨told, reached⟩
  | surveyed phase => exact ⟨told, reached.surveyed rfl phase⟩
  | noticed phase woken => exact ⟨told, reached.works (.notice rfl phase woken)⟩
  | pulled phase => exact ⟨_, reached.step (.meets (.item rfl phase))⟩
  | failed phase => exact ⟨_, reached.step (.meets (.fail rfl phase))⟩
  | ended phase => exact ⟨told, reached.step (.meets (.finish rfl phase))⟩
  | broke phase => exact ⟨told, reached.step (.meets (.broke rfl phase))⟩
  | asked => exact ⟨told, reached⟩

theorem poll {p : ReadAhead α} (v : Follows size answers false p) :
    Follows size (answers ++ [p.poll.1]) false p.poll.2 := by
  obtain ⟨told, reached⟩ := v.course
  refine ⟨⟨told, reached.step (.poll v.abandoned)⟩, ?_⟩
  unfold ReadAhead.poll
  split
  · exact v.abandoned
  · exact p.feed.poll_untouched.abandoned.trans v.abandoned

theorem drop {p : ReadAhead α} (v : Follows size answers false p) :
    Follows size answers true p.drop := by
  obtain ⟨told, reached⟩ := v.course
  exact ⟨⟨told, reached.step (.drop v.abandoned)⟩, rfl⟩

end Follows

/-- Every use of a read-ahead stage follows a course. -/
theorem reach_follows {t : (source.readAhead size).State} {answers : List (Answer α)}
    (reached : (source.readAhead size).Reach t answers) :
    Follows size answers false t.1.2 := by
  induction reached with
  | start => exact ⟨⟨[], .start⟩, rfl⟩
  | poll _ now w ih => exact ih.poll
  | @tick t answers _ now w ih =>
    exact Turn.step_preserves (fun s : source.State × ReadAhead α => Follows size answers false s.2)
      (fun s w v => v) (fun s w v => v.advance now w) t.2 t.1 w ih

end PullStream.ReadAhead
