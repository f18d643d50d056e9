import PullStream.Proofs.Machine.Delivery
import PullStream.Proofs.ReadAhead.Pace

/-!
A read-ahead stage over a machine follows a course, and its machine what the source says there.

* `Tracks`, `reach_tracks`, `guarded_tracks` — what the source has said in the course its machine
  has answered.
* `Tracks.blocked` — a pump without a step to take is parked in the course.
* `readAhead_delivers` — reading ahead delivers what the machine delivers.
-/

namespace PullStream.ReadAhead

variable {ω α : Type} {source : Machine ω α} {size : Nat} {answers : List (Answer α)}
  {s : source.State × ReadAhead α}

/-- The pump `s` over `source` whose consumer has been given `answers` is that of the course `c`.
What the source has said there its machine has answered; it is not asked any more when the pump
has stopped, and only its end or its failure closes the feed. -/
structure Tracks (source : Machine ω α) (size : Nat) (answers : List (Answer α))
    (s : source.State × ReadAhead α) (c : Course α) (asked : List (Answer α)) : Prop where
  reached : c.Reaches size
  pump : c.pump = s.2
  answers : c.answers = answers
  resting : c.stage = .resting
  source : ∃ r, source.Reach r asked ∧ (s.2.phase ≠ .stopped → s.1 = r)
  told : outputs asked = c.told
  closed : s.2.feed.closed = true → .done ∈ asked ∨ ∃ e, .fail e ∈ asked

namespace Tracks

variable {c c' : Course α} {asked : List (Answer α)}

/-- The pump goes on as in the course, and its source is left alone. -/
theorem works (t : Tracks source size answers s c asked) (reached : c'.Reaches size)
    (answers' : c'.answers = c.answers) (stage : c'.stage = .resting) (told : c'.told = c.told)
    (running : s.2.phase ≠ .stopped) {p : ReadAhead α} (pump : c'.pump = p)
    (feed : p.feed = s.2.feed) : Tracks source size answers (settle source s.1 s.2 p) c' asked := by
  obtain ⟨r, used, there⟩ := t.source
  refine ⟨reached, pump, answers'.trans t.answers, stage, ⟨r, used, fun going => ?_⟩,
    t.told.trans told.symm, fun closed => t.closed (feed ▸ closed)⟩
  have going : p.phase ≠ .stopped := going
  simpa [settle, going] using there running

/-- The source has been asked. -/
theorem replied (t : Tracks source size answers s c asked) (phase : s.2.phase = .pulling)
    {now : Time} {w w' : ω} {a : Answer α} {r : source.State}
    (polled : source.poll s.1 now w = (a, r, w')) (reached : c'.Reaches size)
    (answers' : c'.answers = c.answers) (stage : c'.stage = .resting)
    (told : c'.told = c.told ++ a.output?.toList) {s' : source.State × ReadAhead α}
    (pump : c'.pump = s'.2) (state : s'.2.phase ≠ .stopped → s'.1 = r)
    (closed : s'.2.feed.closed = true → s.2.feed.closed = true ∨ a = .done ∨ ∃ e, a = .fail e) :
    Tracks source size answers s' c' (asked ++ [a]) := by
  obtain ⟨r', used, there⟩ := t.source
  have here : s.1 = r' := there (by simp [phase])
  have next := (here ▸ used).poll now w
  rw [polled] at next
  refine ⟨reached, pump, answers'.trans t.answers, stage, ⟨_, next, state⟩, ?_, fun isClosed => ?_⟩
  · rw [outputs_append, outputs_singleton, t.told, told]
  · rcases closed isClosed with before | rfl | ⟨e, rfl⟩
    · rcases t.closed before with done | ⟨e, failed⟩
      · exact .inl (List.mem_append_left _ done)
      · exact .inr ⟨e, List.mem_append_left _ failed⟩
    · exact .inl (by simp)
    · exact .inr ⟨e, by simp⟩

/-- A pump that goes on behind an answer keeps its source as the answer has left it. -/
theorem settle_going {r : source.State} {p p' : ReadAhead α} (going : p'.phase ≠ .stopped) :
    (settle source r p p').1 = r := by
  simp [settle, going]

theorem advance (t : Tracks source size answers s c asked) (now : Time) (w : ω) :
    ∃ c' asked', Tracks source size answers (ReadAhead.advance source s now w).2.1 c' asked' := by
  have step := advance_cases source s now w
  generalize (ReadAhead.advance source s now w).2.1 = s' at step
  have pump := t.pump
  cases step with
  | still => exact ⟨c, asked, t⟩
  | surveyed phase =>
    have surveyed := t.reached.surveyed t.resting (pump ▸ phase)
    refine ⟨_, asked, t.works surveyed rfl t.resting rfl (by simp [phase]) ?_ ?_⟩
    · rw [pump]
    · simp only [survey]
      split
      · rfl
      · split <;> rfl
  | noticed phase woken =>
    have noticed := t.reached.works (.notice t.resting (pump ▸ phase) (pump ▸ woken))
    refine ⟨_, asked, t.works noticed rfl t.resting rfl (by simp [phase]) ?_ rfl⟩
    rw [pump]
  | @pulled a r w' phase polled =>
    have pulled := t.reached.step (.meets (@Course.Meets.item _ c a t.resting (pump ▸ phase)))
    refine ⟨_, _, t.replied phase polled pulled rfl t.resting rfl ?_ settle_going ?_⟩
    · rw [pump]
      rfl
    · intro closed
      refine .inl ?_
      have same : (s.2.pulled a).feed.closed = s.2.feed.closed := by
        unfold ReadAhead.pulled
        split
        · rename_i fed
          exact (Feed.feed_ok fed).2.2.1
        · rfl
      exact same ▸ closed
  | @failed e r w' phase polled =>
    have failed := t.reached.step (.meets (@Course.Meets.fail _ c e t.resting (pump ▸ phase)))
    refine ⟨_, _, t.replied phase polled failed rfl t.resting rfl ?_ settle_going ?_⟩
    · rw [pump]
      rfl
    · exact fun _ => .inr (.inr ⟨e, rfl⟩)
  | ended phase polled =>
    have ended := t.reached.step (.meets (.finish t.resting (pump ▸ phase)))
    refine ⟨_, _, t.replied phase polled ended rfl t.resting ?_ ?_ settle_going ?_⟩
    · exact (List.append_nil _).symm
    · rw [pump]
      rfl
    · exact fun _ => .inr (.inl rfl)
  | @broke message r w' phase polled =>
    have broke := t.reached.step (.meets (.broke t.resting (pump ▸ phase)))
    refine ⟨_, _, t.replied phase polled broke rfl rfl ?_ ?_ settle_going .inl⟩
    · exact (List.append_nil _).symm
    · rw [← pump]
      rfl
  | @asked g r w' phase polled notFail _ =>
    refine ⟨c, _, t.replied phase polled t.reached rfl t.resting ?_ pump (fun _ => rfl) .inl⟩
    rw [Answer.output?_signal notFail]
    exact (List.append_nil _).symm

/-- A pump without a step to take can do nothing by itself in the course, and if it has asked its
source, this waits. -/
theorem blocked (t : Tracks source size answers s c asked) (now : Time) (w : ω)
    (blocked : (ReadAhead.advance source s now w).1 = .blocked) :
    (∀ c', ¬ Course.Works c c') ∧
      (s.2.phase = .pulling → (source.poll s.1 now w).1 = .wait) := by
  obtain ⟨r, p⟩ := s
  have pump : c.pump = p := t.pump
  cases phase : p.phase with
  | idle =>
    exact ⟨Course.still_of_resting t.resting (by simp [pump, phase]) (by simp [pump, phase]),
      by simp⟩
  | stopped =>
    exact ⟨Course.still_of_resting t.resting (by simp [pump, phase]) (by simp [pump, phase]),
      by simp⟩
  | surveying => simp [ReadAhead.advance, phase] at blocked
  | waiting read =>
    cases woken : read.resolved p.feed with
    | true => simp [ReadAhead.advance, phase, woken] at blocked
    | false =>
      subst pump
      exact ⟨Course.still_of_waiting t.resting phase woken, by simp⟩
  | pulling =>
    refine ⟨Course.still_of_resting t.resting (by simp [pump, phase]) (by simp [pump, phase]),
      fun _ => ?_⟩
    simp only [ReadAhead.advance, phase] at blocked
    split at blocked <;> cases blocked
    rename_i polled
    exact congrArg Prod.fst polled

/-- The source works on its own. -/
theorem below (t : Tracks source size answers s c asked) (now : Time) (w : ω) :
    Tracks source size answers ((source.tick s.1 now w).2.1, s.2) c asked := by
  obtain ⟨r, used, there⟩ := t.source
  exact ⟨t.reached, t.pump, t.answers, t.resting,
    ⟨_, used.tick now w, fun going => by rw [there going]⟩, t.told, t.closed⟩

/-- A consumer that is there asks. -/
theorem poll (t : Tracks source size answers s c asked) (present : s.2.feed.abandoned = false) :
    ∃ c', Tracks source size (answers ++ [s.2.poll.1]) (s.1, s.2.poll.2) c' asked := by
  obtain ⟨reached, pump, rfl, resting, ⟨r, used, there⟩, told, closed⟩ := t
  have polled := reached.step (.poll (pump ▸ present))
  refine ⟨_, polled, by rw [pump], by rw [pump], resting, ⟨r, used, fun going => there ?_⟩, told,
    fun isClosed => closed ?_⟩
  · intro stopped
    rw [poll_of_started (by simp [stopped])] at going
    exact going stopped
  · by_cases idle : s.2.phase = .idle
    · rwa [poll_of_idle idle] at isClosed
    · rw [poll_of_started idle] at isClosed
      exact s.2.feed.poll_untouched.closed ▸ isClosed

end Tracks

/-- Every use of a read-ahead stage follows a course, and its machine what the source says
there. -/
theorem reach_tracks {t : (source.readAhead size).State} {answers : List (Answer α)}
    (reached : (source.readAhead size).Reach t answers) :
    ∃ c asked, Tracks source size answers t.1 c asked := by
  induction reached with
  | start =>
    exact ⟨_, [], .start, rfl, rfl, rfl, ⟨_, .start, fun _ => rfl⟩, rfl,
      fun closed => absurd closed Bool.false_ne_true⟩
  | poll reached now w ih =>
    obtain ⟨c, asked, t⟩ := ih
    obtain ⟨c', next⟩ := t.poll (reach_follows reached).abandoned
    exact ⟨c', asked, next⟩
  | @tick t answers _ now w ih =>
    refine Turn.step_preserves
      (fun s => ∃ c asked, Tracks source size answers s c asked) ?_ ?_ t.2 t.1 w ih
    · rintro s w ⟨c, asked, t⟩
      exact ⟨c, asked, t.below now w⟩
    · rintro s w ⟨c, asked, t⟩
      exact t.advance now w

/-- Guarded it does the same, and has nothing but its end behind a failure. -/
theorem guarded_tracks {t : (source.readAhead size).guarded.State} {answers : List (Answer α)}
    (reached : (source.readAhead size).guarded.Reach t answers) :
    ∃ (c : Course α) (asked : List (Answer α)) (late : Nat),
      Tracks source size c.answers t.1.1 c asked ∧
      answers = c.answers ++ List.replicate late .done := by
  cases reached.guarded with
  | going below clean =>
    obtain ⟨c, asked, tracks⟩ := reach_tracks below
    obtain rfl := tracks.answers
    exact ⟨c, asked, 0, tracks, (List.append_nil _).symm⟩
  | failed late below clean =>
    obtain ⟨c, asked, tracks⟩ := reach_tracks below
    rw [← tracks.answers]
    exact ⟨c, asked, late, tracks.answers ▸ tracks, rfl⟩

/-- Reading ahead delivers what the machine below delivers. -/
theorem readAhead_delivers (size : Nat) {xs : List α} {fault : Option Failure}
    (delivers : source.Delivers (sourceOf xs fault)) :
    (source.readAhead size).Delivers (sourceOf xs fault) := by
  intro t answers reached
  obtain ⟨c, asked, course, pump, rfl, resting, ⟨r, used, -⟩, told, closed⟩ :=
    reach_tracks reached
  obtain ⟨first, all⟩ := delivers used
  have sound := course.kept.sound
  refine ⟨sound.outputs_prefix.trans (told ▸ first), fun done => ?_⟩
  obtain ⟨-, isClosed, whole⟩ := sound.ended done
  rw [whole, ← told]
  rcases closed (pump ▸ isClosed) with done | ⟨e, failed⟩
  · exact all done
  · exact told_of_failed first (error_mem_outputs.mpr failed)

end PullStream.ReadAhead
