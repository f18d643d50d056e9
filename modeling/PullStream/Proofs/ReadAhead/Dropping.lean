import PullStream.Proofs.Machine.LastPull
import PullStream.Proofs.ReadAhead.Course
import PullStream.Proofs.Task

/-!
What a read-ahead pump does when its consumer has gone.

At the head of its loop it sees that nobody is there and stops; while it waits for room its
waiter tells it of the drop. Only when it has asked its source it waits for the answer first.

* `Course.task` — a pump as a task.
* `Course.Reaches.letGo` — the pump is let go.
* `dropped_winding` — so is that of a stage that runs: what it asks its source from the drop on is
  the rest of one pull.
-/

namespace PullStream.ReadAhead

variable {ω α : Type}

namespace Course

variable {s s' : Course α} {size : Nat}

/-- The pump has asked its source. -/
def Asks (s : Course α) : Prop :=
  s.pump.phase = .pulling

/-- A pump as a task: what it has taken is what its source has handed out. -/
def task (α : Type) : Task (Course α) where
  works := Works
  meets := Meets
  steps := Step
  asks := Asks
  looked s := ∃ read, s.stage = .attended read
  holds := Asks
  taken s := s.told.length
  isOver s := s.pump.phase = .stopped

/-! ### The drop -/

/-- Nobody consumes from a pump that has been started, or will never be. -/
structure Gone (s : Course α) : Prop where
  abandoned : s.pump.feed.abandoned = true
  started : s.pump.phase ≠ .idle

/-- The consumer has gone. -/
def dropped (s : Course α) : Course α :=
  { s with pump := s.pump.drop }

theorem dropped_gone (s : Course α) : Gone s.dropped where
  abandoned := rfl
  started := by
    change (if s.pump.phase = .idle then .stopped else s.pump.phase) ≠ Phase.idle
    split
    · simp
    · rename_i started
      exact started

/-- The drop takes nothing from the pump but the start that it has not had. -/
theorem dropped_asks : s.dropped.Asks ↔ s.Asks := by
  by_cases idle : s.pump.phase = .idle
  · simp [dropped, Asks, ReadAhead.drop, idle]
  · simp [dropped, Asks, ReadAhead.drop, idle]

theorem Works.gone (works : Works s s') (gone : Gone s) : Gone s' := by
  cases works <;> exact ⟨gone.abandoned, by simp [moved, noticedRead]⟩

theorem Meets.gone (meets : Meets s s') (gone : Gone s) : Gone s' := by
  have goes : ∀ {p}, Goes s.pump p → p.feed.abandoned = true ∧ p.phase ≠ .idle := fun goes =>
    ⟨goes.feed.abandoned.trans gone.abandoned, goes.started⟩
  cases meets with
  | item =>
    obtain ⟨abandoned, started⟩ := goes (pulled_goes s.pump _)
    exact ⟨abandoned, started⟩
  | fail =>
    obtain ⟨abandoned, started⟩ := goes (pulledFailure_goes s.pump _)
    exact ⟨abandoned, started⟩
  | finish =>
    obtain ⟨abandoned, started⟩ := goes (pulledEnd_goes s.pump)
    exact ⟨abandoned, started⟩
  | broke => exact ⟨gone.abandoned, by simp [moved]⟩

/-- There is no consumer to come back. -/
theorem Step.gone (step : Step s s') (gone : Gone s) : Gone s' := by
  cases step with
  | works works => exact works.gone gone
  | meets meets => exact meets.gone gone
  | refill => exact ⟨s.pump.feed.refill_untouched.abandoned.trans gone.abandoned, gone.started⟩
  | poll present => cases present.symm.trans gone.abandoned
  | drop present => cases present.symm.trans gone.abandoned

/-! ### What is left to do -/

/-- How many steps a pump without a consumer still takes at most. -/
def remaining (s : Course α) : Nat :=
  match s.stage, s.pump.phase with
  | .attended _, _ => 4
  | .registered _, _ => 1
  | .resting, .waiting _ => 3
  | .resting, .pulling => 3
  | .resting, .surveying => 2
  | .resting, _ => 0

theorem remaining_le (s : Course α) : s.remaining ≤ 4 := by
  unfold remaining
  split <;> omega

theorem Works.remaining_lt (works : Works s s') (gone : s.pump.feed.abandoned = true) :
    s'.remaining < s.remaining := by
  cases works with
  | register resting phase => simp [remaining, resting, phase, moved]
  | leave stage => simp [remaining, stage, moved]
  | stay _ present => cases present.symm.trans gone
  | full stage => simp [remaining, stage, moved]
  | room stage => simp [remaining, stage, moved]
  | notice resting phase => simp [remaining, resting, phase, noticedRead]

theorem Meets.remaining_lt (meets : Meets s s') : s'.remaining < s.remaining := by
  cases meets with
  | @item a resting phase =>
    rcases pulled_phase s.pump a with goesOn | stopped
    · simp [remaining, resting, phase, goesOn]
    · simp [remaining, resting, phase, stopped]
  | fail resting phase => simp [remaining, resting, phase, pulledFailure_phase]
  | finish resting phase => simp [remaining, resting, phase, pulledEnd]
  | broke resting phase => simp [remaining, resting, phase, moved]

/-! ### Pulls -/

/-- A pump without a consumer sees nobody, and asks its source only if it had seen somebody. -/
theorem Works.turns (works : Works s s') (gone : s.pump.feed.abandoned = true) :
    (¬ ∃ read, s'.stage = .attended read) ∧ (s'.Asks → ∃ read, s.stage = .attended read) := by
  cases works with
  | register => simp [Asks, moved]
  | leave => simp [Asks, moved]
  | stay _ present => cases present.symm.trans gone
  | full => simp [Asks, moved]
  | room stage => simp [stage, moved]
  | notice resting => simp [Asks, resting, noticedRead]

/-- An answer of the source is the end of a pull. -/
theorem Meets.turns (meets : Meets s s') :
    (¬ ∃ read, s'.stage = .attended read) ∧ ¬ s'.Asks := by
  cases meets with
  | @item a resting =>
    rcases pulled_phase s.pump a with goesOn | stopped
    · simp [Asks, resting, goesOn]
    · simp [Asks, resting, stopped]
  | fail resting => simp [Asks, resting, pulledFailure_phase]
  | finish resting => simp [Asks, resting, pulledEnd]
  | broke => simp [Asks, moved]

theorem Works.told (works : Works s s') : s'.told = s.told := by
  cases works <;> rfl

theorem Meets.takes (meets : Meets s s') :
    s'.told.length = s.told.length ∨ s'.told.length = s.told.length + 1 ∧ s.Asks := by
  cases meets with
  | item _ phase => exact .inr ⟨List.length_append, phase⟩
  | fail _ phase => exact .inr ⟨List.length_append, phase⟩
  | finish => exact .inl rfl
  | broke => exact .inl rfl

/-- A pump without a consumer goes on by itself until it has stopped, unless it has asked its
source. -/
theorem Reaches.goes_on (reached : Reaches size s) (gone : Gone s) :
    s.pump.phase = .stopped ∨ s.Asks ∨ ∃ s', Works s s' := by
  have poised := reached.poised
  cases stage : s.stage with
  | registered read => exact .inr (.inr ⟨_, .leave stage gone.abandoned⟩)
  | attended read =>
    rcases Nat.lt_or_ge s.pump.feed.pending s.pump.size with room | full
    · exact .inr (.inr ⟨_, .room stage room⟩)
    · exact .inr (.inr ⟨_, .full stage full⟩)
  | resting =>
    cases phase : s.pump.phase with
    | idle => exact absurd phase gone.started
    | stopped => exact .inl rfl
    | surveying => exact .inr (.inr ⟨_, .register stage phase⟩)
    | pulling => exact .inr (.inl phase)
    | waiting read =>
      rw [stage] at poised
      have woken := (poised phase).resolved gone.abandoned
      exact .inr (.inr ⟨_, .notice stage phase woken⟩)

/-- A pump that has stopped does nothing any more. -/
theorem Reaches.still_of_stopped (reached : Reaches size s) (stopped : s.pump.phase = .stopped) :
    ¬ (task α).Own s s' := by
  have resting := reached.poised.resting (by simp [stopped])
  rintro (works | meets)
  · cases works with
    | register _ phase => cases stopped.symm.trans phase
    | leave stage => cases resting.symm.trans stage
    | stay stage => cases resting.symm.trans stage
    | full stage => cases resting.symm.trans stage
    | room stage => cases resting.symm.trans stage
    | notice _ phase => cases stopped.symm.trans phase
  · cases meets with
    | item _ phase => cases stopped.symm.trans phase
    | fail _ phase => cases stopped.symm.trans phase
    | finish _ phase => cases stopped.symm.trans phase
    | broke _ phase => cases stopped.symm.trans phase

theorem task_leaving :
    (task α).Leaving (fun s => Reaches size s ∧ Gone s) remaining where
  stays kept step := ⟨kept.1.step step, step.gone kept.2⟩
  own own := own.elim .works .meets
  nearer kept own := by
    rcases own with works | meets
    · exact works.remaining_lt kept.2.abandoned
    · exact meets.remaining_lt
  takes _ own := by
    rcases own with works | meets
    · exact .inl (congrArg List.length works.told)
    · exact meets.takes
  turns kept own := by
    rcases own with works | meets
    · exact works.turns kept.2.abandoned
    · exact ⟨meets.turns.1, fun asks => absurd asks meets.turns.2⟩
  apart := by
    rintro s ⟨reached, -⟩ asks ⟨read, stage⟩
    have resting := reached.poised.resting (by simp [show s.pump.phase = .pulling from asks])
    cases resting.symm.trans stage
  others kept step others := by
    cases step with
    | works works => exact absurd (.inl works) others
    | meets meets => exact absurd (.inr meets) others
    | refill => exact ⟨Nat.le_refl _, rfl, id, id⟩
    | poll present => cases present.symm.trans kept.2.abandoned
    | drop present => cases present.symm.trans kept.2.abandoned
  goes kept := kept.1.goes_on kept.2
  returned kept stopped := kept.1.still_of_stopped stopped

/-- From the drop of its consumer on, a pump is let go. -/
theorem Reaches.letGo (reached : Reaches size s) (present : s.pump.feed.abandoned = false) :
    (task α).LetGo 4 s.dropped :=
  task_leaving.letGo ⟨reached.step (.drop present), dropped_gone s⟩ s.dropped.remaining_le

end Course

/-! ### The stage -/

variable {source : Machine ω α} {size : Nat} {answers asked : List (Answer α)}

/-- How many steps a pump at rest without a consumer still takes at most. -/
def remaining (p : ReadAhead α) : Nat :=
  Course.remaining { pump := p }

/-- By an answer the pump stays where it is if the pull is still pending, and else goes back to
the head of its loop or stops. -/
theorem advance_pulling {r r' : source.State} {p : ReadAhead α} (phase : p.phase = .pulling)
    {now : Time} {w w' : ω} {a : Answer α} (answered : source.poll r now w = (a, r', w')) :
    a.isPending = true ∧ (advance source (r, p) now w).2.1 = (r', p) ∨
      ∃ p', (p'.phase = .surveying ∨ p'.phase = .stopped) ∧
        (advance source (r, p) now w).2.1 = settle source r' p p' := by
  simp only [advance, phase, answered]
  cases a with
  | item a => exact .inr ⟨_, Course.pulled_phase p a, rfl⟩
  | signal g =>
    cases g with
    | fail e => exact .inr ⟨_, .inr (Course.pulledFailure_phase p e), rfl⟩
    | done => exact .inr ⟨_, .inr rfl, rfl⟩
    | crash message => exact .inr ⟨{ p with phase := .stopped }, .inr rfl, rfl⟩
    | skip => exact .inl ⟨rfl, rfl⟩
    | pause => exact .inl ⟨rfl, rfl⟩
    | wait => exact .inl ⟨rfl, rfl⟩

/-- The pump goes on from `p` to `p'`, and begins no pull by it. -/
theorem settle_last {pending asks : Prop} {below r : source.State}
    (l : source.LastPull pending asks below asked r) (p : ReadAhead α) {p' : ReadAhead α}
    (ended : p'.phase ≠ .pulling) :
    source.LastPull pending ((settle source r p p').2.phase = .pulling) below asked
      (settle source r p p').1 :=
  (l.settled _).mono fun asks => absurd asks ended

/-- The pump of a stage whose consumer has gone, when its source was at `below`: what it has
asked since is the rest of one pull. -/
structure Winding (source : Machine ω α) (size : Nat) (answers : List (Answer α)) (pending : Prop)
    (below : source.State) (s : source.State × ReadAhead α) : Prop where
  follows : Follows size answers true s.2
  started : s.2.phase ≠ .idle
  last : ∃ asked, source.LastPull pending (s.2.phase = .pulling) below asked s.1

namespace Winding

variable {pending : Prop} {below : source.State} {s : source.State × ReadAhead α}

/-- A step brings the pump nearer to its return, unless it waits for its source. -/
theorem nearer (v : Winding source size answers pending below s) (now : Time) (w : ω) :
    s.2.phase = .stopped ∨ remaining (advance source s now w).2.1.2 < remaining s.2 ∨
      s.2.phase = .pulling ∧ (source.poll s.1 now w).1.isPending = true := by
  obtain ⟨⟨⟨told, reached⟩, gone⟩, started, -⟩ := v
  obtain ⟨r, p⟩ := s
  dsimp only at gone started reached ⊢
  cases phase : p.phase with
  | idle => exact absurd phase started
  | stopped => exact .inl rfl
  | surveying =>
    refine .inr (.inl ?_)
    simp [advance, settle, survey, gone, remaining, Course.remaining, phase]
  | waiting read =>
    have woken : read.resolved p.feed = true := (reached.poised phase).resolved gone
    refine .inr (.inl ?_)
    simp [advance, woken, settle, noticedRead, remaining, Course.remaining, phase]
  | pulling =>
    rcases answered : source.poll r now w with ⟨a, r', w'⟩
    rcases advance_pulling phase answered with ⟨pending, -⟩ | ⟨p', next, same⟩
    · exact .inr (.inr ⟨rfl, pending⟩)
    · refine .inr (.inl ?_)
      rw [same]
      rcases next with goesOn | stopped
      · simp [settle, remaining, Course.remaining, phase, goesOn]
      · simp [settle, remaining, Course.remaining, phase, stopped]

theorem advance (v : Winding source size answers pending below s) (now : Time) (w : ω) :
    Winding source size answers pending below (ReadAhead.advance source s now w).2.1 := by
  refine ⟨v.follows.advance now w, (advance_goes source v.started now w).started, ?_⟩
  obtain ⟨⟨⟨told, reached⟩, gone⟩, started, asked, last⟩ := v
  obtain ⟨r, p⟩ := s
  dsimp only at gone started reached last
  cases phase : p.phase with
  | idle => exact absurd phase started
  | stopped =>
    refine ⟨asked, ?_⟩
    simpa [ReadAhead.advance, phase] using last
  | surveying =>
    refine ⟨asked, ?_⟩
    simp only [ReadAhead.advance, phase]
    exact settle_last last p (by simp [survey, gone])
  | waiting read =>
    have woken : read.resolved p.feed = true := (reached.poised phase).resolved gone
    refine ⟨asked, ?_⟩
    simp only [ReadAhead.advance, phase, woken, if_true]
    exact settle_last last p (by simp [noticedRead])
  | pulling =>
    rcases answered : source.poll r now w with ⟨a, r', w'⟩
    refine ⟨asked ++ [a], ?_⟩
    rcases advance_pulling phase answered with ⟨pending, same⟩ | ⟨p', next, same⟩
    · rw [same]
      exact last.poll phase answered fun _ => pending
    · have pulled : source.LastPull pending False below (asked ++ [a]) r' :=
        last.poll phase answered False.elim
      rw [same]
      refine settle_last pulled p ?_
      rcases next with goesOn | stopped
      · simp [goesOn]
      · simp [stopped]

end Winding

/-- The stage runs on for as long as its pump does, and from the drop of the consumer on that is
the rest of one pull at most. -/
theorem dropped_winding {t u : (source.readAhead size).State}
    (reached : (source.readAhead size).Reach t answers)
    (ticked : Ticked (source.readAhead size).tick ((source.readAhead size).drop t) u) :
    Winding source size answers (t.1.2.phase = .pulling) t.1.1 u.1 := by
  have follows := (reach_follows reached).drop
  refine ticked.kept (fun u => Winding source size answers (t.1.2.phase = .pulling) t.1.1 u.1)
    (fun u now w v => ?_) ⟨follows, ?_, [], ?_⟩
  · refine Turn.step_preserves (Winding source size answers (t.1.2.phase = .pulling) t.1.1)
      (fun s w v => ?_) (fun s w v => v.advance now w) u.2 u.1 w v
    obtain ⟨follows, started, asked, last⟩ := v
    exact ⟨follows, started, asked, last.tick now w⟩
  · exact (Course.dropped_gone { pump := t.1.2 }).started
  · refine (Machine.LastPull.start fun asks => ?_).settled _
    exact (Course.dropped_asks (s := { pump := t.1.2 })).mp asks

end PullStream.ReadAhead
