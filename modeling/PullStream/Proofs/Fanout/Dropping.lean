import PullStream.Proofs.Fanout.Clocked
import PullStream.Proofs.Machine.LastPull
import PullStream.Proofs.Task

/-!
What a fan-out does when its last output has gone.

The pump passes every output that has been dropped, and while it waits at one its waiter tells
it of the drop. Behind the last one it finds nobody left and stops, so it asks its source no
more; only a pump that has asked already waits for the answer first, which then goes to nobody.

* `Course.task` — a pump as a task.
* `Course.Reaches.letGo` — the pump is let go.
* `dropped_winding` — so is that of a stage that runs: what it asks its source from the drop on
  is the rest of one pull.
-/

namespace PullStream.Fanout

variable {ω α : Type}

theorem put_abandoned (f : Feed α) (said : Option (Except Failure α)) :
    (put f said).abandoned = f.abandoned := by
  rcases said with _ | e | a
  · rfl
  · exact (throwInto_produced e f).abandoned
  · simp only [put]
    split
    · rename_i fed
      exact (Feed.feed_ok fed).2.2.2.abandoned
    · rfl

namespace Course

variable {s s' : Course α} {count buffer : Nat}

/-- The pump has asked its source. -/
def Asks (s : Course α) : Prop :=
  s.stage = .resting ∧ s.fanout.phase = .pulling

/-- A pump as a task: what it has taken is what its source has handed out. A look for somebody
who is left is its last step before it asks. -/
def task (α : Type) : Task (Course α) where
  works := Works
  meets := Meets
  steps := Step
  asks := Asks
  looked _ := False
  holds := Asks
  taken s := s.told.length
  isOver s := s.fanout.phase = .stopped

/-! ### The drop -/

/-- All outputs have gone, of a pump that has been started or never will be. -/
structure Gone (s : Course α) : Prop where
  abandoned : ∀ {k : Nat} {f}, s.fanout.feeds[k]? = some f → f.abandoned = true
  started : s.fanout.phase ≠ .idle

/-- The output of number `k` has gone. -/
def dropped (s : Course α) (k : Nat) : Course α :=
  { s with fanout := s.fanout.drop k }

theorem dropped_gone {k : Nat} (last : (s.dropped k).fanout.abandoned = true) :
    Gone (s.dropped k) := by
  refine ⟨fun there => List.all_eq_true.mp last _ (List.mem_of_getElem? there), ?_⟩
  simp only [dropped, Fanout.drop] at last ⊢
  split
  · simp
  · rename_i out
    rw [if_neg out] at last
    exact fun idle => out ⟨idle, last⟩

/-- The drop takes nothing from the pump but the start that it has not had. -/
theorem dropped_asks {k : Nat} : (s.dropped k).Asks ↔ s.Asks := by
  simp only [dropped, Asks, Fanout.drop]
  split
  · rename_i out
    simp [out.1]
  · rfl

/-- There is no output to come back. -/
theorem Step.own_of_gone (step : Step s s') (gone : Gone s) : Works s s' ∨ Meets s s' := by
  cases step with
  | works works => exact .inl works
  | meets meets => exact .inr meets
  | refill there present => cases present.symm.trans (gone.abandoned there)
  | poll there present => cases present.symm.trans (gone.abandoned there)
  | drop there present => cases present.symm.trans (gone.abandoned there)

theorem Works.gone (works : Works s s') (gone : Gone s) : Gone s' := by
  cases works with
  | lookOn => exact ⟨gone.abandoned, gone.started⟩
  | miss => exact ⟨gone.abandoned, gone.started⟩
  | see => exact ⟨gone.abandoned, gone.started⟩
  | @hand said k seen f _ there =>
    refine ⟨?_, gone.started⟩
    intro j g there'
    refine at_set (fun j g _ there => gone.abandoned there) ?_ j g there'
    exact (put_abandoned f said).trans (gone.abandoned there)
  | @handed said =>
    refine ⟨gone.abandoned, ?_⟩
    rcases said with _ | e | a <;> simp [Phase.behind]
  | _ => exact ⟨gone.abandoned, by simp⟩

theorem Meets.gone (meets : Meets s s') (gone : Gone s) : Gone s' := by
  cases meets with
  | hears => exact ⟨gone.abandoned, gone.started⟩
  | broke => exact ⟨gone.abandoned, by simp⟩

/-! ### What is left to do -/

/-- How many steps a pump without an output still takes at most: three for each output that
has not been passed, and one for each that has to get the answer. -/
def remaining (s : Course α) : Nat :=
  let outputs := s.fanout.feeds.length
  match s.stage, s.fanout.phase with
  | .looking j, _ => outputs - j + 1
  | .handing _ k _, _ => outputs - k + 3 * outputs + 3
  | .registered k _, _ => 2 * (outputs - k) + outputs + 1
  | .attended k _, _ => 2 * (outputs - k) + outputs + 4
  | .resting, .checking k => 2 * (outputs - k) + outputs + 2
  | .resting, .waiting k _ => 2 * (outputs - k) + outputs + 3
  | .resting, .pulling => 4 * outputs + 4
  | .resting, _ => 0

theorem remaining_le (s : Course α) : s.remaining ≤ 4 * s.fanout.feeds.length + 4 := by
  unfold remaining
  dsimp only
  split <;> omega

theorem Works.remaining_lt (works : Works s s') (gone : Gone s) : s'.remaining < s.remaining := by
  have inside : ∀ {k : Nat} {f}, s.fanout.feeds[k]? = some f → k < s.fanout.feeds.length :=
    fun there => (List.getElem?_eq_some_iff.mp there).1
  cases works with
  | pass resting phase there =>
    have bound := inside there
    simp only [remaining, resting, phase, moved]
    omega
  | register resting phase there =>
    simp only [remaining, resting, phase, moved]
    omega
  | skip stage there =>
    have bound := inside there
    simp only [remaining, stage, moved]
    omega
  | stay _ there present => cases present.symm.trans (gone.abandoned there)
  | room stage there =>
    have bound := inside there
    simp only [remaining, stage, moved]
    omega
  | full stage =>
    simp only [remaining, stage, moved]
    omega
  | notice resting phase =>
    simp only [remaining, resting, phase, moved]
    omega
  | turn resting phase =>
    simp only [remaining, resting, phase, moved]
    omega
  | lookOn stage there =>
    have bound := inside there
    simp only [remaining, stage]
    omega
  | pull _ there present => cases present.symm.trans (gone.abandoned there)
  | leave stage =>
    simp only [remaining, stage, moved]
    omega
  | miss stage there =>
    have bound := inside there
    simp only [remaining, stage]
    omega
  | see _ there present => cases present.symm.trans (gone.abandoned there)
  | hand stage there =>
    have bound := inside there
    simp only [remaining, stage, withFeed, List.length_set]
    omega
  | @handed said _ _ stage =>
    rcases said with _ | e | a
    · simp only [remaining, stage, moved, Phase.behind]
      omega
    · simp only [remaining, stage, moved, Phase.behind]
      omega
    · simp only [remaining, stage, moved, Phase.behind]
      omega

theorem Meets.remaining_lt (meets : Meets s s') : s'.remaining < s.remaining := by
  cases meets with
  | hears resting phase =>
    simp only [remaining, resting, phase]
    omega
  | broke resting phase =>
    simp only [remaining, resting, phase, moved]
    omega

/-! ### Pulls -/

/-- A pump without an output finds nobody to ask its source for. -/
theorem Works.not_asks (works : Works s s') (gone : Gone s) : ¬ s'.Asks := by
  cases works with
  | lookOn => simp [Asks]
  | pull _ there present => cases present.symm.trans (gone.abandoned there)
  | miss => simp [Asks]
  | see => simp [Asks]
  | hand => simp [Asks]
  | @handed said => rcases said with _ | e | a <;> simp [Asks, Phase.behind]
  | _ => simp [Asks]

/-- An answer of the source is the end of a pull. -/
theorem Meets.not_asks (meets : Meets s s') : ¬ s'.Asks := by
  cases meets <;> simp [Asks]

/-- By itself a pump takes nothing. -/
theorem Works.told_eq (works : Works s s') : s'.told = s.told := by
  cases works with
  | pass resting => simp [told, moved, resting, Stage.saying]
  | register resting => simp [told, moved, resting, Stage.saying]
  | skip stage => simp [told, moved, stage, Stage.saying]
  | stay stage => simp [told, moved, stage, Stage.saying]
  | room stage => simp [told, moved, stage, Stage.saying]
  | full stage => simp [told, moved, stage, Stage.saying]
  | notice resting => simp [told, moved, resting, Stage.saying]
  | turn resting => simp [told, moved, resting, Stage.saying]
  | lookOn stage => simp [told, stage, Stage.saying]
  | pull stage => simp [told, moved, stage, Stage.saying]
  | leave stage => simp [told, moved, stage, Stage.saying]
  | miss stage => simp [told, stage, Stage.saying]
  | see stage => simp [told, stage, Stage.saying]
  | hand stage => simp [told, withFeed, stage, Stage.saying]
  | handed stage => simp [told, moved, stage, Stage.saying]

theorem Meets.takes (meets : Meets s s') :
    s'.told.length = s.told.length ∨ s'.told.length = s.told.length + 1 ∧ s.Asks := by
  cases meets with
  | @hears said resting phase =>
    cases said with
    | none => exact .inl (by simp [told, resting, Stage.saying])
    | some r => exact .inr ⟨by simp [told, resting, Stage.saying], resting, phase⟩
  | broke resting => exact .inl (by simp [told, moved, resting, Stage.saying])

/-- A pump without an output goes on by itself until it has stopped, unless it has asked its
source. -/
theorem Reaches.goes_on (reached : Reaches count buffer s) (gone : Gone s) :
    s.fanout.phase = .stopped ∨ s.Asks ∨ ∃ s', Works s s' := by
  by_cases stopped : s.fanout.phase = .stopped
  · exact .inl stopped
  by_cases goesOn : ∃ s', Works s s'
  · exact .inr (.inr goesOn)
  rcases reached.parked gone.started stopped (not_exists.mp goesOn) with
    asks | ⟨-, k, f, there, present, -⟩
  · exact .inr (.inl asks)
  · cases present.symm.trans (gone.abandoned there)

theorem task_leaving :
    (task α).Leaving (fun s => Reaches count buffer s ∧ Gone s) remaining where
  stays kept step := by
    refine ⟨kept.1.step step, ?_⟩
    rcases step.own_of_gone kept.2 with works | meets
    · exact works.gone kept.2
    · exact meets.gone kept.2
  own own := own.elim .works .meets
  nearer kept own := by
    rcases own with works | meets
    · exact works.remaining_lt kept.2
    · exact meets.remaining_lt
  takes _ own := by
    rcases own with works | meets
    · exact .inl (congrArg List.length works.told_eq)
    · exact meets.takes
  turns kept own := by
    refine ⟨id, fun asks => ?_⟩
    rcases own with works | meets
    · exact works.not_asks kept.2 asks
    · exact meets.not_asks asks
  apart _ _ := id
  others kept step others := absurd (step.own_of_gone kept.2) others
  goes kept := kept.1.goes_on kept.2
  returned kept stopped own := by
    rcases own with works | meets
    · exact (works.going kept.1.kept.poised).2 stopped
    · cases meets with
      | hears _ phase => cases stopped.symm.trans phase
      | broke _ phase => cases stopped.symm.trans phase

/-- From the drop of the last of its outputs on, a pump is let go. -/
theorem Reaches.letGo (reached : Reaches count buffer s) {k : Nat} {f : Feed α}
    (there : s.fanout.feeds[k]? = some f) (present : f.abandoned = false)
    (last : (s.dropped k).fanout.abandoned = true) :
    (task α).LetGo (4 * count + 4) (s.dropped k) := by
  have after : Reaches count buffer (s.dropped k) := reached.step (.drop there present)
  have most := (s.dropped k).remaining_le
  rw [after.constant.2] at most
  exact task_leaving.letGo ⟨after, dropped_gone last⟩ most

end Course

/-! ### The stage -/

theorem abandoned_of_all {p : Fanout α}
    (all : ∀ {k : Nat} {f}, p.feeds[k]? = some f → f.abandoned = true) : p.abandoned = true := by
  rw [Fanout.abandoned, List.all_eq_true]
  intro f member
  obtain ⟨k, there⟩ := List.getElem?_of_mem member
  exact all there

variable {source : Machine ω α} {count buffer : Nat} {answers : Nat → List (Answer α)}
  {gone : Nat → Bool}

/-- How many steps a pump at rest without an output still takes at most. -/
def remaining (p : Fanout α) : Nat :=
  Course.remaining { fanout := p }

/-- By an answer the pump stays where it is if the pull is still pending, and else goes back to
its first output or stops. -/
theorem advance_pulling {r r' : source.State} {p : Fanout α} (phase : p.phase = .pulling)
    {now : Time} {w w' : ω} {a : Answer α} (answered : source.poll r now w = (a, r', w')) :
    a.isPending = true ∧ (advance source (r, p) now w).2.1 = (r', p) ∨
      ∃ p', (p'.phase = .checking 0 ∨ p'.phase = .stopped) ∧
        p'.feeds.length = p.feeds.length ∧
        (advance source (r, p) now w).2.1 = settle source r' p p' := by
  simp only [advance, phase, answered]
  cases a with
  | item a => exact .inr ⟨p.pulled a, .inl rfl, List.length_map _, rfl⟩
  | signal g =>
    cases g with
    | fail e => exact .inr ⟨p.pulledFailure e, .inr rfl, List.length_map _, rfl⟩
    | done => exact .inr ⟨p.pulledEnd, .inr rfl, List.length_map _, rfl⟩
    | crash message => exact .inr ⟨{ p with phase := .stopped }, .inr rfl, rfl, rfl⟩
    | skip => exact .inl ⟨rfl, rfl⟩
    | pause => exact .inl ⟨rfl, rfl⟩
    | wait => exact .inl ⟨rfl, rfl⟩

/-- The pump goes on from `p` to `p'`, and begins no pull by it. -/
theorem settle_last {pending asks : Prop} {below r : source.State} {asked : List (Answer α)}
    (l : source.LastPull pending asks below asked r) (p : Fanout α) {p' : Fanout α}
    (ended : p'.phase ≠ .pulling) :
    source.LastPull pending ((settle source r p p').2.phase = .pulling) below asked
      (settle source r p p').1 :=
  (l.settled _).mono fun asks => absurd asks ended

/-- The pump of a stage whose outputs have all gone, the last when its source was at `below`:
what it has asked since is the rest of one pull. -/
structure Winding (source : Machine ω α) (count buffer : Nat) (answers : Nat → List (Answer α))
    (gone : Nat → Bool) (pending : Prop) (below : source.State) (s : source.State × Fanout α) :
    Prop where
  follows : Follows source count buffer answers gone s
  all : ∀ k < count, gone k = true
  started : s.2.phase ≠ .idle
  last : ∃ asked, source.LastPull pending (s.2.phase = .pulling) below asked s.1

namespace Winding

variable {pending : Prop} {below : source.State} {s : source.State × Fanout α}

/-- The pump is that of a course without an output. -/
theorem course (v : Winding source count buffer answers gone pending below s) :
    ∃ c : Course α, c.Reaches count buffer ∧ c.fanout = s.2 ∧ c.stage = .resting ∧ c.Gone := by
  obtain ⟨⟨⟨c, tracks⟩, same⟩, all, started, -⟩ := v
  refine ⟨c, tracks.reached, tracks.fanout, tracks.resting, fun {k f} there => ?_, ?_⟩
  · have bound := (List.getElem?_eq_some_iff.mp there).1
    rw [tracks.reached.constant.2] at bound
    rw [tracks.fanout] at there
    exact (same k f there).trans (all k bound)
  · rw [tracks.fanout]
    exact started

/-- Every output is passed, and behind the last nobody is left. -/
theorem check (v : Winding source count buffer answers gone pending below s) {k : Nat}
    (phase : s.2.phase = .checking k) :
    remaining (s.2.check k) < remaining s.2 ∧ (s.2.check k).phase ≠ .pulling := by
  obtain ⟨c, -, same, -, gone⟩ := v.course
  unfold Fanout.check
  cases there : s.2.feeds[k]? with
  | none =>
    have nobody : s.2.abandoned = true :=
      abandoned_of_all fun there => gone.abandoned (same ▸ there)
    simp [nobody, remaining, Course.remaining, phase]
  | some f =>
    have bound := (List.getElem?_eq_some_iff.mp there).1
    have room : s.2.hasRoom f = true := by
      simp [hasRoom, gone.abandoned (same ▸ there)]
    refine ⟨?_, by simp [room]⟩
    simp only [room, if_true, remaining, Course.remaining, phase]
    omega

/-- A waiter tells of the drop. -/
theorem woken (v : Winding source count buffer answers gone pending below s) {k : Nat}
    {read : Feed.Waiter} (phase : s.2.phase = .waiting k read) :
    (s.2.feeds[k]?).all read.resolved = true := by
  obtain ⟨c, reached, same, -, gone⟩ := v.course
  obtain ⟨-, f, there, alerted, -⟩ := reached.watched.waiting (same ▸ phase)
  rw [← same, there]
  exact alerted.resolved (gone.abandoned there)

/-- A step brings the pump nearer to its return, unless it waits for its source. -/
theorem nearer (v : Winding source count buffer answers gone pending below s) (now : Time)
    (w : ω) :
    s.2.phase = .stopped ∨ remaining (advance source s now w).2.1.2 < remaining s.2 ∨
      s.2.phase = .pulling ∧ (source.poll s.1 now w).1.isPending = true := by
  have started := v.started
  have check := @v.check
  have woken := @v.woken
  obtain ⟨r, p⟩ := s
  cases phase : p.phase with
  | idle => exact absurd phase started
  | stopped => exact .inl rfl
  | checking k =>
    refine .inr (.inl ?_)
    simp only [advance, phase]
    exact (check phase).1
  | waiting k read =>
    have woken : (p.feeds[k]?).all read.resolved = true := woken phase
    refine .inr (.inl ?_)
    simp [advance, phase, woken, settle, noticedRead, remaining, Course.remaining]
  | pulling =>
    rcases answered : source.poll r now w with ⟨a, r', w'⟩
    rcases advance_pulling phase answered with ⟨pending, -⟩ | ⟨p', next, size, same⟩
    · exact .inr (.inr ⟨rfl, pending⟩)
    · refine .inr (.inl ?_)
      rw [same]
      rcases next with goesOn | stopped
      · simp only [settle, remaining, Course.remaining, phase, goesOn, size]
        omega
      · simp [settle, remaining, Course.remaining, phase, stopped]

theorem advance (v : Winding source count buffer answers gone pending below s) (now : Time)
    (w : ω) :
    Winding source count buffer answers gone pending below
      (Fanout.advance source s now w).2.1 := by
  refine ⟨v.follows.advance now w, v.all, (advance_goes source v.started now w).started, ?_⟩
  have started := v.started
  have check := @v.check
  have woken := @v.woken
  obtain ⟨asked, last⟩ := v.last
  obtain ⟨r, p⟩ := s
  dsimp only at last
  cases phase : p.phase with
  | idle => exact absurd phase started
  | stopped =>
    refine ⟨asked, ?_⟩
    simpa [Fanout.advance, phase] using last
  | checking k =>
    refine ⟨asked, ?_⟩
    simp only [Fanout.advance, phase]
    exact settle_last last p (check phase).2
  | waiting k read =>
    have woken : (p.feeds[k]?).all read.resolved = true := woken phase
    refine ⟨asked, ?_⟩
    simp only [Fanout.advance, phase, woken, if_true]
    exact settle_last last p (by simp [noticedRead])
  | pulling =>
    rcases answered : source.poll r now w with ⟨a, r', w'⟩
    refine ⟨asked ++ [a], ?_⟩
    rcases advance_pulling phase answered with ⟨pending, same⟩ | ⟨p', next, -, same⟩
    · rw [same]
      exact last.poll phase answered fun _ => pending
    · have pulled : source.LastPull pending False below (asked ++ [a]) r' :=
        last.poll phase answered False.elim
      rw [same]
      refine settle_last pulled p ?_
      rcases next with goesOn | stopped
      · simp [goesOn]
      · simp [stopped]

end Winding

/-- From the drop of its last output on, what a stage asks its source is the rest of one pull at
most. -/
theorem dropped_winding {t u : (source.fanout count buffer).State}
    (reached : (source.fanout count buffer).Reach t answers gone) {k : Nat} (inside : k < count)
    (present : gone k = false) (last : ∀ j < count, j ≠ k → gone j = true)
    (ticked : Ticked (source.fanout count buffer).tick ((source.fanout count buffer).drop k t) u) :
    Winding source count buffer answers (Function.update gone k true) (t.1.2.phase = .pulling)
      t.1.1 u.1 := by
  have follows := (reach_follows reached).drop inside present
  have all : ∀ j < count, Function.update gone k true j = true := by
    intro j bound
    by_cases same : j = k
    · rw [same, Function.update_self]
    · rw [Function.update_of_ne same]
      exact last j bound same
  have nobody : (t.1.2.drop k).abandoned = true := by
    obtain ⟨⟨c, tracks⟩, same⟩ := follows
    refine abandoned_of_all fun {j f} there => (same j f there).trans (all j ?_)
    rw [← tracks.reached.constant.2, tracks.fanout]
    exact (List.getElem?_eq_some_iff.mp there).1
  refine ticked.kept (fun u => Winding source count buffer answers (Function.update gone k true)
    (t.1.2.phase = .pulling) t.1.1 u.1) (fun u now w v => ?_) ⟨follows, all, ?_, [], ?_⟩
  · refine Turn.step_preserves (Winding source count buffer answers (Function.update gone k true)
      (t.1.2.phase = .pulling) t.1.1) (fun s w v => ?_) (fun s w v => v.advance now w) u.2 u.1 w v
    obtain ⟨follows, all, started, asked, last⟩ := v
    exact ⟨follows.below now w, all, started, asked, last.tick now w⟩
  · exact (Course.dropped_gone (s := { fanout := t.1.2 }) nobody).started
  · refine (Machine.LastPull.start fun asks => ?_).settled _
    exact ((Course.dropped_asks (s := { fanout := t.1.2 })).mp ⟨rfl, asks⟩).2

end PullStream.Fanout
