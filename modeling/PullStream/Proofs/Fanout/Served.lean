import Mathlib.Data.List.Basic
import PullStream.Proofs.Fanout.Course

/-!
What the outputs of a fan-out are given.

Each output is given what the source has handed out, one entry after the other, and the end or
the failure behind it. An output that is there has accepted all that the source has said, but
for what is just being handed out (`Served.books`). One that has been dropped keeps what it
has delivered, and that stays a first part of what the source hands out (`Served.delivered`).

* `Course.Kept` — the pump and what the source has said.
* `Course.Served` — one output.
* `Course.Reaches.kept`, `Course.Reaches.serves` — both hold of every course.
-/

namespace PullStream.Fanout

variable {α : Type}

/-! ### Polls and drops -/

theorem poll_of_idle {p : Fanout α} {k : Nat} {f : Feed α} (there : p.feeds[k]? = some f)
    (idle : p.phase = .idle) : p.poll k = (.skip, { p with phase := .checking 0 }) := by
  simp [poll, there, idle]

theorem poll_of_started {p : Fanout α} {k : Nat} {f : Feed α} (there : p.feeds[k]? = some f)
    (started : p.phase ≠ .idle) :
    p.poll k = (f.poll.1, { p with feeds := p.feeds.set k f.poll.2 }) := by
  simp [poll, there, started]

/-- What the drop of an output comes to: only that, or the last of a fan-out that has not been
asked for anything. -/
theorem drop_cases {p : Fanout α} {k : Nat} {f : Feed α} (there : p.feeds[k]? = some f) :
    p.drop k = { p with feeds := p.feeds.set k f.drop } ∨
      p.phase = .idle ∧ (p.feeds.set k f.drop).all (·.abandoned) = true ∧
        p.drop k = { p with feeds := p.feeds.set k f.drop, phase := .stopped } := by
  have same : p.feeds.modify k Feed.drop = p.feeds.set k f.drop := by
    rw [List.modify_eq_set_getElem?, there]
    rfl
  unfold drop
  rw [same]
  dsimp only
  split
  · rename_i left
    exact .inr ⟨left.1, left.2, rfl⟩
  · exact .inl rfl

/-- All feeds of a new fan-out are new. -/
theorem create_feed {count buffer k : Nat} {f : Feed α}
    (there : (create count buffer).feeds[k]? = some f) : f = {} := by
  have member := List.mem_of_getElem? there
  exact List.eq_of_mem_replicate member

/-- What holds at every output still does when one feed is replaced. -/
theorem at_set {P : Nat → Feed α → Prop} {feeds : List (Feed α)} {k : Nat} {g : Feed α}
    (others : ∀ j f, j ≠ k → feeds[j]? = some f → P j f) (own : P k g) :
    ∀ j f, (feeds.set k g)[j]? = some f → P j f := by
  intro j f there
  by_cases same : j = k
  · subst same
    obtain ⟨bound, entry⟩ := List.getElem?_eq_some_iff.mp there
    rw [List.getElem_set_self] at entry
    exact entry ▸ own
  · rw [List.getElem?_set_ne (Ne.symm same)] at there
    exact others j f same there

/-! ### Stages -/

namespace Stage

/-- Whether the pump hands out what the source has said. -/
def isHanding : Stage α → Bool
  | .handing _ _ _ => true
  | _ => false

/-- Whether an output has been told in this round that nothing more will come. -/
def closed : Stage α → Nat → Bool
  | .handing (some (.ok _)) _ _, _ => false
  | stage, k => stage.served k

variable {stage : Stage α}

theorem saying_quiet (quiet : stage.isHanding = false) : stage.saying = [] := by
  cases stage with
  | handing => cases quiet
  | _ => rfl

theorem served_quiet (quiet : stage.isHanding = false) (k : Nat) : stage.served k = false := by
  cases stage with
  | handing => cases quiet
  | _ => rfl

theorem closed_quiet (quiet : stage.isHanding = false) (k : Nat) : stage.closed k = false := by
  cases stage with
  | handing => cases quiet
  | _ => rfl

theorem served_of_closed {k : Nat} (h : stage.closed k = true) : stage.served k = true := by
  unfold closed at h
  split at h
  · cases h
  · exact h

end Stage

namespace Course

variable {s s' : Course α} {count buffer : Nat}

theorem told_quiet (quiet : s.stage.isHanding = false) : s.told = s.past := by
  rw [told, Stage.saying_quiet quiet, List.append_nil]

theorem given_quiet (quiet : s.stage.isHanding = false) (k : Nat) : s.given k = s.past := by
  rw [given, Stage.served_quiet quiet]
  simp

/-! ### The pump -/

/-- Where a pump may stand. -/
def Poised (p : Fanout α) : Stage α → Prop
  | .resting => True
  | .registered k _ => p.phase = .checking k ∧ 0 < p.buffer
  | .attended k _ => p.phase = .checking k ∧ 0 < p.buffer
  | .looking _ => ∃ k, p.phase = .checking k ∧ p.feeds[k]? = none
  | .handing _ _ _ => p.phase = .pulling

/-- A pump that has not been started or has stopped is between two calls. -/
theorem Poised.resting {p : Fanout α} {stage : Stage α} (poised : Poised p stage)
    (out : p.phase = .idle ∨ p.phase = .stopped) : stage = .resting := by
  cases stage with
  | resting => rfl
  | registered => rcases out with h | h <;> cases h.symm.trans poised.1
  | attended => rcases out with h | h <;> cases h.symm.trans poised.1
  | looking =>
    obtain ⟨k, phase, -⟩ := poised
    rcases out with h | h <;> cases h.symm.trans phase
  | handing => rcases out with h | h <;> cases h.symm.trans poised

/-- The pump reads its outputs through their number. -/
theorem Poised.congr {p p' : Fanout α} {stage : Stage α} (poised : Poised p stage)
    (phase : p'.phase = p.phase) (buffer : p'.buffer = p.buffer)
    (size : p'.feeds.length = p.feeds.length) : Poised p' stage := by
  cases stage with
  | resting => trivial
  | registered => exact ⟨phase.trans poised.1, buffer ▸ poised.2⟩
  | attended => exact ⟨phase.trans poised.1, buffer ▸ poised.2⟩
  | looking =>
    obtain ⟨k, checking, behind⟩ := poised
    refine ⟨k, phase.trans checking, ?_⟩
    rw [List.getElem?_eq_none_iff] at behind ⊢
    rwa [size]
  | handing => exact phase.trans poised

/-- What a pump knows of its source: as long as it goes on there has been no failure, a failure
is the last that is handed out, and the end has been reported when it is handed out. -/
structure Kept (s : Course α) : Prop where
  poised : Poised s.fanout s.stage
  clean : s.fanout.phase ≠ .stopped → ∀ e, .error e ∉ s.past
  last : ∀ e, .error e ∉ s.told.dropLast
  ends : ∀ {k seen}, s.stage = .handing none k seen → s.ended = true

namespace Kept

theorem start : Kept ({ fanout := .create count buffer } : Course α) where
  poised := trivial
  clean _ _ := List.not_mem_nil
  last _ := List.not_mem_nil
  ends := by simp

/-- Where nothing is handed out, only the place of the pump has to be seen to. -/
theorem quiet (v : Kept s) (quiet : s.stage.isHanding = false)
    (quiet' : s'.stage.isHanding = false) (past : s'.past = s.past)
    (running : s'.fanout.phase ≠ .stopped → s.fanout.phase ≠ .stopped)
    (poised : Poised s'.fanout s'.stage) : Kept s' := by
  refine ⟨poised, fun going => ?_, ?_, fun handing => ?_⟩
  · rw [past]
    exact v.clean (running going)
  · rw [told_quiet quiet', past, ← told_quiet quiet]
    exact v.last
  · rw [handing] at quiet'
    cases quiet'

/-- From one output to the next. -/
theorem round (v : Kept s) {said : Option (Except Failure α)} {j j' : Nat} {seen seen' : Bool}
    (stage : s.stage = .handing said j seen) (stage' : s'.stage = .handing said j' seen')
    (past : s'.past = s.past) (phase : s'.fanout.phase = s.fanout.phase)
    (ended : s'.ended = s.ended) : Kept s' := by
  have poised := v.poised
  have same : s'.told = s.told := by
    rw [told, told, stage, stage', past]
    rfl
  rw [stage] at poised
  refine ⟨?_, fun going => ?_, ?_, fun handing => ?_⟩
  · rw [stage']
    exact phase.trans poised
  · rw [past]
    exact v.clean (phase ▸ going)
  · rw [same]
    exact v.last
  · rw [stage'] at handing
    cases handing
    exact ended.trans (v.ends stage)

end Kept

/-- What the pump does by itself it does when it has been started and has not stopped. -/
theorem Works.going (works : Works s s') (poised : Poised s.fanout s.stage) :
    s.fanout.phase ≠ .idle ∧ s.fanout.phase ≠ .stopped := by
  refine not_or.mp fun out => ?_
  have resting := poised.resting out
  have calls : ∀ {k}, s.fanout.phase ≠ .checking k := by
    intro k phase
    rcases out with h | h <;> cases h.symm.trans phase
  cases works with
  | pass _ phase => exact calls phase
  | register _ phase => exact calls phase
  | skip stage => cases resting.symm.trans stage
  | stay stage => cases resting.symm.trans stage
  | room stage => cases resting.symm.trans stage
  | full stage => cases resting.symm.trans stage
  | notice _ phase => rcases out with h | h <;> cases h.symm.trans phase
  | turn _ phase => exact calls phase
  | lookOn stage => cases resting.symm.trans stage
  | pull stage => cases resting.symm.trans stage
  | leave stage => cases resting.symm.trans stage
  | miss stage => cases resting.symm.trans stage
  | see stage => cases resting.symm.trans stage
  | hand stage => cases resting.symm.trans stage
  | handed stage => cases resting.symm.trans stage

theorem Works.kept (works : Works s s') (v : Kept s) : Kept s' := by
  have poised := v.poised
  have going := (works.going poised).2
  cases works with
  | pass resting => exact v.quiet (by rw [resting]; rfl) rfl rfl (fun _ => going) trivial
  | register resting _ _ limited =>
    exact v.quiet (by rw [resting]; rfl) rfl rfl (fun _ => going) ⟨rfl, limited⟩
  | skip stage => exact v.quiet (by rw [stage]; rfl) rfl rfl (fun _ => going) trivial
  | stay stage =>
    rw [stage] at poised
    exact v.quiet (by rw [stage]; rfl) rfl rfl (fun _ => going) ⟨rfl, poised.2⟩
  | room stage => exact v.quiet (by rw [stage]; rfl) rfl rfl (fun _ => going) trivial
  | full stage => exact v.quiet (by rw [stage]; rfl) rfl rfl (fun _ => going) trivial
  | notice resting => exact v.quiet (by rw [resting]; rfl) rfl rfl (fun _ => going) trivial
  | turn resting _ behind =>
    exact v.quiet (by rw [resting]; rfl) rfl rfl (fun _ => going) ⟨_, rfl, behind⟩
  | lookOn stage =>
    rw [stage] at poised
    exact v.quiet (by rw [stage]; rfl) rfl rfl id poised
  | pull stage => exact v.quiet (by rw [stage]; rfl) rfl rfl (fun _ => going) trivial
  | leave stage => exact v.quiet (by rw [stage]; rfl) rfl rfl (fun _ => going) trivial
  | miss stage => exact v.round stage rfl rfl rfl rfl
  | see stage => exact v.round stage rfl rfl rfl rfl
  | hand stage => exact v.round stage rfl rfl rfl rfl
  | @handed said k seen stage behind =>
    have last := v.last
    rw [told, stage] at last
    refine ⟨trivial, ?_, ?_, by simp⟩
    · rcases said with _ | e | a
      · exact fun going => absurd rfl going
      · exact fun going => absurd rfl going
      · intro _ e member
        have old : .error e ∈ s.past := by simpa [moved] using member
        exact v.clean going e old
    · rw [told_quiet rfl]
      exact last

theorem Meets.kept (meets : Meets s s') (v : Kept s) : Kept s' := by
  cases meets with
  | @hears said resting phase =>
    have clean := v.clean (by simp [phase])
    refine ⟨phase, fun _ => clean, ?_, fun handing => ?_⟩
    · intro e member
      have old : .error e ∈ s.past := by
        rcases said with _ | r
        · exact List.dropLast_subset _ (by simpa [told, Stage.saying] using member)
        · simpa [told, Stage.saying] using member
      exact clean e old
    · cases handing
      rfl
  | broke resting phase =>
    exact v.quiet (by rw [resting]; rfl) rfl rfl (fun going => absurd rfl going) trivial

theorem Step.kept (step : Step s s') (v : Kept s) : Kept s' := by
  obtain ⟨poised, clean, last, ends⟩ := v
  cases step with
  | works works => exact works.kept ⟨poised, clean, last, ends⟩
  | meets meets => exact meets.kept ⟨poised, clean, last, ends⟩
  | refill there _ =>
    exact ⟨poised.congr rfl rfl (by simp [withFeed]), clean, last, ends⟩
  | poll there present =>
    by_cases idle : s.fanout.phase = .idle
    · have resting := poised.resting (.inl idle)
      rw [poll_of_idle there idle]
      refine ⟨?_, fun _ => clean (by simp [idle]), last, ends⟩
      dsimp only
      rw [resting]
      trivial
    · rw [poll_of_started there idle]
      exact ⟨poised.congr rfl rfl (by simp), clean, last, ends⟩
  | drop there present =>
    rcases drop_cases there with only | ⟨idle, -, all⟩
    · rw [only]
      exact ⟨poised.congr rfl rfl (by simp), clean, last, ends⟩
    · have resting := poised.resting (.inl idle)
      rw [all]
      refine ⟨?_, fun going => absurd rfl going, last, ends⟩
      dsimp only
      rw [resting]
      trivial

theorem Reaches.kept (reached : Reaches count buffer s) : Kept s := by
  induction reached with
  | start => exact .start
  | step _ step ih => exact step.kept ih

/-! ### Outputs -/

/-- What the output of number `k`, with the feed `f`, has been given. -/
structure Served (s : Course α) (k : Nat) (f : Feed α) : Prop where
  books : ∃ accepted, f.Sound accepted (s.answers k) ∧ (f.abandoned = false → accepted = s.given k)
  delivered : outputs (s.answers k) <+: s.told
  complete : .done ∈ s.answers k ∨ (∃ e, .fail e ∈ s.answers k) → outputs (s.answers k) = s.told
  isOpen : s.fanout.phase ≠ .stopped → s.stage.closed k = false → f.closed = false
  closed : f.closed = true → s.ended = true ∨ ∃ e, .error e ∈ s.told
  counted : f.Counted

/-- A report of the end, or of a failure, comes from a closed feed. -/
theorem closed_of_reported {f : Feed α} {accepted : List (Except Failure α)}
    {answers : List (Answer α)} (sound : f.Sound accepted answers)
    (reported : .done ∈ answers ∨ ∃ e, .fail e ∈ answers) :
    f.closed = true ∧ outputs answers = accepted := by
  rcases reported with done | ⟨e, failed⟩
  · obtain ⟨-, closed, all⟩ := sound.ended done
    exact ⟨closed, all⟩
  · refine ⟨sound.shut e (sound.outputs_prefix.subset (error_mem_outputs.mpr failed)), ?_⟩
    obtain ⟨before, after, rfl⟩ := List.append_of_mem failed
    obtain ⟨all, none⟩ := sound.failure_last rfl
    rw [all, ← List.singleton_append, outputs_append, outputs_append, outputs_fail, none,
      List.append_nil]

namespace Served

variable {k : Nat} {f f' : Feed α}

theorem start (k : Nat) : Served ({ fanout := .create count buffer } : Course α) k {} where
  books := ⟨[], Feed.Sound.start, fun _ => rfl⟩
  delivered := List.nil_prefix
  complete reported := by
    rcases reported with done | ⟨e, failed⟩
    · cases done
    · cases failed
  isOpen _ _ := rfl
  closed closed := absurd closed Bool.false_ne_true
  counted := Feed.Counted.start

/-- An output whose feed is closed has been handed all that there is. -/
theorem given_of_closed (v : Served s k f) (kept : Kept s) (closed : f.closed = true) :
    s.given k = s.told := by
  by_cases stopped : s.fanout.phase = .stopped
  · exact given_of_resting (kept.poised.resting (.inr stopped)) k
  · have served : s.stage.closed k = true := by
      by_contra open'
      cases closed.symm.trans (v.isOpen stopped (by simpa using open'))
    rw [given, told, Stage.served_of_closed served, if_pos rfl]

/-- Where its feed and its answers do not change, an output has to be told of what the source
has said only. -/
theorem kept (v : Served s k f) (answers : s'.answers k = s.answers k)
    (given : f.abandoned = false → s'.given k = s.given k) (told : s'.told = s.told)
    (isOpen : s'.fanout.phase ≠ .stopped → s'.stage.closed k = false →
      s.fanout.phase ≠ .stopped ∧ s.stage.closed k = false)
    (ended : s'.ended = s.ended) : Served s' k f := by
  refine ⟨?_, ?_, ?_, fun going still => ?_, ?_, v.counted⟩
  · obtain ⟨accepted, sound, all⟩ := v.books
    rw [answers]
    exact ⟨accepted, sound, fun present => (all present).trans (given present).symm⟩
  · rw [answers, told]
    exact v.delivered
  · rw [answers, told]
    exact v.complete
  · obtain ⟨going, still⟩ := isOpen going still
    exact v.isOpen going still
  · rw [ended, told]
    exact v.closed

/-- Where nothing is handed out. -/
theorem quiet (v : Served s k f) (quiet : s.stage.isHanding = false)
    (quiet' : s'.stage.isHanding = false) (answers : s'.answers = s.answers)
    (past : s'.past = s.past) (running : s'.fanout.phase ≠ .stopped → s.fanout.phase ≠ .stopped)
    (ended : s'.ended = s.ended) : Served s' k f := by
  refine v.kept (congrFun answers k) (fun _ => ?_) ?_ ?_ ended
  · rw [given_quiet quiet', given_quiet quiet, past]
  · rw [told_quiet quiet', told_quiet quiet, past]
  · exact fun going _ => ⟨running going, Stage.closed_quiet quiet k⟩

/-- From one output to the next, which concerns none but the first. -/
theorem round (v : Served s k f) {said : Option (Except Failure α)} {j j' : Nat}
    {seen seen' : Bool} (stage : s.stage = .handing said j seen)
    (stage' : s'.stage = .handing said j' seen') (answers : s'.answers = s.answers)
    (past : s'.past = s.past) (phase : s'.fanout.phase = s.fanout.phase)
    (ended : s'.ended = s.ended)
    (same : f.abandoned = false ∨ (∀ a, said ≠ some (.ok a)) → decide (k < j') = decide (k < j)) :
    Served s' k f := by
  have saying : s'.stage.saying = s.stage.saying := by
    rw [stage, stage']
    rfl
  refine v.kept (congrFun answers k) (fun present => ?_) ?_ (fun going still => ?_) ended
  · have served : s'.stage.served k = s.stage.served k := by
      rw [stage, stage']
      exact same (.inl present)
    rw [given, given, served, saying, past]
  · rw [told, told, saying, past]
  · refine ⟨phase ▸ going, ?_⟩
    rw [stage'] at still
    rw [stage]
    rcases said with _ | e | a
    · exact (same (.inr (by simp))).symm.trans still
    · exact (same (.inr (by simp))).symm.trans still
    · rfl

/-- An output that is about to be handed what the source has said has an open feed. -/
theorem open_of_handing (v : Served s k f) (kept : Kept s) {said : Option (Except Failure α)}
    {seen : Bool} (stage : s.stage = .handing said k seen) : f.closed = false := by
  have poised := kept.poised
  rw [stage] at poised
  refine v.isOpen (by simp [show s.fanout.phase = .pulling from poised]) ?_
  by_contra still
  have served := Stage.served_of_closed (by simpa using still)
  simp [stage, Stage.served] at served

/-- The output that is handed what the source has said. -/
theorem handed (v : Served s k f) (kept : Kept s) {said : Option (Except Failure α)}
    {seen : Bool} (stage : s.stage = .handing said k seen) :
    Served { s.withFeed k (put f said) with stage := .handing said (k + 1) false } k
      (put f said) := by
  have notYet : s.stage.served k = false := by simp [stage, Stage.served]
  have isOpen := v.open_of_handing kept stage
  have gets := put_gets isOpen said
  obtain ⟨accepted, sound, all⟩ := v.books
  have told : s.told = s.past ++ said.toList := by
    rw [Course.told, stage]
    rfl
  refine ⟨⟨_, gets.sound sound, fun present => ?_⟩, ?_, ?_, fun _ still => ?_, ?_,
    gets.counted v.counted⟩
  · have before := all (gets.abandoned ▸ present)
    rw [given, notYet] at before
    simp [before, given, withFeed, Stage.served, Stage.saying]
  · have delivered := v.delivered
    rw [told] at delivered
    exact delivered
  · intro reported
    have complete := v.complete reported
    rw [told] at complete
    exact complete
  · -- Only an item leaves the feed open, and behind an item the pump goes on.
    rcases said with _ | e | a
    · simp [Stage.closed, Stage.served] at still
    · simp [Stage.closed, Stage.served] at still
    · exact gets.isOpen
  · intro closed
    rcases said with _ | e | a
    · exact .inl (kept.ends stage)
    · exact .inr ⟨e, by simp [Course.told, Stage.saying]⟩
    · cases closed.symm.trans gets.isOpen

/-- At the end of a round every output has been handed what the source has said. -/
theorem behind (v : Served s k f) (kept : Kept s) {said : Option (Except Failure α)} {j : Nat}
    {seen : Bool} (stage : s.stage = .handing said j seen) (before : k < j) :
    Served { s.moved (.behind said) .resting with past := s.past ++ said.toList } k f := by
  have served : s.stage.served k = true := by simp [stage, Stage.served, before]
  have told : s.told = s.past ++ said.toList := by
    rw [Course.told, stage]
    rfl
  have given : s.given k = s.told := by rw [Course.given, served, if_pos rfl, Course.told]
  refine v.kept rfl (fun _ => ?_) ?_ (fun going _ => ?_) rfl
  · rw [given_quiet rfl, given, told]
  · rw [told_quiet rfl, told]
  · rcases said with _ | e | a
    · exact absurd rfl going
    · exact absurd rfl going
    · have poised := kept.poised
      rw [stage] at poised ⊢
      exact ⟨by simp [show s.fanout.phase = .pulling from poised], rfl⟩

/-- What the source says is new to every output. -/
theorem hears (v : Served s k f) (resting : s.stage = .resting)
    (phase : s.fanout.phase = .pulling) (said : Option (Except Failure α)) :
    Served { s with stage := .handing said 0 false, ended := said.isNone } k f := by
  have isOpen : f.closed = false :=
    v.isOpen (by simp [phase]) (Stage.closed_quiet (by rw [resting]; rfl) k)
  have told : s.told = s.past := told_quiet (by rw [resting]; rfl)
  obtain ⟨accepted, sound, all⟩ := v.books
  refine ⟨⟨accepted, sound, fun present => ?_⟩, ?_, fun reported => ?_, fun _ _ => isOpen,
    fun closed => ?_, v.counted⟩
  · rw [all present, given_of_resting resting, told]
    simp [given, Stage.served]
  · have delivered := v.delivered
    rw [told] at delivered
    exact delivered.trans (List.prefix_append _ _)
  · cases (closed_of_reported sound reported).1.symm.trans isOpen
  · cases closed.symm.trans isOpen

/-- The output takes the shared buffer of its feed. -/
theorem refill (v : Served s k f) : Served (s.withFeed k f.refill) k f.refill := by
  obtain ⟨accepted, sound, all⟩ := v.books
  have same := f.refill_untouched
  refine ⟨⟨accepted, sound.refill, fun present => all (same.abandoned ▸ present)⟩, v.delivered,
    v.complete, ?_, ?_, v.counted.refill⟩
  · rw [same.closed]
    exact v.isOpen
  · rw [same.closed]
    exact v.closed

/-- The output is dropped. -/
theorem drop (v : Served s k f) (answers : s'.answers k = s.answers k)
    (told : s'.told = s.told) (stage : s'.stage = s.stage)
    (running : s'.fanout.phase ≠ .stopped → s.fanout.phase ≠ .stopped)
    (ended : s'.ended = s.ended) : Served s' k f.drop := by
  obtain ⟨accepted, sound, -⟩ := v.books
  refine ⟨⟨accepted, ?_, fun present => ?_⟩, ?_, ?_, fun going still => ?_, ?_, v.counted.drop⟩
  · rw [answers]
    exact sound.drop
  · cases present
  · rw [answers, told]
    exact v.delivered
  · rw [answers, told]
    exact v.complete
  · exact v.isOpen (running going) (stage ▸ still)
  · rw [ended, told]
    exact v.closed

/-- The output is asked, and its feed answers. -/
theorem poll (v : Served s k f) (kept : Kept s) (present : f.abandoned = false)
    (answers : s'.answers k = s.answers k ++ [f.poll.1]) (told : s'.told = s.told)
    (given : s'.given k = s.given k) (stage : s'.stage = s.stage)
    (phase : s'.fanout.phase = s.fanout.phase) (ended : s'.ended = s.ended) :
    Served s' k f.poll.2 := by
  have same := f.poll_untouched
  obtain ⟨accepted, sound, all⟩ := v.books
  have polled := sound.poll present
  have all := all present
  refine ⟨⟨accepted, ?_, fun _ => all.trans given.symm⟩, ?_, fun reported => ?_,
    fun going still => ?_, fun closed => ?_, v.counted.poll sound present⟩
  · rw [answers]
    exact polled
  · rw [answers, told]
    have first := polled.outputs_prefix
    rw [all] at first
    exact first.trans (s.given_prefix k)
  · rw [answers] at reported ⊢
    obtain ⟨closed, whole⟩ := closed_of_reported polled reported
    rw [whole, all, told]
    exact v.given_of_closed kept (same.closed ▸ closed)
  · rw [same.closed]
    exact v.isOpen (phase ▸ going) (stage ▸ still)
  · rw [ended, told]
    exact v.closed (same.closed ▸ closed)

/-- The output is asked, and the pump is started. -/
theorem skip (v : Served s k f) (answers : s'.answers k = s.answers k ++ [.skip])
    (told : s'.told = s.told) (given : s'.given k = s.given k) (stage : s'.stage = s.stage)
    (running : s.fanout.phase ≠ .stopped) (ended : s'.ended = s.ended) : Served s' k f := by
  obtain ⟨accepted, sound, all⟩ := v.books
  have deliveries : outputs (s'.answers k) = outputs (s.answers k) := by
    rw [answers, outputs_append, outputs_skip, List.append_nil]
  refine ⟨⟨accepted, ?_, fun present => (all present).trans given.symm⟩, ?_, fun reported => ?_,
    fun _ still => v.isOpen running (stage ▸ still), ?_, v.counted⟩
  · rw [answers]
    exact sound.skip
  · rw [deliveries, told]
    exact v.delivered
  · rw [deliveries, told]
    refine v.complete ?_
    rw [answers] at reported
    simpa using reported
  · rw [ended, told]
    exact v.closed

end Served

/-- What every output has been given. -/
def Serves (s : Course α) : Prop :=
  ∀ k f, s.fanout.feeds[k]? = some f → Served s k f

/-- A step by which nothing is handed out and nobody is answered. -/
structure Aside (s s' : Course α) : Prop where
  quiet : s.stage.isHanding = false
  quiet' : s'.stage.isHanding = false
  feeds : s'.fanout.feeds = s.fanout.feeds
  answers : s'.answers = s.answers
  past : s'.past = s.past
  ended : s'.ended = s.ended

theorem Works.aside (works : Works s s') (quiet : s.stage.isHanding = false) : Aside s s' := by
  cases works with
  | miss stage => simp [stage, Stage.isHanding] at quiet
  | see stage => simp [stage, Stage.isHanding] at quiet
  | hand stage => simp [stage, Stage.isHanding] at quiet
  | handed stage => simp [stage, Stage.isHanding] at quiet
  | _ => exact ⟨quiet, rfl, rfl, rfl, rfl, rfl⟩

theorem Works.serves (works : Works s s') (kept : Kept s) (all : Serves s) : Serves s' := by
  cases handing : s.stage.isHanding with
  | false =>
    have aside := works.aside handing
    intro j g there
    rw [aside.feeds] at there
    exact (all j g there).quiet aside.quiet aside.quiet' aside.answers aside.past
      (fun _ => (works.going kept.poised).2) aside.ended
  | true =>
    cases works with
    | @miss a k f stage here gone =>
      intro j g there
      refine (all j g there).round stage rfl rfl rfl rfl rfl ?_
      rintro (present | verdict)
      · -- The output that is passed by is not there.
        have apart : j ≠ k := by
          rintro rfl
          cases here.symm.trans there
          cases gone.symm.trans present
        simp only [decide_eq_decide]
        omega
      · exact absurd rfl (verdict a)
    | see stage =>
      intro j g there
      exact (all j g there).round stage rfl rfl rfl rfl rfl fun _ => rfl
    | @hand said k seen f stage here =>
      refine at_set ?_ ((all k f here).handed kept stage)
      intro j g apart there
      refine (all j g there).round stage rfl rfl rfl rfl rfl fun _ => ?_
      simp only [decide_eq_decide]
      omega
    | @handed said k seen stage behind =>
      intro j g there
      have inside := (List.getElem?_eq_some_iff.mp there).1
      have outside := List.getElem?_eq_none_iff.mp behind
      exact (all j g there).behind kept stage (Nat.lt_of_lt_of_le inside outside)
    | _ => simp [*, Stage.isHanding] at handing

theorem Meets.serves (meets : Meets s s') (all : Serves s) : Serves s' := by
  intro j g there
  cases meets with
  | hears resting phase => exact (all j g there).hears resting phase _
  | broke resting phase =>
    exact (all j g there).quiet (by rw [resting]; rfl) rfl rfl rfl (fun going => absurd rfl going)
      rfl

theorem Step.serves (step : Step s s') (kept : Kept s) (all : Serves s) : Serves s' := by
  cases step with
  | works works => exact works.serves kept all
  | meets meets => exact meets.serves all
  | @refill k f here _ =>
    refine at_set ?_ (all k f here).refill
    intro j g _ there
    exact (all j g there).kept rfl (fun _ => rfl) rfl And.intro rfl
  | @poll k f here present =>
    by_cases idle : s.fanout.phase = .idle
    · rw [poll_of_idle here idle]
      have running : s.fanout.phase ≠ .stopped := by simp [idle]
      intro j g there
      by_cases same : j = k
      · subst same
        exact (all j g there).skip (Function.update_self ..) rfl rfl rfl running rfl
      · exact (all j g there).kept (Function.update_of_ne same ..) (fun _ => rfl) rfl
          (fun _ still => ⟨running, still⟩) rfl
    · rw [poll_of_started here idle]
      refine at_set ?_ ((all k f here).poll kept present (Function.update_self ..) rfl rfl rfl rfl
        rfl)
      intro j g apart there
      exact (all j g there).kept (Function.update_of_ne apart ..) (fun _ => rfl) rfl And.intro rfl
  | @drop k f here present =>
    rcases drop_cases here with only | ⟨idle, -, last⟩
    · rw [only]
      refine at_set ?_ ((all k f here).drop rfl rfl rfl id rfl)
      intro j g _ there
      exact (all j g there).kept rfl (fun _ => rfl) rfl And.intro rfl
    · rw [last]
      refine at_set ?_ ((all k f here).drop rfl rfl rfl (fun going => absurd rfl going) rfl)
      intro j g _ there
      exact (all j g there).kept rfl (fun _ => rfl) rfl (fun going => absurd rfl going) rfl

theorem Reaches.serves (reached : Reaches count buffer s) : Serves s := by
  induction reached with
  | start =>
    intro k f there
    rw [create_feed there]
    exact .start k
  | step reached step ih => exact step.serves reached.kept ih

end Course
end PullStream.Fanout
