import PullStream.Proofs.Fanout.Served

/-!
How a fan-out is paced.

Its pump is started once, by the first output that is asked (`Begun`). An output that has been
found to have room keeps it until it gets the next item, whatever happens in between: it can
only hand out items, or go (`Roomy`). So no output holds more than it may, and the source is
never further ahead of an output than that. While the pump waits for room its waiter has not
been woken, and what it has seen still holds (`Watched`).

* `Course.Reaches.begun` — one pump.
* `Course.Reaches.roomy`, `Course.Roomy.ahead` — how much outputs hold.
* `Course.Reaches.parked` — why a pump does nothing.
-/

namespace PullStream.Fanout.Course

open Feed (Alerted Consumed drop_consumed poll_consumed refill_consumed)

variable {α : Type} {s s' : Course α} {count buffer : Nat}

/-! ### The start -/

/-- Either nobody has been asked, or the only pump has been started. -/
inductive Begun (s : Course α) : Prop where
  | fresh : s.starts = 0 → (∀ k, s.answers k = []) → s.past = [] → s.stage = .resting →
      s.fanout.phase = .idle ∨ s.fanout.phase = .stopped ∧ s.fanout.abandoned = true → Begun s
  | started {k} : s.starts = 1 → s.answers k ≠ [] → s.fanout.phase ≠ .idle → Begun s

/-- As long as an output is there, a fan-out that has not been asked for anything may be. -/
theorem Begun.idle_of_fresh (b : Begun s) {k : Nat} {f : Feed α}
    (there : s.fanout.feeds[k]? = some f) (present : f.abandoned = false)
    (fresh : s.starts = 0) : s.fanout.phase = .idle := by
  cases b with
  | fresh _ _ _ _ out =>
    rcases out with idle | ⟨-, gone⟩
    · exact idle
    · have all := List.all_eq_true.mp gone f (List.mem_of_getElem? there)
      cases present.symm.trans all
  | started once => cases fresh.symm.trans once

/-- Where nobody is asked a pump that has been started goes on, or stops. -/
theorem Begun.goes (b : Begun s) (running : s.fanout.phase ≠ .idle ∧ s.fanout.phase ≠ .stopped)
    (starts : s'.starts = s.starts) (answers : s'.answers = s.answers)
    (phase : s'.fanout.phase ≠ .idle) : Begun s' := by
  cases b with
  | fresh _ _ _ _ out =>
    rcases out with idle | ⟨stopped, -⟩
    · exact absurd idle running.1
    · exact absurd stopped running.2
  | @started k once asked _ => exact .started (starts.trans once) (answers ▸ asked) phase

theorem Works.begun (works : Works s s') (poised : Poised s.fanout s.stage) (b : Begun s) :
    Begun s' := by
  have running := works.going poised
  cases works with
  | lookOn => exact b.goes running rfl rfl running.1
  | miss => exact b.goes running rfl rfl running.1
  | see => exact b.goes running rfl rfl running.1
  | hand => exact b.goes running rfl rfl running.1
  | @handed said =>
    refine b.goes running rfl rfl ?_
    rcases said with _ | e | a
    · simp [Phase.behind]
    · simp [Phase.behind]
    · simp [Phase.behind]
  | _ => exact b.goes running rfl rfl (by simp)

theorem Step.begun (step : Step s s') (poised : Poised s.fanout s.stage) (b : Begun s) :
    Begun s' := by
  cases step with
  | works works => exact works.begun poised b
  | meets meets =>
    cases meets with
    | hears _ phase => exact b.goes (by simp [phase]) rfl rfl (by simp [phase])
    | broke _ phase => exact b.goes (by simp [phase]) rfl rfl (by simp)
  | refill there present =>
    cases b with
    | fresh zero unasked past resting out =>
      have idle := Begun.idle_of_fresh (.fresh zero unasked past resting out) there present zero
      exact .fresh zero unasked past resting (.inl idle)
    | started once asked phase => exact .started once asked phase
  | @poll k f there present =>
    have asked : Function.update s.answers k (s.answers k ++ [(s.fanout.poll k).1]) k ≠ [] := by
      simp
    by_cases idle : s.fanout.phase = .idle
    · cases b with
      | fresh zero =>
        refine .started ?_ asked ?_
        · simp [zero, idle]
        · rw [poll_of_idle there idle]
          simp
      | started _ _ phase => exact absurd idle phase
    · cases b with
      | fresh zero unasked past resting out =>
        exact absurd
          (Begun.idle_of_fresh (.fresh zero unasked past resting out) there present zero) idle
      | started once =>
        refine .started ?_ asked ?_
        · simp [once, idle]
        · rw [poll_of_started there idle]
          exact idle
  | @drop k f there present =>
    rcases drop_cases there with only | ⟨idle, gone, last⟩
    · rw [only]
      cases b with
      | fresh zero unasked past resting out =>
        have idle := Begun.idle_of_fresh (.fresh zero unasked past resting out) there present zero
        exact .fresh zero unasked past resting (.inl idle)
      | started once asked phase => exact .started once asked phase
    · rw [last]
      cases b with
      | fresh zero unasked past resting out =>
        exact .fresh zero unasked past resting (.inr ⟨rfl, gone⟩)
      | started _ _ phase => exact absurd idle phase

theorem Reaches.begun (reached : Reaches count buffer s) : Begun s := by
  induction reached with
  | start => exact .fresh rfl (fun _ => rfl) rfl rfl (.inl rfl)
  | step reached step ih => exact step.begun reached.kept.poised ih

/-- A fan-out has one pump at most: it is started when an output is asked for the first time,
and before that the source is left alone. -/
theorem Begun.once (b : Begun s) :
    s.starts ≤ 1 ∧ (s.starts = 0 ↔ ∀ k, s.answers k = []) ∧ (s.starts = 0 → s.told = []) := by
  cases b with
  | fresh zero unasked past resting _ =>
    refine ⟨by omega, ⟨fun _ => unasked, fun _ => zero⟩, fun _ => ?_⟩
    rw [told_quiet (by rw [resting]; rfl), past]
  | @started k once asked _ =>
    refine ⟨by omega, ⟨fun zero => ?_, fun unasked => absurd (unasked k) asked⟩, fun zero => ?_⟩
    · omega
    · omega

/-! ### Room -/

/-- Whether the pump has found that an output has room and has not used it since. -/
def Cleared (s : Course α) (k : Nat) : Prop :=
  match s.stage, s.fanout.phase with
  | .handing _ j _, _ => j ≤ k
  | _, .checking j => k < j
  | _, .waiting j _ => k < j
  | _, .pulling => True
  | _, _ => False

theorem cleared_checking (quiet : s.stage.isHanding = false) {j : Nat}
    (phase : s.fanout.phase = .checking j) (k : Nat) : s.Cleared k ↔ k < j := by
  cases stage : s.stage with
  | handing =>
    rw [stage] at quiet
    cases quiet
  | _ => simp [Cleared, stage, phase]

theorem cleared_handing {said : Option (Except Failure α)} {j : Nat} {seen : Bool}
    (stage : s.stage = .handing said j seen) (k : Nat) : s.Cleared k ↔ j ≤ k := by
  simp [Cleared, stage]

/-- How much the output of number `k`, with the feed `f`, holds. -/
structure Roomy (s : Course α) (k : Nat) (f : Feed α) : Prop where
  within : f.pending ≤ s.fanout.buffer
  cleared : s.Cleared k → f.abandoned = true ∨ f.pending < s.fanout.buffer
  seen : ∀ {said}, s.stage = .handing said k true → f.pending < s.fanout.buffer

namespace Roomy

variable {k : Nat} {f f' : Feed α}

/-- An output that holds no more than before keeps its room. -/
theorem kept (r : Roomy s k f) (buffer : s'.fanout.buffer = s.fanout.buffer)
    (less : f'.pending ≤ f.pending) (abandoned : f.abandoned = true → f'.abandoned = true)
    (cleared : s'.Cleared k → s.Cleared k)
    (seen : ∀ {said}, s'.stage = .handing said k true → ∃ said', s.stage = .handing said' k true) :
    Roomy s' k f' := by
  refine ⟨?_, fun now => ?_, fun stage => ?_⟩
  · rw [buffer]
    exact Nat.le_trans less r.within
  · rw [buffer]
    rcases r.cleared (cleared now) with gone | room
    · exact .inl (abandoned gone)
    · exact .inr (Nat.lt_of_le_of_lt less room)
  · rw [buffer]
    obtain ⟨said', stage⟩ := seen stage
    exact Nat.lt_of_le_of_lt less (r.seen stage)

/-- Where the pump moves on, and finds room perhaps. -/
theorem moved (r : Roomy s k f) {phase : Phase} {stage : Stage α}
    (quiet : stage.isHanding = false) (cleared : (s.moved phase stage).Cleared k →
      s.Cleared k ∨ f.abandoned = true ∨ f.pending < s.fanout.buffer) :
    Roomy (s.moved phase stage) k f := by
  refine ⟨r.within, fun now => ?_, fun handing => ?_⟩
  · rcases cleared now with before | found
    · exact r.cleared before
    · exact found
  · rw [show stage = _ from handing] at quiet
    cases quiet

/-- Past an output there is room at one more. -/
theorem passed (r : Roomy s k f) (quiet : s.stage.isHanding = false) {j : Nat}
    (phase : s.fanout.phase = .checking j)
    (found : k = j → f.abandoned = true ∨ f.pending < s.fanout.buffer) :
    Roomy (s.moved (.checking (j + 1)) .resting) k f := by
  refine r.moved rfl fun now => ?_
  rw [cleared_checking rfl rfl] at now
  rw [cleared_checking quiet phase]
  rcases Nat.lt_succ_iff_lt_or_eq.mp now with before | here
  · exact .inl before
  · exact .inr (found here)

/-- Where the pump stays at an output. -/
theorem stayed (r : Roomy s k f) (quiet : s.stage.isHanding = false) {j : Nat}
    (phase : s.fanout.phase = .checking j) {stage : Stage α} (quiet' : stage.isHanding = false) :
    Roomy (s.moved (.checking j) stage) k f := by
  refine r.moved quiet' fun now => ?_
  rw [cleared_checking quiet' rfl] at now
  rw [cleared_checking quiet phase]
  exact .inl now

/-- Where the pump goes on to the next output with what the source has said. -/
theorem goneOn (r : Roomy s k f) {said : Option (Except Failure α)} {j : Nat} {seen : Bool}
    (stage : s.stage = .handing said j seen) {fanout : Fanout α}
    (buffer : fanout.buffer = s.fanout.buffer) :
    Roomy { s with fanout, stage := .handing said (j + 1) false } k f := by
  refine r.kept buffer (Nat.le_refl _) id (fun now => ?_) (by simp)
  rw [cleared_handing rfl] at now
  rw [cleared_handing stage]
  omega

/-- The room that an output has been seen to have is there for the item that it gets. -/
theorem fed (r : Roomy s k f) (isOpen : f.closed = false) {said : Option (Except Failure α)}
    {seen : Bool} (stage : s.stage = .handing said k seen)
    (isSeen : ∀ a, said = some (.ok a) → seen = true) :
    Roomy { s.withFeed k (put f said) with stage := .handing said (k + 1) false } k
      (put f said) := by
  have gets := (put_gets isOpen said).pending
  refine ⟨?_, fun now => ?_, by simp⟩
  · rcases said with _ | e | a
    · exact gets ▸ r.within
    · exact gets ▸ r.within
    · rw [gets]
      exact r.seen (isSeen a rfl ▸ stage)
  · rw [cleared_handing rfl] at now
    omega

end Roomy

theorem Works.roomy (works : Works s s') (limited : 0 < s.fanout.buffer) (kept : Kept s)
    (served : Serves s) (all : ∀ k f, s.fanout.feeds[k]? = some f → Roomy s k f) :
    ∀ k f, s'.fanout.feeds[k]? = some f → Roomy s' k f := by
  have poised := kept.poised
  cases works with
  | pass _ _ _ unlimited => exact absurd unlimited (Nat.ne_of_gt limited)
  | register resting phase =>
    intro j g there
    exact (all j g there).stayed (by rw [resting]; rfl) phase rfl
  | @skip k read f stage here gone =>
    rw [stage] at poised
    intro j g there
    refine (all j g there).passed (by rw [stage]; rfl) poised.1 ?_
    rintro rfl
    cases here.symm.trans there
    exact .inl gone
  | stay stage =>
    rw [stage] at poised
    intro j g there
    exact (all j g there).stayed (by rw [stage]; rfl) poised.1 rfl
  | @room k read f stage here room =>
    rw [stage] at poised
    intro j g there
    refine (all j g there).passed (by rw [stage]; rfl) poised.1 ?_
    rintro rfl
    cases here.symm.trans there
    exact .inr room
  | full stage =>
    rw [stage] at poised
    intro j g there
    refine (all j g there).moved rfl fun now => ?_
    rw [cleared_checking (by rw [stage]; rfl) poised.1]
    exact .inl now
  | notice resting phase =>
    intro j g there
    refine (all j g there).moved rfl fun now => ?_
    rw [Cleared, resting, phase]
    exact .inl now
  | turn resting phase =>
    intro j g there
    exact (all j g there).stayed (by rw [resting]; rfl) phase rfl
  | lookOn stage =>
    rw [stage] at poised
    obtain ⟨k, phase, -⟩ := poised
    intro j g there
    refine (all j g there).kept rfl (Nat.le_refl _) id (fun now => ?_) (by simp)
    have before : j < k := (cleared_checking rfl (by exact phase) j).mp now
    rwa [cleared_checking (by rw [stage]; rfl) phase]
  | pull stage =>
    rw [stage] at poised
    obtain ⟨k, phase, behind⟩ := poised
    intro j g there
    refine (all j g there).moved rfl fun _ => ?_
    rw [cleared_checking (by rw [stage]; rfl) phase]
    have inside := (List.getElem?_eq_some_iff.mp there).1
    exact .inl (Nat.lt_of_lt_of_le inside (List.getElem?_eq_none_iff.mp behind))
  | leave stage =>
    intro j g there
    exact (all j g there).moved rfl False.elim
  | miss stage =>
    intro j g there
    exact (all j g there).goneOn stage rfl
  | @see a k f stage here present =>
    intro j g there
    obtain ⟨within, cleared, -⟩ := all j g there
    rw [cleared_handing stage] at cleared
    refine ⟨within, fun now => cleared ((cleared_handing rfl j).mp now), fun handing => ?_⟩
    injection handing with _ same
    subst same
    cases here.symm.trans there
    rcases cleared (Nat.le_refl _) with gone | room
    · cases gone.symm.trans present
    · exact room
  | @hand said k seen f stage here isSeen =>
    have isOpen := (served k f here).open_of_handing kept stage
    refine at_set ?_ ((all k f here).fed isOpen stage isSeen)
    intro j g _ there
    exact (all j g there).goneOn stage rfl
  | @handed said k seen stage behind =>
    intro j g there
    refine (all j g there).kept rfl (Nat.le_refl _) id (fun now => ?_) (by simp)
    rcases said with _ | e | a
    · exact now.elim
    · exact now.elim
    · exact absurd now (Nat.not_lt_zero j)

theorem Meets.roomy (meets : Meets s s')
    (all : ∀ k f, s.fanout.feeds[k]? = some f → Roomy s k f) :
    ∀ k f, s'.fanout.feeds[k]? = some f → Roomy s' k f := by
  intro j g there
  cases meets with
  | hears resting phase =>
    refine (all j g there).kept rfl (Nat.le_refl _) id (fun _ => ?_) (by simp)
    rw [Cleared, resting, phase]
    trivial
  | broke => exact (all j g there).moved rfl False.elim

theorem Step.roomy (step : Step s s') (limited : 0 < s.fanout.buffer) (kept : Kept s)
    (served : Serves s) (all : ∀ k f, s.fanout.feeds[k]? = some f → Roomy s k f) :
    ∀ k f, s'.fanout.feeds[k]? = some f → Roomy s' k f := by
  cases step with
  | works works => exact works.roomy limited kept served all
  | meets meets => exact meets.roomy all
  | @refill k f here _ =>
    have same := f.refill_untouched
    refine at_set ?_ ?_
    · intro j g _ there
      exact (all j g there).kept rfl (Nat.le_refl _) id id fun stage => ⟨_, stage⟩
    · exact (all k f here).kept rfl (Nat.le_of_eq f.refill_pending)
        (fun gone => same.abandoned.trans gone) id fun stage => ⟨_, stage⟩
  | @poll k f here present =>
    by_cases idle : s.fanout.phase = .idle
    · have resting := kept.poised.resting (.inl idle)
      rw [poll_of_idle here idle]
      intro j g there
      refine (all j g there).kept rfl (Nat.le_refl _) id (fun now => ?_) fun stage => ⟨_, stage⟩
      simp [Cleared, resting] at now
    · rw [poll_of_started here idle]
      have same := f.poll_untouched
      refine at_set ?_ ?_
      · intro j g _ there
        exact (all j g there).kept rfl (Nat.le_refl _) id id fun stage => ⟨_, stage⟩
      · exact (all k f here).kept rfl f.poll_pending_le (fun gone => same.abandoned.trans gone) id
          fun stage => ⟨_, stage⟩
  | @drop k f here _ =>
    rcases drop_cases here with only | ⟨idle, -, last⟩
    · rw [only]
      refine at_set ?_ ?_
      · intro j g _ there
        exact (all j g there).kept rfl (Nat.le_refl _) id id fun stage => ⟨_, stage⟩
      · exact (all k f here).kept rfl (Nat.le_refl _) (fun _ => rfl) id fun stage => ⟨_, stage⟩
    · have resting := kept.poised.resting (.inl idle)
      rw [last]
      refine at_set ?_ ?_
      · intro j g _ there
        refine (all j g there).kept rfl (Nat.le_refl _) id (fun now => ?_) fun stage => ⟨_, stage⟩
        simp [Cleared, resting] at now
      · refine (all k f here).kept rfl (Nat.le_refl _) (fun _ => rfl) (fun now => ?_)
          fun stage => ⟨_, stage⟩
        simp [Cleared, resting] at now

/-! ### What never changes -/

theorem Works.constant (works : Works s s') :
    s'.fanout.buffer = s.fanout.buffer ∧ s'.fanout.feeds.length = s.fanout.feeds.length := by
  cases works with
  | hand => exact ⟨rfl, List.length_set⟩
  | _ => exact ⟨rfl, rfl⟩

theorem Step.constant (step : Step s s') :
    s'.fanout.buffer = s.fanout.buffer ∧ s'.fanout.feeds.length = s.fanout.feeds.length := by
  cases step with
  | works works => exact works.constant
  | meets meets => cases meets <;> exact ⟨rfl, rfl⟩
  | refill => exact ⟨rfl, List.length_set⟩
  | poll there =>
    by_cases idle : s.fanout.phase = .idle
    · rw [poll_of_idle there idle]
      exact ⟨rfl, rfl⟩
    · rw [poll_of_started there idle]
      exact ⟨rfl, List.length_set⟩
  | drop there =>
    rcases drop_cases there with only | ⟨-, -, last⟩
    · rw [only]
      exact ⟨rfl, List.length_set⟩
    · rw [last]
      exact ⟨rfl, List.length_set⟩

theorem Reaches.constant (reached : Reaches count buffer s) :
    s.fanout.buffer = buffer ∧ s.fanout.feeds.length = count := by
  induction reached with
  | start => exact ⟨rfl, List.length_replicate⟩
  | step _ step ih =>
    obtain ⟨same, size⟩ := step.constant
    exact ⟨same.trans ih.1, size.trans ih.2⟩

theorem Reaches.roomy (limited : 0 < buffer) (reached : Reaches count buffer s) :
    ∀ k f, s.fanout.feeds[k]? = some f → Roomy s k f := by
  induction reached with
  | start =>
    intro k f there
    rw [create_feed there]
    exact ⟨Nat.zero_le _, False.elim, by simp⟩
  | step reached step ih =>
    exact step.roomy (reached.constant.1 ▸ limited) reached.kept reached.serves ih

/-- The source is no further ahead of an output that is there than the output may hold. -/
theorem Roomy.ahead {k : Nat} {f : Feed α} (r : Roomy s k f) (v : Served s k f)
    (present : f.abandoned = false) :
    (itemsOf s.told).length ≤ s.fanout.buffer + (itemsOf (outputs (s.answers k))).length := by
  obtain ⟨accepted, sound, all⟩ := v.books
  obtain ⟨waiting, same, queue⟩ := sound.conserved
  have holds : (itemsOf (s.given k)).length =
      (itemsOf (outputs (s.answers k))).length + f.pending := by
    rw [← all present, same, itemsOf_append, List.length_append, ← queue present,
      v.counted.exact present]
  have within := r.within
  cases served : s.stage.served k with
  | true =>
    have given : s.given k = s.told := by rw [given, served, if_pos rfl, told]
    rw [given] at holds
    omega
  | false =>
    have given : s.told = s.given k ++ s.stage.saying := by rw [given, served, told]; simp
    rw [given, itemsOf_append, List.length_append]
    cases stage : s.stage with
    | handing said j seen =>
      -- The output is still to get the item for which it has room.
      have before : j ≤ k := by simpa [stage, Stage.served] using served
      rcases r.cleared ((cleared_handing stage k).mpr before) with gone | room
      · cases gone.symm.trans present
      · have one : (itemsOf said.toList).length ≤ 1 := by
          rcases said with _ | e | a
          · exact Nat.zero_le _
          · exact Nat.zero_le _
          · exact Nat.le_refl _
        simp only [Stage.saying]
        omega
    | _ =>
      simp only [Stage.saying, itemsOf, List.filterMap_nil, List.length_nil] at holds ⊢
      omega

/-! ### Waiting for room -/

/-- What has been seen of the output at which the pump stands, or waits. -/
structure Watched (s : Course α) : Prop where
  registered : ∀ {k read}, s.stage = .registered k read →
    ∃ f, s.fanout.feeds[k]? = some f ∧ read.Made f
  attended : ∀ {k read}, s.stage = .attended k read →
    ∃ f, s.fanout.feeds[k]? = some f ∧ Alerted read f
  waiting : ∀ {k read}, s.fanout.phase = .waiting k read → 0 < s.fanout.buffer ∧
    ∃ f, s.fanout.feeds[k]? = some f ∧ Alerted read f ∧
      s.fanout.buffer + read.seen ≤ f.pending + f.reads

namespace Watched

/-- A pump that stands at no output has seen nothing. -/
theorem of_apart (registered : ∀ {k read}, s.stage ≠ .registered k read)
    (attended : ∀ {k read}, s.stage ≠ .attended k read)
    (waiting : ∀ {k read}, s.fanout.phase ≠ .waiting k read) : Watched s :=
  ⟨fun stage => absurd stage registered, fun stage => absurd stage attended,
    fun phase => absurd phase waiting⟩

/-- What has been seen holds, whatever the consumers do. -/
theorem later (w : Watched s) (stage : s'.stage = s.stage)
    (phase : ∀ {k read}, s'.fanout.phase = .waiting k read → s.fanout.phase = .waiting k read)
    (buffer : s'.fanout.buffer = s.fanout.buffer)
    (consumed : ∀ {k : Nat} {f}, s.fanout.feeds[k]? = some f →
      ∃ f', s'.fanout.feeds[k]? = some f' ∧ Consumed f f') : Watched s' := by
  refine ⟨fun now => ?_, fun now => ?_, fun now => ?_⟩
  · obtain ⟨f, there, made⟩ := w.registered (stage ▸ now)
    obtain ⟨f', there', took⟩ := consumed there
    exact ⟨f', there', made.mono took.reads⟩
  · obtain ⟨f, there, alerted⟩ := w.attended (stage ▸ now)
    obtain ⟨f', there', took⟩ := consumed there
    exact ⟨f', there', alerted.later took⟩
  · obtain ⟨limited, f, there, alerted, full⟩ := w.waiting (phase now)
    obtain ⟨f', there', took⟩ := consumed there
    rw [buffer]
    exact ⟨limited, f', there', alerted.later took, Nat.le_trans full took.counts⟩

end Watched

theorem Works.watched (works : Works s s') (poised : Poised s.fanout s.stage) (w : Watched s) :
    Watched s' := by
  cases works with
  | register resting phase here =>
    refine ⟨?_, by simp, by simp⟩
    intro k' read' stage
    cases stage
    exact ⟨_, here, Feed.waiter_made _⟩
  | stay stage here present =>
    refine ⟨by simp, ?_, by simp⟩
    intro k' read' stage'
    cases stage'
    obtain ⟨f, there, made⟩ := w.registered stage
    cases here.symm.trans there
    exact ⟨_, here, .of_present made present⟩
  | full stage here full =>
    rw [stage] at poised
    refine ⟨by simp, by simp, ?_⟩
    intro k' read' phase
    cases phase
    obtain ⟨f, there, alerted⟩ := w.attended stage
    cases here.symm.trans there
    exact ⟨poised.2, _, here, alerted, Nat.add_le_add full alerted.made.2⟩
  | lookOn stage =>
    rw [stage] at poised
    obtain ⟨k, phase, -⟩ := poised
    exact .of_apart (by simp) (by simp) (by simp [phase])
  | miss stage =>
    rw [stage] at poised
    exact .of_apart (by simp) (by simp) (by simp [show s.fanout.phase = .pulling from poised])
  | see stage =>
    rw [stage] at poised
    exact .of_apart (by simp) (by simp) (by simp [show s.fanout.phase = .pulling from poised])
  | hand stage =>
    rw [stage] at poised
    refine .of_apart (by simp) (by simp) ?_
    simp [withFeed, show s.fanout.phase = .pulling from poised]
  | @handed said =>
    refine .of_apart (by simp) (by simp) ?_
    rcases said with _ | e | a
    · simp [Phase.behind]
    · simp [Phase.behind]
    · simp [Phase.behind]
  | _ => exact .of_apart (by simp) (by simp) (by simp)

theorem Step.watched (step : Step s s') (poised : Poised s.fanout s.stage) (served : Serves s)
    (w : Watched s) : Watched s' := by
  -- The consumer of one output is of no concern to the others.
  have only : ∀ {k : Nat} {f f'}, s.fanout.feeds[k]? = some f → Consumed f f' → ∀ {j : Nat} {g},
      s.fanout.feeds[j]? = some g → ∃ g', (s.fanout.feeds.set k f')[j]? = some g' ∧
        Consumed g g' := by
    intro k f f' here took j g there
    by_cases same : k = j
    · subst same
      cases here.symm.trans there
      have bound := (List.getElem?_eq_some_iff.mp here).1
      exact ⟨f', by simp [bound], took⟩
    · exact ⟨g, by rwa [List.getElem?_set_ne same], .refl g⟩
  cases step with
  | works works => exact works.watched poised w
  | meets meets =>
    cases meets with
    | hears _ phase => exact .of_apart (by simp) (by simp) (by simp [phase])
    | broke => exact .of_apart (by simp) (by simp) (by simp)
  | refill here => exact w.later rfl id rfl (only here (refill_consumed _))
  | poll here present =>
    by_cases idle : s.fanout.phase = .idle
    · rw [poll_of_idle here idle]
      have resting := poised.resting (.inl idle)
      exact .of_apart (by simp [resting]) (by simp [resting]) (by simp)
    · rw [poll_of_started here idle]
      exact w.later rfl id rfl (only here (poll_consumed (served _ _ here).counted present))
  | drop here =>
    rcases drop_cases here with dropped | ⟨idle, -, last⟩
    · rw [dropped]
      exact w.later rfl id rfl (only here (drop_consumed _))
    · rw [last]
      have resting := poised.resting (.inl idle)
      exact .of_apart (by simp [resting]) (by simp [resting]) (by simp)

theorem Reaches.watched (reached : Reaches count buffer s) : Watched s := by
  induction reached with
  | start => exact .of_apart (by simp) (by simp) (by simp [create])
  | step reached step ih => exact step.watched reached.kept.poised reached.serves ih

/-- A pump that waits at an output, and has not been woken, waits for room: the output is there
and full. -/
theorem Watched.full (w : Watched s) {k : Nat} {read : Feed.Waiter}
    (phase : s.fanout.phase = .waiting k read) {f : Feed α}
    (there : s.fanout.feeds[k]? = some f) (unresolved : read.resolved f = false) :
    0 < s.fanout.buffer ∧ f.abandoned = false ∧ s.fanout.buffer ≤ f.pending := by
  obtain ⟨limited, f', there', alerted, full⟩ := w.waiting phase
  cases there.symm.trans there'
  have same := alerted.made.reads_eq unresolved
  refine ⟨limited, ?_, ?_⟩
  · by_contra gone
    have later := alerted.gone (by simpa using gone)
    omega
  · omega

/-- Between two calls it does nothing unless it is about to look for room, as long as its waiter has
not been woken. -/
theorem still_of_resting (resting : s.stage = .resting)
    (away : ∀ {k}, s.fanout.phase ≠ .checking k)
    (asleep : ∀ {k read f}, s.fanout.phase = .waiting k read → s.fanout.feeds[k]? = some f →
      read.resolved f = false) : ∀ s', ¬ Works s s' := by
  intro s' works
  cases works with
  | pass _ calls => exact away calls
  | register _ calls => exact away calls
  | notice _ waits here woken => cases woken.symm.trans (asleep waits here)
  | turn _ calls => exact away calls
  | skip stage => cases resting.symm.trans stage
  | stay stage => cases resting.symm.trans stage
  | room stage => cases resting.symm.trans stage
  | full stage => cases resting.symm.trans stage
  | lookOn stage => cases resting.symm.trans stage
  | pull stage => cases resting.symm.trans stage
  | leave stage => cases resting.symm.trans stage
  | miss stage => cases resting.symm.trans stage
  | see stage => cases resting.symm.trans stage
  | hand stage => cases resting.symm.trans stage
  | handed stage => cases resting.symm.trans stage

theorem still_of_waiting (resting : s.stage = .resting) {k : Nat} {read : Feed.Waiter}
    (phase : s.fanout.phase = .waiting k read) {f : Feed α}
    (there : s.fanout.feeds[k]? = some f) (unresolved : read.resolved f = false) :
    ∀ s', ¬ Works s s' := by
  refine still_of_resting resting (by simp [phase]) fun waits here => ?_
  cases phase.symm.trans waits
  cases there.symm.trans here
  exact unresolved

/-- A pump that can do nothing by itself has asked its source, or waits for an output that is
there and full. -/
theorem Reaches.parked (reached : Reaches count buffer s) (started : s.fanout.phase ≠ .idle)
    (going : s.fanout.phase ≠ .stopped) (still : ∀ s', ¬ Works s s') :
    s.stage = .resting ∧ s.fanout.phase = .pulling ∨
      0 < s.fanout.buffer ∧ ∃ (k : Nat) (f : Feed α), s.fanout.feeds[k]? = some f ∧
        f.abandoned = false ∧ s.fanout.buffer ≤ f.pending := by
  have watched := reached.watched
  cases stage : s.stage with
  | resting =>
    cases phase : s.fanout.phase with
    | idle => exact absurd phase started
    | stopped => exact absurd phase going
    | pulling => exact .inl ⟨rfl, rfl⟩
    | checking k =>
      cases there : s.fanout.feeds[k]? with
      | none => exact absurd (.turn stage phase there) (still _)
      | some f =>
        rcases Nat.eq_zero_or_pos s.fanout.buffer with unlimited | limited
        · exact absurd (.pass stage phase there unlimited) (still _)
        · exact absurd (.register stage phase there limited) (still _)
    | waiting k read =>
      obtain ⟨-, f, there, -⟩ := watched.waiting phase
      cases woken : read.resolved f with
      | true => exact absurd (.notice stage phase there woken) (still _)
      | false =>
        obtain ⟨limited, full⟩ := watched.full phase there woken
        exact .inr ⟨limited, k, f, there, full⟩
  | registered k read =>
    obtain ⟨f, there, -⟩ := watched.registered stage
    cases gone : f.abandoned with
    | true => exact absurd (.skip stage there gone) (still _)
    | false => exact absurd (.stay stage there gone) (still _)
  | attended k read =>
    obtain ⟨f, there, -⟩ := watched.attended stage
    rcases Nat.lt_or_ge f.pending s.fanout.buffer with room | full
    · exact absurd (.room stage there room) (still _)
    · exact absurd (.full stage there full) (still _)
  | looking k =>
    cases there : s.fanout.feeds[k]? with
    | none => exact absurd (.leave stage there) (still _)
    | some f =>
      cases gone : f.abandoned with
      | true => exact absurd (.lookOn stage there gone) (still _)
      | false => exact absurd (.pull stage there gone) (still _)
  | handing said k seen =>
    cases there : s.fanout.feeds[k]? with
    | none => exact absurd (.handed stage there) (still _)
    | some f =>
      rcases said with _ | e | a
      · exact absurd (.hand stage there (by simp)) (still _)
      · exact absurd (.hand stage there (by simp)) (still _)
      · cases seen with
        | true => exact absurd (.hand stage there fun _ _ => rfl) (still _)
        | false =>
          cases gone : f.abandoned with
          | true => exact absurd (.miss stage there gone) (still _)
          | false => exact absurd (.see stage there gone) (still _)

end PullStream.Fanout.Course
