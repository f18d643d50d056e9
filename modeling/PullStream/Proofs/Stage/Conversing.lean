import PullStream.Proofs.Machine.Delivery
import PullStream.Proofs.Stage.Dialogue
import PullStream.Proofs.Stage.Via

/-!
Stages in dialogue with their step functions.

The world keeps a log of what is said in a dialogue: `view` shows it, step functions write what
they are asked and what they reply, and nobody else writes. A machine is then used as it may be
by anybody who leaves the log alone (`Machine.Uses`). A stage converses if each of its reactions
is some steps of the dialogue; what its uses come to is a configuration of the dialogue.

* `Converses.uses` — every use of a guarded stage is a dialogue.
* `Converses.wait`, `Patient.output` — what a poll that waits, or that has an output, says.
-/

namespace PullStream

variable {ω α β : Type}

namespace Machine

/-- The uses of a machine in worlds of which `view` shows what the last use has left; all else
may change in between. -/
inductive Uses {ν : Type} (m : Machine ω α) (view : ω → ν) (before : ν) :
    m.State → ν → List (Answer α) → Prop where
  | start : Uses m view before m.start before []
  | poll {s x answers} : Uses m view before s x answers → ∀ now w, view w = x →
      Uses m view before (m.poll s now w).2.1 (view (m.poll s now w).2.2)
        (answers ++ [(m.poll s now w).1])
  | tick {s x answers} : Uses m view before s x answers → ∀ now w, view w = x →
      Uses m view before (m.tick s now w).2.1 (view (m.tick s now w).2.2) answers

/-- A machine that leaves alone what `view` shows. -/
structure Keeps {ν : Type} (m : Machine ω α) (view : ω → ν) : Prop where
  poll : ∀ s now w, view (m.poll s now w).2.2 = view w
  tick : ∀ s now w, view (m.tick s now w).2.2 = view w

end Machine

/-! ### Step functions -/

namespace Dialogue

variable {D : Dialogue α β}

/-- A step function that is called with a question and replies at once, and the log shows it. -/
def Noted (view : ω → List D.Utterance) (q : D.Query) (call : Time → ω → D.Reply q × ω) : Prop :=
  ∀ now w, view (call now w).2 = view w ++ [.asked q, .answered q (call now w).1]

/-- A step function that is called with a question and replies in a while, and the log shows
both when they happen. -/
def NotedLater (view : ω → List D.Utterance) (q : D.Query)
    (call : Time → ω → Deferred ω (D.Reply q) × ω) : Prop :=
  ∀ now w, view (call now w).2 = view w ++ [.asked q] ∧ ∀ now' w',
    view ((call now w).1.finish now' w').2 =
      view w' ++ [.answered q ((call now w).1.finish now' w').1]

end Dialogue

/-! ### Dialogues over one source -/

namespace Dialogue.Config

variable {D : Dialogue α β} {source : Machine ω α} {r r' : source.State}
  {asked asked' : List (Answer α)} {c d : D.Config}

/-- Over a steady source, with replies alike, one of two dialogues leads to the other. -/
theorem comparable_of_steady (steady : source.Steady) (reached : Leads {} c)
    (reached' : Leads {} d) (below : source.Reach r asked) (below' : source.Reach r' asked')
    (taken : c.source = outputs asked) (taken' : d.source = outputs asked')
    (alike : Alike c.log d.log) : Leads c d ∨ Leads d c := by
  refine comparable reached reached' ?_ alike
  rw [taken, taken']
  exact (steady below below').1

/-- The other does not go beyond one that has ended. -/
theorem leads_of_ended (steady : source.Steady) (reached : Leads {} c)
    (reached' : Leads {} d) (below : source.Reach r asked) (below' : source.Reach r' asked')
    (taken : c.source = outputs asked) (taken' : d.source = outputs asked')
    (alike : Alike c.log d.log) (ended : ¬ c.Clean ∨ c.status = .idle ∧ .done ∈ asked) :
    Leads d c := by
  rcases comparable_of_steady steady reached reached' below below' taken taken' alike with
    ahead | behind
  · rcases ended with failed | ⟨idle, done⟩
    · have finished : c.Ended d.source := .inl failed
      exact finished.eq_of_leads List.prefix_rfl ahead ▸ .refl
    · have finished : c.Ended (outputs asked) := .inr ⟨idle, taken⟩
      have bound : d.source <+: outputs asked := taken' ▸ (steady below below').2 done
      exact finished.eq_of_leads bound ahead ▸ .refl
  · exact behind

end Dialogue.Config

/-! ### Stages -/

namespace Transducer

open Dialogue

variable {D : Dialogue α β} {t : Transducer ω α β} {view : ω → List D.Utterance}
  {fits : t.Memory → D.Config → Prop} {source : Machine ω α}

/-- A reaction of a stage, at `c` in its dialogue, that leads to `c'`. -/
structure Speaks (view : ω → List D.Utterance) (fits : t.Memory → D.Config → Prop)
    (c c' : D.Config) (r : Answer β × t.Memory × ω) : Prop where
  leads : c.Leads c'
  fits : fits r.2.1 c'
  log : view r.2.2 = c'.log
  outs : c'.outs = c.outs ++ r.1.output?.toList
  goesOn : r.1 ≠ .done

/-- A reaction of a stage that does not ask its source: it waits for a reply that is due later,
or moves the dialogue on, unless the source has been dropped. -/
structure Reacts (t : Transducer ω α β) (view : ω → List D.Utterance)
    (fits : t.Memory → D.Config → Prop) (m : t.Memory) (c : D.Config) (now : Time)
    (r : Answer β × t.Memory × ω) : Prop where
  holds : t.holds r.2.1 = t.holds m
  waits : r.1 = .wait → ∃ due ∈ t.alarms m, now < due
  speaks : ∃ c', Speaks view fits c c' r ∧ c'.source = c.source ∧
    (r.1 = .wait ∨ t.holds m = false ∨ c.log.length < c'.log.length)

/-- A stage that asks its step functions as the dialogue has it. Its memory tells where it
stands in the dialogue. It passes on failures and the end. -/
structure Converses (t : Transducer ω α β) (D : Dialogue α β) (view : ω → List D.Utterance)
    (fits : t.Memory → D.Config → Prop) : Prop where
  start : fits t.start {}
  held : t.holds t.start = true
  asks : ∀ {m c now w}, fits m c → t.before m now w = none → c.status = .idle ∧ t.holds m = true
  own : ∀ {m c now w r}, fits m c → c.Clean → view w = c.log → t.before m now w = some r →
    Reacts t view fits m c now r
  item : ∀ {m c} a now {w}, fits m c → c.Clean → c.status = .idle → view w = c.log →
    t.holds (t.item m a now w).2.1 = true ∧ (t.item m a now w).1 ≠ .wait ∧
      ∃ c', Speaks view fits c c' (t.item m a now w) ∧ c'.source = c.source ++ [.ok a]
  fail : ∀ m e now w, t.fail m e now w = (.fail e, m, w)
  done : ∀ {m c} now w, fits m c → c.status = .idle →
    (t.done m now w).1 = .done ∧ fits (t.done m now w).2.1 c ∧ (t.done m now w).2.2 = w

/-- How far a guarded stage has come: in its dialogue, and with its source. -/
structure Conversed (source : Machine ω α) (fits : t.Memory → D.Config → Prop)
    (s : (source.via t).State × Bool) (log : List D.Utterance) (answers : List (Answer β))
    (c : D.Config) (asked : List (Answer α)) : Prop where
  reached : ({} : D.Config).Leads c
  log : c.log = log
  outs : c.outs = outputs answers
  taken : c.source = outputs asked
  position : ∃ r, source.Reach r asked ∧ (t.holds s.1.2 = true → r = s.1.1)
  going : s.2 = false → fits s.1.2 c ∧ c.Clean
  failed : s.2 = true → ¬ c.Clean
  left : t.holds s.1.2 = false → .done ∈ answers
  ended : .done ∈ answers → source.Steady → ¬ c.Clean ∨ c.status = .idle ∧ .done ∈ asked
  /-- Until the end, a poll waits, moves the dialogue on, or has the source do nothing. -/
  bounded : .done ∉ answers → busyPolls answers ≤ c.size + idlePolls asked

/-- A reaction of a stage, and its source as far as that has been asked. -/
theorem Conversed.react {s : (source.via t).State} {log : List D.Utterance}
    {answers : List (Answer β)} {c c' : D.Config} {asked asked' : List (Answer α)}
    (conversed : Conversed source fits (s, false) log answers c asked)
    {r : Answer β × t.Memory × ω} (speaks : Speaks view fits c c' r)
    (taken : c'.source = outputs asked') {below : source.State}
    (position : ∃ r', source.Reach r' asked' ∧ (t.holds r.2.1 = true → r' = below))
    (holds : t.holds r.2.1 = false → t.holds s.2 = false) (more : asked ⊆ asked')
    (quiet : idlePolls asked ≤ idlePolls asked')
    (moves : r.1 = .wait ∨ t.holds s.2 = false ∨ c.size < c'.size) :
    Conversed source fits ((below, r.2.1), r.1.isFailure) (view r.2.2) (answers ++ [r.1]) c'
      asked' := by
  have clean := (conversed.going rfl).2
  have earlier : .done ∈ answers ++ [r.1] → .done ∈ answers := by
    simp [Ne.symm speaks.goesOn]
  refine ⟨conversed.reached.trans speaks.leads, speaks.log.symm, ?_, taken, position, ?_, ?_, ?_,
    ?_, ?_⟩
  · rw [speaks.outs, conversed.outs, outputs_append, outputs_singleton]
  · intro goesOn
    refine ⟨speaks.fits, fun e member => ?_⟩
    rw [speaks.outs] at member
    rcases List.mem_append.mp member with old | new
    · exact clean e old
    · have same := Answer.output?_eq_error.mp (Option.mem_toList.mp new)
      rw [Answer.isFailure_iff.mpr ⟨e, same⟩] at goesOn
      cases goesOn
  · intro failed clean'
    obtain ⟨e, same⟩ := Answer.isFailure_iff.mp failed
    apply clean' e
    rw [speaks.outs, same]
    simp [Answer.output?]
  · exact fun left => List.mem_append_left _ (conversed.left (holds left))
  · -- The source has nothing more to hand out, so the dialogue has not moved.
    intro done steady
    rcases conversed.ended (earlier done) steady with failed | ⟨idle, exhausted⟩
    · exact absurd clean failed
    · obtain ⟨_, reached, -⟩ := conversed.position
      obtain ⟨_, reached', -⟩ := position
      have stays : c'.source <+: outputs asked := taken ▸ (steady reached reached').2 exhausted
      have ended : c.Ended (outputs asked) := .inr ⟨idle, conversed.taken⟩
      have same := ended.eq_of_leads stays speaks.leads
      exact .inr ⟨same ▸ idle, more exhausted⟩
  · intro unfinished
    have unfinished : .done ∉ answers := fun done => unfinished (List.mem_append_left _ done)
    have bound := conversed.bounded unfinished
    have grows := Config.Leads.size_le speaks.leads
    rw [busyPolls_concat]
    rcases moves with waits | left | longer
    · simp only [waits, Answer.isWait, if_true]
      omega
    · exact absurd (conversed.left left) unfinished
    · split <;> omega

/-- The answer `r` of a stage leaves it in its dialogue. -/
def Continued (source : Machine ω α) (view : ω → List D.Utterance)
    (fits : t.Memory → D.Config → Prop) (answers : List (Answer β))
    (r : Answer β × (source.via t).State × ω) : Prop :=
  ∃ c asked, Conversed source fits (r.2.1, r.1.isFailure) (view r.2.2) (answers ++ [r.1]) c asked

namespace Converses

variable (converses : Converses t D view fits) (keeps : source.Keeps view)
include converses keeps

/-! A poll of a stage that has not failed, by who answers. -/

section Going

variable {s : (source.via t).State} {answers : List (Answer β)} {c : D.Config}
  {asked : List (Answer α)} {now : Time} {w : ω}

omit keeps in
theorem uses_before (conversed : Conversed source fits (s, false) (view w) answers c asked)
    {r : Answer β × t.Memory × ω} (own : t.before s.2 now w = some r) :
    Continued source view fits answers (Machine.react source t s.2 s.1 r) := by
  obtain ⟨suits, clean⟩ := conversed.going rfl
  obtain ⟨r', reached, held⟩ := conversed.position
  obtain ⟨holds, -, c', speaks, same, moves⟩ := converses.own suits clean conversed.log.symm own
  have stays : source.release t s.2 r.2.1 s.1 = s.1 := by
    simp [Machine.release, holds]
  refine ⟨c', asked, conversed.react speaks (same.trans conversed.taken) ⟨_, reached, ?_⟩
    (fun left => holds ▸ left) (fun _ member => member) (Nat.le_refl _) ?_⟩
  · intro holds'
    exact (held (holds ▸ holds')).trans stays.symm
  · rw [Config.size, Config.size, same, Nat.add_lt_add_iff_left]
    exact moves

/-- A stage that asks its source is idle, and its source is where it has been asked to. -/
theorem asking (conversed : Conversed source fits (s, false) (view w) answers c asked)
    (own : t.before s.2 now w = none) :
    c.status = .idle ∧ t.holds s.2 = true ∧
      source.Reach (source.poll s.1 now w).2.1 (asked ++ [(source.poll s.1 now w).1]) ∧
      view (source.poll s.1 now w).2.2 = c.log := by
  obtain ⟨idle, holds⟩ := converses.asks (conversed.going rfl).1 own
  obtain ⟨_, reached, held⟩ := conversed.position
  cases held holds
  exact ⟨idle, holds, reached.poll now w, (keeps.poll _ _ _).trans conversed.log.symm⟩

theorem uses_item (conversed : Conversed source fits (s, false) (view w) answers c asked)
    {a : α} {p : source.State × ω} (own : t.before s.2 now w = none)
    (polled : source.poll s.1 now w = (.item a, p)) :
    Continued source view fits answers
      (Machine.react source t s.2 p.1 (t.item s.2 a now p.2)) := by
  obtain ⟨suits, clean⟩ := conversed.going rfl
  obtain ⟨idle, -, next, same⟩ := converses.asking keeps conversed own
  rw [polled] at next same
  obtain ⟨holds', -, c', speaks, taken⟩ := converses.item a now suits clean idle same
  refine ⟨c', _, conversed.react speaks ?_ ⟨_, next, fun _ => ?_⟩ ?_
    (List.subset_append_left _ _) ?_ (.inr (.inr ?_))⟩
  · rw [taken, conversed.taken, outputs_append, outputs_item]
  · exact (Machine.release_held _ holds').symm
  · exact fun left => by cases holds'.symm.trans left
  · rw [idlePolls_concat]
    exact Nat.le_add_right _ _
  · have grows := speaks.leads.grows.2.1.length_le
    rw [Config.size, Config.size, taken, List.length_append, List.length_singleton]
    omega

theorem uses_fail (conversed : Conversed source fits (s, false) (view w) answers c asked)
    {e : Failure} {p : source.State × ω} (own : t.before s.2 now w = none)
    (polled : source.poll s.1 now w = (.fail e, p)) :
    Continued source view fits answers
      (Machine.react source t s.2 p.1 (t.fail s.2 e now p.2)) := by
  obtain ⟨idle, holds, next, same⟩ := converses.asking keeps conversed own
  rw [polled] at next same
  rw [converses.fail]
  have goes : c.Goes _ := ⟨(conversed.going rfl).2, .pass (e := e) idle⟩
  have failed : ¬ Config.Clean { c with
      source := c.source ++ [.error e], outs := c.outs ++ [.error e] } :=
    fun clean => clean e (by simp)
  refine ⟨_, _, conversed.reached.tail goes, same.symm, ?_, ?_, ⟨_, next, fun _ => ?_⟩,
    (fun goesOn => by cases goesOn), fun _ => failed, fun left => ?_, fun _ _ => .inl failed,
    fun unfinished => ?_⟩
  · simp [conversed.outs, Machine.react]
  · simp [conversed.taken]
  · exact (Machine.release_held _ holds).symm
  · cases holds.symm.trans left
  · have bound := conversed.bounded fun done => unfinished (List.mem_append_left _ done)
    rw [Config.size] at bound
    simp only [Machine.react, busyPolls_concat, idlePolls_concat, Config.size,
      List.length_append, List.length_singleton, Answer.isWait, Answer.output?]
    simp only [Option.isNone_some, Bool.false_and, Bool.false_eq_true, if_false]
    omega

theorem uses_done (conversed : Conversed source fits (s, false) (view w) answers c asked)
    {p : source.State × ω} (own : t.before s.2 now w = none)
    (polled : source.poll s.1 now w = (.done, p)) :
    Continued source view fits answers (Machine.react source t s.2 p.1 (t.done s.2 now p.2)) := by
  obtain ⟨suits, clean⟩ := conversed.going rfl
  obtain ⟨idle, holds, next, same⟩ := converses.asking keeps conversed own
  rw [polled] at next same
  obtain ⟨ends, suits', world⟩ := converses.done now p.2 suits idle
  refine ⟨c, _, conversed.reached, ?_, ?_, ?_, ⟨_, next, fun holds' => ?_⟩,
    fun _ => ⟨suits', clean⟩, fun failed => ?_, fun _ => ?_,
    fun _ _ => .inr ⟨idle, by simp⟩, fun unfinished => ?_⟩
  · simp only [Machine.react, world]
    exact same.symm
  · simp [Machine.react, ends, conversed.outs]
  · simp [conversed.taken]
  · exact (Machine.release_held _ holds').symm
  · simp only [Machine.react, ends] at failed
    cases failed
  · simp [Machine.react, ends]
  · simp [Machine.react, ends] at unfinished

theorem uses_pass (conversed : Conversed source fits (s, false) (view w) answers c asked)
    {g : Signal} {p : source.State × ω} (own : t.before s.2 now w = none)
    (polled : source.poll s.1 now w = (.signal g, p)) (notFail : ∀ e, g ≠ .fail e)
    (notDone : g ≠ .done) :
    Continued source view fits answers (.signal g, (p.1, s.2), p.2) := by
  obtain ⟨-, -, next, same⟩ := converses.asking keeps conversed own
  rw [polled] at next same
  have nothing : ∀ {γ : Type}, (Answer.signal g : Answer γ).output? = none :=
    Answer.output?_signal notFail
  refine ⟨c, _, conversed.reached, same.symm, ?_, ?_, ⟨_, next, fun _ => rfl⟩,
    fun _ => conversed.going rfl, fun failed => ?_, fun left => ?_, fun done steady => ?_,
    fun unfinished => ?_⟩
  · rw [conversed.outs, outputs_append, outputs_singleton, nothing]
    simp
  · rw [conversed.taken, outputs_append, outputs_singleton, nothing]
    simp
  · obtain ⟨e, same⟩ := Answer.isFailure_iff.mp failed
    injection same with same
    exact absurd same (notFail e)
  · exact List.mem_append_left _ (conversed.left left)
  · have earlier : .done ∈ answers := by
      simpa [Ne.symm notDone] using done
    exact (conversed.ended earlier steady).imp_right
      (And.imp_right (List.mem_append_left _))
  · have bound := conversed.bounded fun done => unfinished (List.mem_append_left _ done)
    have waits : (Answer.signal g : Answer α).isWait = (Answer.signal g : Answer β).isWait := by
      cases g <;> rfl
    rw [busyPolls_concat, idlePolls_concat, nothing, Option.isNone_none, Bool.true_and, waits]
    cases (Answer.signal g : Answer β).isWait <;> simp <;> omega

theorem uses_going (conversed : Conversed source fits (s, false) (view w) answers c asked) :
    Continued source view fits answers ((source.via t).poll s now w) := by
  have polled := Machine.via_poll source t s now w
  generalize (source.via t).poll s now w = answer at polled
  cases polled with
  | before own => exact converses.uses_before conversed own
  | item own polled => exact converses.uses_item keeps conversed own polled
  | fail own polled => exact converses.uses_fail keeps conversed own polled
  | done own polled => exact converses.uses_done keeps conversed own polled
  | pass own polled notFail notDone =>
    exact converses.uses_pass keeps conversed own polled notFail notDone

end Going

/-- Every use of a stage over a source that leaves the log alone is a dialogue. -/
theorem uses {s : (source.via t).guarded.State} {log : List D.Utterance}
    {answers : List (Answer β)} (used : (source.via t).guarded.Uses view [] s log answers) :
    ∃ c asked, Conversed source fits s log answers c asked := by
  induction used with
  | start =>
    refine ⟨{}, [], .refl, rfl, rfl, rfl, ⟨_, .start, fun _ => rfl⟩, fun _ => ⟨converses.start, ?_⟩,
      (fun failed => by cases failed), ?_, (fun done => by cases done), fun _ => Nat.le_refl _⟩
    · exact fun _ => List.not_mem_nil
    · intro left
      cases converses.held.symm.trans left
  | @poll s x answers _ now w same ih =>
    obtain ⟨c, asked, conversed⟩ := ih
    subst same
    obtain ⟨s, failed⟩ := s
    cases failed with
    | false =>
      rw [Machine.guarded_poll_going]
      exact converses.uses_going keeps conversed
    | true =>
      rw [Machine.guarded_poll_failed]
      obtain ⟨reached, log, outs, taken, position, -, failed, left, -⟩ := conversed
      refine ⟨c, asked, reached, log, ?_, taken, position, (fun goesOn => by cases goesOn), failed,
        fun gone => ?_, fun _ _ => .inl (failed rfl), fun unfinished => ?_⟩
      · simp [outs]
      · exact List.mem_append_left _ (left gone)
      · exact absurd (by simp) unfinished
  | @tick s x answers _ now w same ih =>
    obtain ⟨c, asked, conversed⟩ := ih
    obtain ⟨reached, log, outs, taken, ⟨r, below, held⟩, going, failed, left, ended, bounded⟩ :=
      conversed
    have kept : view (source.tick s.1.1 now w).2.2 = x := (keeps.tick _ _ _).trans same
    by_cases holds : t.holds s.1.2 = true
    · cases held holds
      exact ⟨c, asked, reached, log.trans kept.symm, outs, taken,
        ⟨_, below.tick now w, fun _ => rfl⟩, going, failed, left, ended, bounded⟩
    · exact ⟨c, asked, reached, log.trans kept.symm, outs, taken,
        ⟨r, below, fun holds' => absurd holds' holds⟩, going, failed, left, ended, bounded⟩

/-- A poll that waits, waits for the source or for a reply that is due later. -/
theorem wait {s : (source.via t).guarded.State} {answers : List (Answer β)} {c : D.Config}
    {asked : List (Answer α)} {now : Time} {w : ω}
    (conversed : Conversed source fits s (view w) answers c asked)
    (waits : ((source.via t).guarded.poll s now w).1 = .wait) :
    (source.poll s.1.1 now w).1 = .wait ∨
      ∃ due ∈ (source.via t).guarded.alarms s, now < due := by
  obtain ⟨s, failed⟩ := s
  cases failed with
  | true => cases waits
  | false =>
    obtain ⟨suits, clean⟩ := conversed.going rfl
    rw [Machine.guarded_poll_going] at waits
    have polled := Machine.via_poll source t s now w
    generalize (source.via t).poll s now w = answer at polled waits
    cases polled with
    | before own =>
      obtain ⟨-, later, -⟩ := converses.own suits clean conversed.log.symm own
      obtain ⟨due, alarm, early⟩ := later waits
      exact .inr ⟨due, List.mem_append_left _ alarm, early⟩
    | @item a p own polled =>
      obtain ⟨idle, -⟩ := converses.asks suits own
      have same := keeps.poll s.1 now w
      rw [polled] at same
      obtain ⟨-, prompt, -⟩ :=
        converses.item a now suits clean idle (same.trans conversed.log.symm)
      exact absurd waits prompt
    | @fail e p own polled =>
      rw [converses.fail] at waits
      cases waits
    | @done p own polled =>
      obtain ⟨idle, -⟩ := converses.asks suits own
      have ends := (converses.done now p.2 suits idle).1
      cases ends.symm.trans waits
    | pass own polled _ _ =>
      injection waits with same
      left
      rw [polled, same]

end Converses

/-- A stage that has an output only when a reply has come, and asks nothing then. -/
structure Patient (t : Transducer ω α β) (D : Dialogue α β) (view : ω → List D.Utterance)
    (fits : t.Memory → D.Config → Prop) : Prop where
  own : ∀ {m c now w r}, fits m c → t.before m now w = some r → r.1.output? ≠ none →
    ∃ q a, view r.2.2 = view w ++ [.answered q a]
  item : ∀ m a now w, (t.item m a now w).1.output? = none

/-- A poll of a patient stage that has an output asks nothing. -/
theorem Patient.output (patient : Patient t D view fits) (converses : Converses t D view fits)
    (keeps : source.Keeps view) {s : (source.via t).guarded.State} {answers : List (Answer β)}
    {c : D.Config} {asked : List (Answer α)} {now : Time} {w : ω}
    (conversed : Conversed source fits s (view w) answers c asked)
    (puts : ((source.via t).guarded.poll s now w).1.output? ≠ none) :
    ∃ said, view ((source.via t).guarded.poll s now w).2.2 = view w ++ said ∧
      ∀ q, .asked q ∉ said := by
  obtain ⟨s, failed⟩ := s
  cases failed with
  | true => exact absurd rfl puts
  | false =>
    obtain ⟨suits, clean⟩ := conversed.going rfl
    rw [Machine.guarded_poll_going] at puts ⊢
    have polled := Machine.via_poll source t s now w
    generalize (source.via t).poll s now w = answer at polled puts ⊢
    cases polled with
    | before own =>
      obtain ⟨q, a, said⟩ := patient.own suits own puts
      exact ⟨_, said, by simp⟩
    | item => exact absurd (patient.item _ _ _ _) puts
    | @fail e p own polled =>
      have same := keeps.poll s.1 now w
      rw [polled] at same
      rw [converses.fail]
      exact ⟨[], same.trans (List.append_nil _).symm, fun q => List.not_mem_nil⟩
    | @done p own polled =>
      obtain ⟨idle, -⟩ := converses.asks suits own
      have ends : (t.done s.2 now p.2).1 = .done := (converses.done now p.2 suits idle).1
      rw [Machine.react, ends] at puts
      exact absurd rfl puts
    | pass own polled notFail _ => exact absurd (Answer.output?_signal notFail) puts

end Transducer
end PullStream
