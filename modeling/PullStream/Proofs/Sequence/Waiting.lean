import PullStream.Proofs.Finishing
import PullStream.Proofs.Stage.Asking
import PullStream.Proofs.Visiting
import PullStream.Sequence

/-!
Step functions that take a while add waiting, and nothing else.

Mapping, filtering, intercepting, retrying and visiting each come with a step function that
replies at once and with one that takes a while. Over one source, and with replies alike, both
forms say the same to their step functions and hand out the same. The second form waits for its
source and for replies that are not yet due, and for nothing else: it goes on when they come, so it
comes as far as the first form, and a visit returns.

* `AddsWaiting` — what it means for two stages.
* `VisitsAlike` — what it means for two visits.
* `slow_steps_add_waiting` — all five pairs.
-/

namespace PullStream.Sequence

open Dialogue Transducer

variable {ω α β γ ν : Type}

/-! ### Stages -/

/-- Two stages over one source that hold one dialogue, the first at once and the second with
waiting added. `below` and `below'` are the source in a state of the first and of the second. -/
structure AddsWaiting (D : Dialogue α β) (view : ω → List D.Utterance) (source : Machine ω α)
    (fast slow : Machine ω β) (below : fast.State → source.State)
    (below' : slow.State → source.State) : Prop where
  /-- Of two uses in which the replies are alike, one may have come further, but not beyond one
  that has reported the end. -/
  agree : ∀ {s log answers s' log' answers'}, fast.Uses view [] s log answers →
    slow.Uses view [] s' log' answers' → Config.Alike log log' →
    (log <+: log' ∧ outputs answers <+: outputs answers' ∨
      log' <+: log ∧ outputs answers' <+: outputs answers) ∧
    (.done ∈ answers → log' <+: log ∧ outputs answers' <+: outputs answers) ∧
    (.done ∈ answers' → log <+: log' ∧ outputs answers <+: outputs answers')
  /-- If the first has reported the end, a poll of the second waits, or has the source do
  nothing, or is one of finitely many before the end. -/
  ends : ∀ {s log answers s' log' answers'}, fast.Uses view [] s log answers →
    slow.Uses view [] s' log' answers' → Config.Alike log log' →
    .done ∈ answers → .done ∉ answers' →
    ∃ asked asked', source.Reach (below s) asked ∧ source.Reach (below' s') asked' ∧
      busyPolls answers' ≤ (outputs asked).length + log.length + idlePolls asked'
  /-- The second waits for its source, or for a reply that is due later. -/
  wait : ∀ {s answers now w}, slow.Uses view [] s (view w) answers →
    (slow.poll s now w).1 = .wait →
    (source.poll (below' s) now w).1 = .wait ∨ ∃ due ∈ slow.alarms s, now < due
  /-- The second asks only when the reply before has come. -/
  turns : ∀ {s log answers}, slow.Uses view [] s log answers → ∃ q, Config.Turns log q
  /-- It asks nothing in the background. -/
  tick : ∀ s now w, view (slow.tick s now w).2.2 = view w
  /-- It asks nothing in a poll that hands something out. -/
  output : ∀ {s answers now w}, slow.Uses view [] s (view w) answers →
    (slow.poll s now w).1.output? ≠ none →
    ∃ said, view (slow.poll s now w).2.2 = view w ++ said ∧ ∀ q, .asked q ∉ said

section Stages

variable {D : Dialogue α β} {view : ω → List D.Utterance} {source : Machine ω α}
  {t t' : Transducer ω α β} {fits : t.Memory → D.Config → Prop}
  {fits' : t'.Memory → D.Config → Prop}

/-- Two stages that converse in one dialogue. -/
theorem addsWaiting_of_converses (steady : source.Steady) (keeps : source.Keeps view)
    (fast : Converses t D view fits) (held : ∀ m, t.holds m = true)
    (slow : Converses t' D view fits') (patient : Patient t' D view fits') :
    AddsWaiting D view source (source.via t).guarded (source.via t').guarded (fun s => s.1.1)
      fun s => s.1.1 where
  agree := by
    intro s log answers s' log' answers' used used' alike
    obtain ⟨c, asked, there⟩ := fast.uses keeps used
    obtain ⟨d, asked', there'⟩ := slow.uses keeps used'
    obtain ⟨_, below, -⟩ := there.position
    obtain ⟨_, below', -⟩ := there'.position
    rw [← there.log, ← there'.log] at alike ⊢
    rw [← there.outs, ← there'.outs]
    refine ⟨?_, fun done => ?_, fun done => ?_⟩
    · rcases Config.comparable_of_steady steady there.reached there'.reached below below'
        there.taken there'.taken alike with ahead | behind
      · exact .inl ahead.grows.2
      · exact .inr behind.grows.2
    · exact (Config.leads_of_ended steady there.reached there'.reached below below' there.taken
        there'.taken alike (there.ended done steady)).grows.2
    · exact (Config.leads_of_ended steady there'.reached there.reached below' below there'.taken
        there.taken alike.symm (there'.ended done steady)).grows.2
  ends := by
    intro s log answers s' log' answers' used used' alike done unfinished
    obtain ⟨c, asked, there⟩ := fast.uses keeps used
    obtain ⟨d, asked', there'⟩ := slow.uses keeps used'
    obtain ⟨r, below, atSource⟩ := there.position
    obtain ⟨r', below', atSource'⟩ := there'.position
    have held' : t'.holds s'.1.2 = true := by
      cases left : t'.holds s'.1.2 with
      | true => rfl
      | false => exact absurd (there'.left left) unfinished
    cases atSource (held _)
    cases atSource' held'
    rw [← there.log, ← there'.log] at alike
    have behind := Config.leads_of_ended steady there.reached there'.reached below below'
      there.taken there'.taken alike (there.ended done steady)
    have bound := there'.bounded unfinished
    have size := behind.size_le
    refine ⟨asked, asked', below, below', Nat.le_trans bound ?_⟩
    rw [← there.taken, ← there.log]
    exact Nat.add_le_add_right size _
  wait := by
    intro s answers now w used waits
    obtain ⟨c, asked, there⟩ := slow.uses keeps used
    exact slow.wait keeps there waits
  turns := by
    intro s log answers used
    obtain ⟨c, asked, there⟩ := slow.uses keeps used
    exact ⟨_, there.log ▸ there.reached.turns⟩
  tick s now w := keeps.tick s.1.1 now w
  output := by
    intro s answers now w used puts
    obtain ⟨c, asked, there⟩ := slow.uses keeps used
    exact patient.output slow keeps there puts

end Stages

/-! ### Visits -/

/-- Two visits of one source that hold one dialogue, the first at once and the second with
waiting added. -/
structure VisitsAlike (view : ω → List (visit α).Utterance) (source : Machine ω α)
    (fast slow : Consumer ω α (Consumer.Result Unit)) : Prop where
  /-- Of two uses in which the replies are alike, one may have come further, but not beyond one
  that has its result. -/
  agree : ∀ {m s log answers m' s' log' answers'}, fast.Uses source view [] m s log answers →
    slow.Uses source view [] m' s' log' answers' → Config.Alike log log' →
    (log <+: log' ∧ outputs answers <+: outputs answers' ∨
      log' <+: log ∧ outputs answers' <+: outputs answers) ∧
    (∀ r, fast.want m = .finish r → log' <+: log ∧ outputs answers' <+: outputs answers) ∧
    (∀ r', slow.want m' = .finish r' → log <+: log' ∧ outputs answers <+: outputs answers') ∧
    ∀ r r', fast.want m = .finish r → slow.want m' = .finish r' → r = r'
  /-- If the first has its result, the second can pull and take replies finitely often, apart from
  pulls in which the source does nothing. -/
  ends : ∀ {m s log answers m' s' log' answers'}, fast.Uses source view [] m s log answers →
    slow.Uses source view [] m' s' log' answers' → Config.Alike log log' →
    ∀ r, fast.want m = .finish r →
      busyPolls answers' + log'.length ≤ (outputs answers).length + log.length + idlePolls answers'
  /-- The second asks about an element at once, and has its result at a failure and at the end. -/
  takes : ∀ {m}, slow.want m = .pull → ∀ s now w,
    let x := source.poll s now w
    let after := slow.hear m x.1 now x.2.2
    (∀ a, x.1 = .item a → (∃ due, slow.want after.1 = .rest due) ∧
      ∃ q, view after.2 = view w ++ [.asked q]) ∧
    (x.1 = .done ∨ (∃ e, x.1 = .fail e) → ∃ r, slow.want after.1 = .finish r)
  /-- The second asks only when the reply before has come, and rests only then. -/
  turns : ∀ {m s log answers}, slow.Uses source view [] m s log answers →
    ∃ q, Config.Turns log q ∧ ∀ due, slow.want m = .rest due → q ≠ none
  /-- A rest is over when it is due: the second takes the reply to its question, and pulls again or
  has its result. -/
  wait : ∀ {m s answers w due}, slow.Uses source view [] m s (view w) answers →
    slow.want m = .rest due → ∀ now, due ≤ now → ∃ q r, Config.Turns (view w) (some q) ∧
      view (slow.wake m now w).2 = view w ++ [.answered q r] ∧
      ∀ due', slow.want (slow.wake m now w).1 ≠ .rest due'
  /-- Two runs with one clock, with replies alike, have one result. -/
  runs : ∀ {now w rs s now' w' rs' s'}, view w = [] → view w' = [] →
    Setting.consume fast 0 (.initially source.hub now w) = (.finished rs, s) →
    Setting.consume slow 0 (.initially source.hub now' w') = (.finished rs', s') →
    Config.Alike (view s.world) (view s'.world) → rs = rs' ∧ view s.world = view s'.world
  /-- Over a source that winds down, in which nothing is added to what is left while time passes,
  both have a result. -/
  returns : ∀ {going : source.State → Prop} {left : source.State → Time → Nat},
    source.WindsDown going left → (∀ s {now later}, now ≤ later → left s later ≤ left s now) →
    going source.start → ∀ now w, 3 * left source.start now < Setting.patience →
    (∃ r s, Setting.consume fast 0 (.initially source.hub now w) = (.finished [r], s)) ∧
      ∃ r s, Setting.consume slow 0 (.initially source.hub now w) = (.finished [r], s)

section Visits

variable {view : ω → List (visit α).Utterance} {source : Machine ω α} {f : Step ω α Unit}
  {f' : SlowStep ω α Unit}

theorem visits_agree (steady : source.Steady) (keeps : source.Keeps view)
    (noted : ∀ a i, Noted (D := visit α) view (a, i) (f a i))
    (noted' : ∀ a i, NotedLater (D := visit α) view (a, i) (f' a i))
    {m : (Consumer.forEach f).Memory} {s : source.State} {log : List (visit α).Utterance}
    {answers : List (Answer α)} {m' : (Consumer.forEachAsync f').Memory} {s' : source.State}
    {log' : List (visit α).Utterance} {answers' : List (Answer α)}
    (used : (Consumer.forEach f).Uses source view [] m s log answers)
    (used' : (Consumer.forEachAsync f').Uses source view [] m' s' log' answers')
    (alike : Config.Alike log log') :
    (log <+: log' ∧ outputs answers <+: outputs answers' ∨
      log' <+: log ∧ outputs answers' <+: outputs answers) ∧
    (∀ r, (Consumer.forEach f).want m = .finish r →
      log' <+: log ∧ outputs answers' <+: outputs answers) ∧
    (∀ r', (Consumer.forEachAsync f').want m' = .finish r' →
      log <+: log' ∧ outputs answers <+: outputs answers') ∧
    ∀ r r', (Consumer.forEach f).want m = .finish r →
      (Consumer.forEachAsync f').want m' = .finish r' → r = r' := by
  obtain ⟨c, there, stands⟩ := Consumer.forEach_visits keeps noted used
  obtain ⟨d, there', stands'⟩ := Consumer.forEachAsync_visits keeps noted' used'
  rw [← there.log, ← there'.log] at alike ⊢
  rw [← there.taken, ← there'.taken]
  have behind : ∀ r, (Consumer.forEach f).want m = .finish r → d.Leads c := fun r wants =>
    Config.leads_of_ended steady there.reached there'.reached there.below there'.below
      there.taken there'.taken alike (stands.concluded wants).ended
  have ahead : ∀ r', (Consumer.forEachAsync f').want m' = .finish r' → c.Leads d :=
    fun r' wants' => Config.leads_of_ended steady there'.reached there.reached there'.below
      there.below there'.taken there.taken alike.symm (stands'.concluded wants').ended
  refine ⟨?_, fun r wants => ?_, fun r' wants' => ?_, fun r r' wants wants' => ?_⟩
  · rcases Config.comparable_of_steady steady there.reached there'.reached there.below
      there'.below there.taken there'.taken alike with further | further
    · exact .inl ⟨further.grows.2.1, further.grows.1⟩
    · exact .inr ⟨further.grows.2.1, further.grows.1⟩
  · exact ⟨(behind r wants).grows.2.1, (behind r wants).grows.1⟩
  · exact ⟨(ahead r' wants').grows.2.1, (ahead r' wants').grows.1⟩
  · have same := (ahead r' wants').antisymm (behind r wants)
    subst same
    exact (stands.concluded wants).unique (stands'.concluded wants')

/-- Two visits with the step functions of one visit. -/
theorem visitsAlike_of_noted (steady : source.Steady) (keeps : source.Keeps view)
    (noted : ∀ a i, Noted (D := visit α) view (a, i) (f a i))
    (noted' : ∀ a i, NotedLater (D := visit α) view (a, i) (f' a i)) :
    VisitsAlike view source (Consumer.forEach f) (Consumer.forEachAsync f') where
  agree := visits_agree steady keeps noted noted'
  ends := by
    intro m s log answers m' s' log' answers' used used' alike r wants
    obtain ⟨-, behind, -⟩ := visits_agree steady keeps noted noted' used used' alike
    obtain ⟨shorter, fewer⟩ := behind r wants
    have asked := shorter.length_le
    have taken := fewer.length_le
    have polls := busyPolls_eq answers'
    omega
  takes wants s now w := Consumer.forEachAsync_takes keeps noted' wants s now w
  turns := by
    intro m s log answers used
    obtain ⟨c, there, stands⟩ := Consumer.forEachAsync_visits keeps noted' used
    exact ⟨_, there.log ▸ there.reached.turns, fun due wants => stands.awaits wants⟩
  wait used wants now _ := Consumer.forEachAsync_wakes keeps noted' used wants now
  runs := by
    intro now w rs s now' w' rs' s' fresh fresh' ran ran' alike
    obtain ⟨m, r, ⟨answers, used⟩, wants, rfl⟩ := Setting.consume_kept
      (Consumer.uses_upheld _ source view []) ⟨[], fresh ▸ .start⟩ ran
    obtain ⟨m', r', ⟨answers', used'⟩, wants', rfl⟩ := Setting.consume_kept
      (Consumer.uses_upheld _ source view []) ⟨[], fresh' ▸ .start⟩ ran'
    obtain ⟨-, shorter, longer, same⟩ := visits_agree steady keeps noted noted' used used' alike
    refine ⟨congrArg (fun r => [r]) (same r r' wants wants'), ?_⟩
    have first := (longer r' wants').1
    exact first.eq_of_length (Nat.le_antisymm first.length_le (shorter r wants).1.length_le)
  returns := by
    intro going left winds passes goes now w enough
    have attentive : (Consumer.forEach f).Attentive := Consumer.fold_attentive _ _ _
    refine ⟨?_, ?_⟩
    · refine Setting.consume_finishes attentive winds rfl 0 goes ?_
      exact Nat.lt_of_le_of_lt (Nat.le_mul_of_pos_left _ (by decide)) enough
    · exact Setting.visit_finishes (Consumer.forEachAsync_diligent f') winds passes rfl 0 goes
        enough

end Visits

/-! ### All pairs -/

/-- Mapping, filtering, intercepting, retrying and visiting with step functions that take a while
say to them, and hand out, what they do with step functions that reply at once, and wait for
replies. One step function has one reply under way at most, and is asked again only when the
stage is polled again. -/
theorem slow_steps_add_waiting (s : Sequence ω α) (steady : s.machine.Steady) :
    (∀ (view : ω → List (mapping α β).Utterance) (f : Step ω α β) (f' : SlowStep ω α β),
      s.machine.Keeps view →
      (∀ a i, Noted (D := mapping α β) view (a, i) (f a i)) →
      (∀ a i, NotedLater (D := mapping α β) view (a, i) (f' a i)) →
      AddsWaiting (mapping α β) view s.machine (s.map f).machine (s.mapAsync f').machine
        (fun st => st.1.1) fun st => st.1.1) ∧
    (∀ (view : ω → List (choosing α).Utterance) (p : Step ω α Bool) (p' : SlowStep ω α Bool),
      s.machine.Keeps view →
      (∀ a i, Noted (D := choosing α) view (a, i) (p a i)) →
      (∀ a i, NotedLater (D := choosing α) view (a, i) (p' a i)) →
      AddsWaiting (choosing α) view s.machine (s.filter p).machine (s.filterAsync p').machine
        (fun st => st.1.1) fun st => st.1.1) ∧
    (∀ (view : ω → List (inspecting α).Utterance) (f : Step ω α Unit) (f' : SlowStep ω α Unit),
      s.machine.Keeps view →
      (∀ a i, Noted (D := inspecting α) view (a, i) (f a i)) →
      (∀ a i, NotedLater (D := inspecting α) view (a, i) (f' a i)) →
      AddsWaiting (inspecting α) view s.machine (s.intercept f).machine
        (s.interceptAsync f').machine (fun st => st.1.1) fun st => st.1.1) ∧
    (∀ (failing : Bool) (view : ω → List (Dialogue.retry α β failing).Utterance)
      (judge : Judge ω α) (f : Step ω α β) (judge' : SlowJudge ω α) (f' : SlowStep ω α β),
      s.machine.Keeps view →
      (∀ a i, Noted (D := Dialogue.retry α β failing) view (.operation a i) (f a i)) →
      (∀ e a i, Noted (D := Dialogue.retry α β failing) view (.judgment e a i) (judge e a i)) →
      (∀ a i, NotedLater (D := Dialogue.retry α β failing) view (.operation a i) (f' a i)) →
      (∀ e a i, NotedLater (D := Dialogue.retry α β failing) view (.judgment e a i)
        (judge' e a i)) →
      AddsWaiting (Dialogue.retry α β failing) view s.machine (s.retry failing judge f).machine
        (s.retryAsync failing judge' f').machine (fun st => st.1.1) fun st => st.1.1) ∧
    (∀ (view : ω → List (visit α).Utterance) (f : Step ω α Unit) (f' : SlowStep ω α Unit),
      s.machine.Keeps view →
      (∀ a i, Noted (D := visit α) view (a, i) (f a i)) →
      (∀ a i, NotedLater (D := visit α) view (a, i) (f' a i)) →
      VisitsAlike view s.machine (Consumer.forEach f) (Consumer.forEachAsync f')) := by
  refine ⟨?_, ?_, ?_, ?_, ?_⟩
  · intro view f f' keeps noted noted'
    exact addsWaiting_of_converses steady keeps (map_converses noted) (fun _ => rfl)
      (mapAsync_converses noted') (mapAsync_patient f')
  · intro view p p' keeps noted noted'
    exact addsWaiting_of_converses steady keeps (filter_converses noted) (fun _ => rfl)
      (filterAsync_converses noted') (filterAsync_patient p')
  · intro view f f' keeps noted noted'
    exact addsWaiting_of_converses steady keeps (intercept_converses noted) (fun _ => rfl)
      (interceptAsync_converses noted') (interceptAsync_patient f')
  · intro failing view judge f judge' f' keeps attempts judges attempts' judges'
    exact addsWaiting_of_converses steady keeps (retry_converses attempts judges)
      (fun _ => rfl) (retryAsync_converses attempts' judges') retryAsync_patient
  · intro view f f' keeps noted noted'
    exact visitsAlike_of_noted steady keeps noted noted'

/-- A step function that replies `r` at once and keeps the log itself. -/
def noting {D : Dialogue α β} (q : D.Query) (r : D.Reply q) :
    Time → List D.Utterance → D.Reply q × List D.Utterance :=
  fun _ log => (r, log ++ [.asked q, .answered q r])

/-- A step function that replies `r` after `delay` and keeps the log itself. -/
def notingLater {D : Dialogue α β} (delay : Time) (q : D.Query) (r : D.Reply q) :
    Time → List D.Utterance → Deferred (List D.Utterance) (D.Reply q) × List D.Utterance :=
  fun _ log =>
    ({ delay := delay, finish := fun _ log => (r, log ++ [.answered q r]) }, log ++ [.asked q])

/-- Three numbers of which the second fails, mapped at once and with a delay of five. -/
theorem slow_steps_add_waiting_delayed :
    let reply : Nat → Nat → Except Failure Nat := fun a i =>
      if a = 2 then .error .zeroRate else .ok (10 * a + i)
    let numbers : Sequence (List (mapping Nat Nat).Utterance) Nat := ofList [1, 2, 3]
    let f : Step _ Nat Nat := fun a i => noting (D := mapping Nat Nat) (a, i) (reply a i)
    let f' : SlowStep _ Nat Nat :=
      fun a i => notingLater (D := mapping Nat Nat) 5 (a, i) (reply a i)
    numbers.machine.Steady ∧ numbers.machine.Keeps id ∧
    ∃ s log answers s' log' answers',
      (numbers.map f).machine.Uses id [] s log answers ∧
      (numbers.mapAsync f').machine.Uses id [] s' log' answers' ∧
      answers = [.item 10, .fail .zeroRate, .done] ∧
      answers' = [.skip, .wait, .item 10, .skip, .fail .zeroRate, .done] ∧
      Config.Alike log log' ∧ log' <+: log ∧ outputs answers' <+: outputs answers ∧
      ∃ q, Config.Turns log' q := by
  intro reply numbers f f'
  have steady : numbers.machine.Steady := (Machine.ofResults_delivers _).steady
  have keeps : numbers.machine.Keeps id := ⟨fun s now w => by cases s <;> rfl, fun s now w => rfl⟩
  have waiting := (slow_steps_add_waiting numbers steady).1 id f f' keeps (fun _ _ _ _ => rfl)
    fun _ _ _ _ => ⟨rfl, fun _ _ => rfl⟩
  let said : List (mapping Nat Nat).Utterance :=
    [.asked (1, 0), .answered (1, 0) (.ok 10), .asked (2, 1), .answered (2, 1) (.error .zeroRate)]
  have used : (numbers.map f).machine.Uses id [] _ said [.item 10, .fail .zeroRate, .done] :=
    ((Machine.Uses.start.poll 0 _ rfl).poll 0 _ rfl).poll 0 _ rfl
  have used' : (numbers.mapAsync f').machine.Uses id [] _ said
      [.skip, .wait, .item 10, .skip, .fail .zeroRate, .done] :=
    (((((Machine.Uses.start.poll 0 _ rfl).poll 3 _ rfl).poll 5 _ rfl).poll 5 _ rfl).poll 12 _
      rfl).poll 12 _ rfl
  have told : ∀ q r, .answered q r ∈ said → r = reply q.1 q.2 := by
    intro q r member
    simp only [said, List.mem_cons, List.not_mem_nil, or_false] at member
    rcases member with same | same | same | same <;> cases same <;> rfl
  have alike : Config.Alike said said := .of_told (fun q => reply q.1 q.2) told told
  obtain ⟨-, ended, -⟩ := waiting.agree used used' alike
  obtain ⟨sameLog, sameOutputs⟩ := ended (by simp)
  exact ⟨steady, keeps, _, _, _, _, _, _, used, used', rfl, rfl, alike, sameLog, sameOutputs,
    waiting.turns used'⟩

end PullStream.Sequence
