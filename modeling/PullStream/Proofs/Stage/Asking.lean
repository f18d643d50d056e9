import PullStream.Proofs.Stage.Conversing
import PullStream.Stage.Elementwise
import PullStream.Stage.Retrying
import PullStream.Stage.Waiting

/-!
Which stages converse.

Mapping, filtering and intercepting ask one question about each element. Retrying asks for an
attempt, and after each failed one for a judgment. Each of them comes in two forms, one whose
step functions answer at once and one whose step functions take a while, and both forms have the
same dialogue.

* `Dialogue.single`, `Dialogue.retry` — the dialogues.
* `answering_converses`, `deferredBy_converses` — one question, answered at once or in a while.
* `map_converses` to `interceptAsync_patient` — the stages of this kind.
* `retry_converses`, `retryAsync_converses` — attempts and judgments.
-/

namespace PullStream

variable {ω α β γ : Type}

/-! ### Dialogues -/

namespace Dialogue

/-- One question about each element; `answer` is what the element comes to. -/
def single (answer : α → Except Failure γ → Answer β) : Dialogue α β where
  Query := α × Nat
  Reply _ := Except Failure γ
  opening a i := (a, i)
  next q r := .inr (answer q.1 r).output?

/-- The dialogue of mapping: the element comes to the reply. -/
abbrev mapping (α β : Type) : Dialogue α β :=
  .single fun (_ : α) (r : Except Failure β) => .ofExcept r

/-- The dialogue of filtering: the element stays or goes. -/
abbrev choosing (α : Type) : Dialogue α α :=
  .single .ofDecision

/-- The dialogue of intercepting: the element stays unless the reply is a failure. -/
abbrev inspecting (α : Type) : Dialogue α α :=
  .single fun (a : α) (r : Except Failure Unit) => .ofExcept (r.map fun _ => a)

/-- The questions about an element that is retried. -/
inductive Attempted (α : Type) where
  /-- To the operation. -/
  | operation (a : α) (index : Nat)
  /-- To the judge, about an attempt that has failed. -/
  | judgment (failure : Failure) (a : α) (index : Nat)

/-- An attempt, and after each failed one a judgment. -/
def retry (α β : Type) (failing : Bool) : Dialogue α β where
  Query := Attempted α
  Reply
    | .operation _ _ => Except Failure β
    | .judgment _ _ _ => Decision
  opening := .operation
  next
    | .operation _ _, .ok b => .inr (some (.ok b))
    | .operation a i, .error e => .inl (.judgment e a i)
    | .judgment _ a i, .retry => .inl (.operation a i)
    | .judgment e _ _, .giveUp => .inr (Transducer.givenUp failing e : Answer β).output?

end Dialogue

namespace Transducer

open Dialogue

/-! ### One question -/

section Single

variable {answer : α → Except Failure γ → Answer β}
  {view : ω → List (single answer).Utterance}

/-- A stage that answers each element by the step function's result, at once. -/
def answering (answer : α → Except Failure γ → Answer β) (f : Step ω α γ) :
    Transducer ω α β where
  Memory := Nat
  start := 0
  item i a now w := (answer a (f a i now w).1, i + 1, (f a i now w).2)

/-- A stage that answers each element by the step function's result, in a while. -/
def deferredBy (answer : α → Except Failure γ → Answer β) (f : SlowStep ω α γ) :
    Transducer ω α β :=
  deferring fun a i now w => (deferredAnswer (answer a) (f a i now w).1, (f a i now w).2)

/-- An answer that is a result or nothing. -/
def Proper (answer : α → Except Failure γ → Answer β) : Prop :=
  ∀ a r, answer a r ≠ .done ∧ answer a r ≠ .wait

theorem ofExcept_proper : Proper fun (_ : α) (r : Except Failure β) => Answer.ofExcept r := by
  rintro a (e | b) <;> simp [Answer.ofExcept]

theorem ofDecision_proper : Proper (Answer.ofDecision (α := α)) := by
  rintro a (e | _ | _) <;> simp [Answer.ofDecision]

theorem inspected_proper :
    Proper fun (a : α) (r : Except Failure γ) => Answer.ofExcept (r.map fun _ => a) :=
  fun a r => ofExcept_proper a (r.map fun _ => a)

/-- A dialogue takes an element, and asks the one question about it. -/
theorem single_asked {b c : (single answer).Config} (reached : b.Leads c) (clean : c.Clean)
    (idle : c.status = .idle) (a : α) : b.Leads { c with
      source := c.source ++ [.ok a]
      log := c.log ++ [.asked (a, (itemsOf c.source).length)]
      status := .awaiting (a, (itemsOf c.source).length) } := by
  have taken : b.Leads { c with
      source := c.source ++ [.ok a]
      status := .asking (a, (itemsOf c.source).length) } := reached.tail ⟨clean, .take idle⟩
  exact taken.tail ⟨clean, .ask rfl⟩

/-- The reply is what the element comes to. -/
theorem single_heard {b c : (single answer).Config} {q : α × Nat} (reached : b.Leads c)
    (clean : c.Clean) (awaiting : c.status = .awaiting q) (r : Except Failure γ) :
    b.Leads { c with
      log := c.log ++ [.answered q r]
      outs := c.outs ++ (answer q.1 r).output?.toList
      status := .idle } :=
  reached.tail ⟨clean, .hear (show (single answer).Reply q from r) awaiting⟩

/-- A stage that answers at once stands between two elements. -/
def Between (answer : α → Except Failure γ → Answer β) (index : Nat)
    (c : (single answer).Config) : Prop :=
  index = (itemsOf c.source).length ∧ c.status = .idle

theorem answering_converses (proper : Proper answer) {f : Step ω α γ}
    (noted : ∀ a i, Noted (D := single answer) view (a, i) (f a i)) :
    Converses (answering answer f) (single answer) view (Between answer) where
  start := ⟨rfl, rfl⟩
  held := rfl
  asks counts _ := ⟨counts.2, rfl⟩
  own _ _ _ own := by cases own
  item {i c} a now w counts clean idle log := by
    obtain ⟨rfl, -⟩ := counts
    have said := noted a (itemsOf c.source).length now w
    have asked := single_asked .refl clean idle a
    have heard := single_heard asked clean rfl (f a (itemsOf c.source).length now w).1
    refine ⟨rfl, (proper _ _).2, _, ⟨heard, ⟨?_, rfl⟩, ?_, rfl, (proper _ _).1⟩, rfl⟩
    · simp [answering, itemsOf, Except.toOption]
    · exact said.trans (by simp [log])
  fail _ _ _ _ := rfl
  done _ _ counts _ := ⟨rfl, counts, rfl⟩

/-- While a reply is awaited, a stage waits until it is due. -/
theorem deferredBy_before (f : SlowStep ω α γ) (index : Nat) (p : Pending ω (Answer β))
    (now : Time) (w : ω) :
    (deferredBy answer f).before { index, pending := some p } now w =
      some (if now < p.due then (.wait, { index, pending := some p }, w)
        else ((p.finish now w).1, { index }, (p.finish now w).2)) :=
  rfl

/-- Where a stage stands whose step function takes a while. -/
inductive Deferring (answer : α → Except Failure γ → Answer β)
    (view : ω → List (single answer).Utterance) :
    Awaiting ω (Answer β) → (single answer).Config → Prop where
  | idle {index c} : index = (itemsOf c.source).length → c.status = .idle →
      Deferring answer view { index } c
  | awaiting {index c} {q : α × Nat} {p : Pending ω (Answer β)} :
      index = (itemsOf c.source).length → c.status = .awaiting q →
      (∀ now w, ∃ r : Except Failure γ, (p.finish now w).1 = answer q.1 r ∧
        view (p.finish now w).2 = view w ++ [.answered q r]) →
      Deferring answer view { index, pending := some p } c

theorem deferredBy_converses (proper : Proper answer) {f : SlowStep ω α γ}
    (noted : ∀ a i, NotedLater (D := single answer) view (a, i) (f a i)) :
    Converses (deferredBy answer f) (single answer) view (Deferring answer view) where
  start := .idle rfl rfl
  held := rfl
  asks stands own := by
    cases stands with
    | idle _ idle => exact ⟨idle, rfl⟩
    | awaiting => cases own
  own {m c now w r} stands clean log own := by
    cases stands with
    | idle => cases own
    | @awaiting _ _ q p counts awaits replies =>
      rw [deferredBy_before] at own
      have reaction := Option.some.inj own
      by_cases early : now < p.due
      · rw [if_pos early] at reaction
        subst reaction
        refine ⟨rfl, fun _ => ⟨p.due, List.mem_singleton_self _, early⟩, c, ?_, rfl, .inl rfl⟩
        exact ⟨.refl, .awaiting counts awaits replies, log, (List.append_nil _).symm, by simp⟩
      · rw [if_neg early] at reaction
        subst reaction
        obtain ⟨a, same, said⟩ := replies now w
        obtain ⟨notDone, notWait⟩ := proper q.1 a
        refine ⟨rfl, fun waits => absurd (same.symm.trans waits) notWait, _,
          ⟨single_heard .refl clean awaits a, .idle counts rfl, ?_, ?_, ?_⟩, rfl,
          .inr (.inr (by simp))⟩
        · exact said.trans (by rw [log])
        · dsimp only
          rw [same]
        · dsimp only
          rw [same]
          exact notDone
  item {m c} a now w stands clean idle log := by
    cases stands with
    | awaiting _ awaits => cases idle.symm.trans awaits
    | @idle index _ counts =>
      obtain ⟨said, replies⟩ := noted a index now w
      subst counts
      refine ⟨rfl, by simp [deferredBy, deferring], _,
        ⟨single_asked .refl clean idle a, .awaiting ?_ rfl ?_, ?_, ?_, ?_⟩, rfl⟩
      · simp [itemsOf, Except.toOption]
      · intro now' w'
        exact ⟨_, rfl, replies now' w'⟩
      · exact said.trans (by rw [log])
      · exact (List.append_nil _).symm
      · simp [deferredBy, deferring]
  fail _ _ _ _ := rfl
  done _ _ stands _ := ⟨rfl, stands, rfl⟩

theorem deferredBy_patient (f : SlowStep ω α γ) :
    Patient (deferredBy answer f) (single answer) view (Deferring answer view) where
  own {m c now w r} stands own puts := by
    cases stands with
    | idle => cases own
    | @awaiting _ _ q p _ awaits replies =>
      rw [deferredBy_before] at own
      have reaction := Option.some.inj own
      by_cases early : now < p.due
      · rw [if_pos early] at reaction
        subst reaction
        exact absurd rfl puts
      · rw [if_neg early] at reaction
        subst reaction
        obtain ⟨a, -, said⟩ := replies now w
        exact ⟨q, a, said⟩
  item _ _ _ _ := rfl

end Single

section Stages

variable {α β : Type}

theorem map_converses {view : ω → List (mapping α β).Utterance} {f : Step ω α β}
    (noted : ∀ a i, Noted (D := mapping α β) view (a, i) (f a i)) :
    Converses (map f) (mapping α β) view (Between fun _ r => .ofExcept r) :=
  answering_converses ofExcept_proper noted

theorem filter_converses {view : ω → List (choosing α).Utterance} {p : Step ω α Bool}
    (noted : ∀ a i, Noted (D := choosing α) view (a, i) (p a i)) :
    Converses (filter p) (choosing α) view (Between .ofDecision) :=
  answering_converses ofDecision_proper noted

theorem intercept_converses {view : ω → List (inspecting α).Utterance} {f : Step ω α Unit}
    (noted : ∀ a i, Noted (D := inspecting α) view (a, i) (f a i)) :
    Converses (intercept f) (inspecting α) view
      (Between fun a r => .ofExcept (r.map fun _ => a)) :=
  answering_converses inspected_proper noted

theorem mapAsync_converses {view : ω → List (mapping α β).Utterance} {f : SlowStep ω α β}
    (noted : ∀ a i, NotedLater (D := mapping α β) view (a, i) (f a i)) :
    Converses (mapAsync f) (mapping α β) view (Deferring (fun _ r => .ofExcept r) view) :=
  deferredBy_converses ofExcept_proper noted

theorem filterAsync_converses {view : ω → List (choosing α).Utterance} {p : SlowStep ω α Bool}
    (noted : ∀ a i, NotedLater (D := choosing α) view (a, i) (p a i)) :
    Converses (filterAsync p) (choosing α) view (Deferring .ofDecision view) :=
  deferredBy_converses ofDecision_proper noted

theorem interceptAsync_converses {view : ω → List (inspecting α).Utterance}
    {f : SlowStep ω α Unit}
    (noted : ∀ a i, NotedLater (D := inspecting α) view (a, i) (f a i)) :
    Converses (interceptAsync f) (inspecting α) view
      (Deferring (fun a r => .ofExcept (r.map fun _ => a)) view) :=
  deferredBy_converses inspected_proper noted

theorem mapAsync_patient {view : ω → List (mapping α β).Utterance} (f : SlowStep ω α β) :
    Patient (mapAsync f) (mapping α β) view (Deferring (fun _ r => .ofExcept r) view) :=
  deferredBy_patient f

theorem filterAsync_patient {view : ω → List (choosing α).Utterance} (p : SlowStep ω α Bool) :
    Patient (filterAsync p) (choosing α) view (Deferring .ofDecision view) :=
  deferredBy_patient p

theorem interceptAsync_patient {view : ω → List (inspecting α).Utterance}
    (f : SlowStep ω α Unit) :
    Patient (interceptAsync f) (inspecting α) view
      (Deferring (fun a r => .ofExcept (r.map fun _ => a)) view) := by
  -- Intercepting is mapping to the element itself.
  have patient : Patient (deferredBy (fun a r => .ofExcept (r.map fun _ => a)) f)
      (inspecting α) view (Deferring _ view) := deferredBy_patient f
  exact patient

end Stages

/-! ### Attempts and judgments -/

section Retry

variable {failing : Bool} {view : ω → List (Dialogue.retry α β failing).Utterance}

/-- Where a stage stands that retries at once. -/
inductive Repeating (failing : Bool) :
    Retrying α → (Dialogue.retry α β failing).Config → Prop where
  | idle {index c} : index = (itemsOf c.source).length → c.status = .idle →
      Repeating failing { index } c
  | working {index c a i} : index = (itemsOf c.source).length →
      c.status = .asking (.operation a i) →
      Repeating failing { index, current := some (a, i) } c

section Steps

variable {b c : (Dialogue.retry α β failing).Config} {a : α} {i : Nat} {e : Failure}

theorem retry_asked {q : (Dialogue.retry α β failing).Query} (reached : b.Leads c)
    (clean : c.Clean) (asking : c.status = .asking q) :
    b.Leads { c with log := c.log ++ [.asked q], status := .awaiting q } :=
  reached.tail ⟨clean, .ask asking⟩

/-- An attempt has succeeded. -/
theorem retry_succeeded (reached : b.Leads c) (clean : c.Clean)
    (awaiting : c.status = .awaiting (Attempted.operation a i)) (x : β) :
    b.Leads { c with
      log := c.log ++ [.answered (Attempted.operation a i) (.ok x)]
      outs := c.outs ++ [.ok x]
      status := .idle } := by
  have heard : c.Step (c.heard (Attempted.operation a i) (Except.ok x)) := .hear _ awaiting
  exact reached.tail ⟨clean, heard⟩

/-- An attempt has failed, and a judgment is asked for. -/
theorem retry_failed (reached : b.Leads c) (clean : c.Clean)
    (awaiting : c.status = .awaiting (Attempted.operation a i)) (e : Failure) :
    b.Leads { c with
      log := c.log ++ [.answered (Attempted.operation a i) (.error e)] ++
        [.asked (Attempted.judgment e a i)]
      status := .awaiting (Attempted.judgment e a i) } := by
  have heard : c.Step (c.heard (Attempted.operation a i) (Except.error e)) := .hear _ awaiting
  exact retry_asked (reached.tail ⟨clean, heard⟩) clean rfl

/-- The judgment is to try again. -/
theorem retry_resumed (reached : b.Leads c) (clean : c.Clean)
    (awaiting : c.status = .awaiting (Attempted.judgment e a i)) :
    b.Leads { c with
      log := c.log ++ [.answered (Attempted.judgment e a i) Decision.retry]
      status := .asking (Attempted.operation a i) } := by
  have heard : c.Step (c.heard (Attempted.judgment e a i) Decision.retry) := .hear _ awaiting
  exact reached.tail ⟨clean, heard⟩

/-- The judgment is to give up. -/
theorem retry_givenUp (reached : b.Leads c) (clean : c.Clean)
    (awaiting : c.status = .awaiting (Attempted.judgment e a i)) :
    b.Leads { c with
      log := c.log ++ [.answered (Attempted.judgment e a i) Decision.giveUp]
      outs := c.outs ++ (givenUp failing e : Answer β).output?.toList
      status := .idle } := by
  have heard : c.Step (c.heard (Attempted.judgment e a i) Decision.giveUp) := .hear _ awaiting
  exact reached.tail ⟨clean, heard⟩

end Steps

theorem givenUp_proper (failing : Bool) (e : Failure) :
    (givenUp failing e : Answer β) ≠ .done ∧ (givenUp failing e : Answer β) ≠ .wait := by
  cases failing <;> simp [givenUp]

theorem retry_converses {judge : Judge ω α} {operation : Step ω α β}
    (attempts : ∀ a i, Noted (D := Dialogue.retry α β failing) view (.operation a i)
      (operation a i))
    (judges : ∀ e a i, Noted (D := Dialogue.retry α β failing) view (.judgment e a i)
      (judge e a i)) :
    Converses (retry failing judge operation) (Dialogue.retry α β failing) view
      (Repeating failing) where
  start := .idle rfl rfl
  held := rfl
  asks stands own := by
    cases stands with
    | idle _ idle => exact ⟨idle, rfl⟩
    | working => cases own
  own {m c now w r} stands clean log own := by
    cases stands with
    | idle => cases own
    | @working index _ a i counts asking =>
      have attempted := attempts a i now w
      have asked := retry_asked .refl clean asking
      rcases tried : operation a i now w with ⟨e | x, w'⟩
      · -- The attempt fails, and the judge is asked about it.
        rw [tried] at attempted
        have judged := judges e a i now w'
        have failed := retry_failed asked clean rfl e
        rcases decided : judge e a i now w' with ⟨_ | _, w''⟩
        · rw [decided] at judged
          have reaction : some (.skip, { index, current := some (a, i) }, w'') = some r := by
            simpa [retry, tried, decided] using own
          cases reaction
          refine ⟨rfl, by simp, _,
            ⟨retry_resumed failed clean rfl, .working counts rfl, ?_, ?_, by simp⟩, rfl,
            .inr (.inr (by simp))⟩
          · exact judged.trans (by rw [attempted, log]; simp)
          · exact (List.append_nil _).symm
        · rw [decided] at judged
          have reaction : some (givenUp failing e, { index }, w'') = some r := by
            simpa [retry, tried, decided] using own
          cases reaction
          obtain ⟨notDone, notWait⟩ := givenUp_proper (β := β) failing e
          refine ⟨rfl, fun waits => absurd waits notWait, _,
            ⟨retry_givenUp failed clean rfl, .idle counts rfl, ?_, rfl, notDone⟩, rfl,
            .inr (.inr (by simp))⟩
          exact judged.trans (by rw [attempted, log]; simp)
      · rw [tried] at attempted
        have reaction : some (.item x, { index }, w') = some r := by
          simpa [retry, tried] using own
        cases reaction
        refine ⟨rfl, by simp, _,
          ⟨retry_succeeded asked clean rfl x, .idle counts rfl, ?_, rfl, by simp⟩, rfl,
          .inr (.inr (by simp))⟩
        exact attempted.trans (by rw [log]; simp)
  item {m c} a now w stands clean idle log := by
    cases stands with
    | working _ asking => cases idle.symm.trans asking
    | @idle index _ counts =>
      have taken : c.Leads { c with
          source := c.source ++ [.ok a]
          status := .asking (.operation a (itemsOf c.source).length) } :=
        .single ⟨clean, .take idle⟩
      refine ⟨rfl, by simp [retry], _, ⟨taken, .working ?_ ?_, log, ?_, by simp [retry]⟩, rfl⟩
      · simp [counts, itemsOf, Except.toOption]
      · rw [counts]
      · exact (List.append_nil _).symm
  fail _ _ _ _ := rfl
  done _ _ stands _ := ⟨rfl, stands, rfl⟩

/-- Where a stage stands that retries in a while. -/
inductive RepeatingAsync (failing : Bool)
    (view : ω → List (Dialogue.retry α β failing).Utterance) :
    RetryingAsync ω α β → (Dialogue.retry α β failing).Config → Prop where
  | idle {index c} : index = (itemsOf c.source).length → c.status = .idle →
      RepeatingAsync failing view { index } c
  | ready {index c a i} : index = (itemsOf c.source).length →
      c.status = .asking (Attempted.operation a i) →
      RepeatingAsync failing view { index, attempt := .ready a i } c
  | trying {index c a i} {p : Pending ω (Except Failure β)} :
      index = (itemsOf c.source).length → c.status = .awaiting (Attempted.operation a i) →
      (∀ now w, view (p.finish now w).2 =
        view w ++ [.answered (Attempted.operation a i) (p.finish now w).1]) →
      RepeatingAsync failing view { index, attempt := .trying a i p } c
  | judging {index c a i e} {p : Pending ω Decision} :
      index = (itemsOf c.source).length → c.status = .awaiting (Attempted.judgment e a i) →
      (∀ now w, view (p.finish now w).2 =
        view w ++ [.answered (Attempted.judgment e a i) (p.finish now w).1]) →
      RepeatingAsync failing view { index, attempt := .judging a i e p } c
  | spent {index c} : index = (itemsOf c.source).length → c.status = .idle →
      RepeatingAsync failing view { index, attempt := .spent } c

section Before

variable {judge : SlowJudge ω α} {operation : SlowStep ω α β} {index i : Nat} {a : α}
  {e : Failure} {now : Time} {w w' : ω}

theorem retryAsync_trying_early {p : Pending ω (Except Failure β)} (early : now < p.due) :
    (retryAsync failing judge operation).before { index, attempt := .trying a i p } now w =
      some (.wait, { index, attempt := .trying a i p }, w) := by
  simp [retryAsync, early]

theorem retryAsync_trying_ok {p : Pending ω (Except Failure β)} {x : β} (due : ¬ now < p.due)
    (tried : p.finish now w = (.ok x, w')) :
    (retryAsync failing judge operation).before { index, attempt := .trying a i p } now w =
      some (.item x, { index }, w') := by
  simp [retryAsync, due, tried]

theorem retryAsync_trying_error {p : Pending ω (Except Failure β)} (due : ¬ now < p.due)
    (tried : p.finish now w = (.error e, w')) :
    (retryAsync failing judge operation).before { index, attempt := .trying a i p } now w =
      some (.skip, { index, attempt := .judging a i e ((judge e a i now w').1.askedAt now) },
        (judge e a i now w').2) := by
  simp [retryAsync, due, tried]

theorem retryAsync_judging_early {p : Pending ω Decision} (early : now < p.due) :
    (retryAsync failing judge operation).before { index, attempt := .judging a i e p } now w =
      some (.wait, { index, attempt := .judging a i e p }, w) := by
  simp [retryAsync, early]

theorem retryAsync_judging_retry {p : Pending ω Decision} (due : ¬ now < p.due)
    (decided : p.finish now w = (.retry, w')) :
    (retryAsync failing judge operation).before { index, attempt := .judging a i e p } now w =
      some (.skip, { index, attempt := .ready a i }, w') := by
  simp [retryAsync, due, decided]

theorem retryAsync_judging_giveUp {p : Pending ω Decision} (due : ¬ now < p.due)
    (decided : p.finish now w = (.giveUp, w')) :
    (retryAsync failing judge operation).before { index, attempt := .judging a i e p } now w =
      some (givenUp failing e, { index }, w') := by
  simp [retryAsync, due, decided]

end Before

section Own

variable {judge : SlowJudge ω α} {operation : SlowStep ω α β} {index i : Nat} {a : α}
  {e : Failure} {c : (Dialogue.retry α β failing).Config} {now : Time} {w : ω}
  {r : Answer β × RetryingAsync ω α β × ω}

/-- A reaction while an attempt is under way. -/
theorem retryAsync_trying_reacts {p : Pending ω (Except Failure β)}
    (judges : ∀ e a i, NotedLater (D := Dialogue.retry α β failing) view
      (Attempted.judgment e a i) (judge e a i))
    (counts : index = (itemsOf c.source).length)
    (awaiting : c.status = .awaiting (Attempted.operation a i))
    (replies : ∀ now w, view (p.finish now w).2 =
      view w ++ [.answered (Attempted.operation a i) (p.finish now w).1])
    (clean : c.Clean) (log : view w = c.log)
    (own : (retryAsync failing judge operation).before { index, attempt := .trying a i p } now w =
      some r) :
    Reacts (retryAsync failing judge operation) view (RepeatingAsync failing view)
      { index, attempt := .trying a i p } c now r := by
  by_cases early : now < p.due
  · cases (retryAsync_trying_early early).symm.trans own
    refine ⟨rfl, fun _ => ⟨p.due, List.mem_singleton_self _, early⟩, c, ?_, rfl, .inl rfl⟩
    exact ⟨.refl, .trying counts awaiting replies, log, (List.append_nil _).symm, by simp⟩
  · have said := replies now w
    rcases tried : p.finish now w with ⟨e | x, w'⟩
    · rw [tried] at said
      obtain ⟨asked, replies⟩ := judges e a i now w'
      cases (retryAsync_trying_error early tried).symm.trans own
      refine ⟨rfl, by simp, _, ⟨retry_failed .refl clean awaiting e,
        .judging counts rfl replies, ?_, ?_, by simp⟩, rfl, .inr (.inr (by simp))⟩
      · exact asked.trans (by rw [said, log])
      · exact (List.append_nil _).symm
    · rw [tried] at said
      cases (retryAsync_trying_ok early tried).symm.trans own
      refine ⟨rfl, by simp, _, ⟨retry_succeeded .refl clean awaiting x,
        .idle counts rfl, ?_, rfl, by simp⟩, rfl, .inr (.inr (by simp))⟩
      exact said.trans (by rw [log])

/-- A reaction while a judgment is under way. -/
theorem retryAsync_judging_reacts {p : Pending ω Decision}
    (counts : index = (itemsOf c.source).length)
    (awaiting : c.status = .awaiting (Attempted.judgment e a i))
    (replies : ∀ now w, view (p.finish now w).2 =
      view w ++ [.answered (Attempted.judgment e a i) (p.finish now w).1])
    (clean : c.Clean) (log : view w = c.log)
    (own : (retryAsync failing judge operation).before { index, attempt := .judging a i e p } now
      w = some r) :
    Reacts (retryAsync failing judge operation) view (RepeatingAsync failing view)
      { index, attempt := .judging a i e p } c now r := by
  by_cases early : now < p.due
  · cases (retryAsync_judging_early early).symm.trans own
    refine ⟨rfl, fun _ => ⟨p.due, List.mem_singleton_self _, early⟩, c, ?_, rfl, .inl rfl⟩
    exact ⟨.refl, .judging counts awaiting replies, log, (List.append_nil _).symm, by simp⟩
  · have said := replies now w
    rcases decided : p.finish now w with ⟨_ | _, w'⟩
    · rw [decided] at said
      cases (retryAsync_judging_retry early decided).symm.trans own
      refine ⟨rfl, by simp, _, ⟨retry_resumed .refl clean awaiting,
        .ready counts rfl, ?_, ?_, by simp⟩, rfl, .inr (.inr (by simp))⟩
      · exact said.trans (by rw [log])
      · exact (List.append_nil _).symm
    · rw [decided] at said
      cases (retryAsync_judging_giveUp early decided).symm.trans own
      obtain ⟨notDone, notWait⟩ := givenUp_proper (β := β) failing e
      refine ⟨rfl, fun waits => absurd waits notWait, _, ⟨retry_givenUp .refl clean awaiting,
        .idle counts rfl, ?_, rfl, notDone⟩, rfl, .inr (.inr (by simp))⟩
      exact said.trans (by rw [log])

end Own

theorem retryAsync_converses {judge : SlowJudge ω α} {operation : SlowStep ω α β}
    (attempts : ∀ a i, NotedLater (D := Dialogue.retry α β failing) view
      (Attempted.operation a i) (operation a i))
    (judges : ∀ e a i, NotedLater (D := Dialogue.retry α β failing) view
      (Attempted.judgment e a i) (judge e a i)) :
    Converses (retryAsync failing judge operation) (Dialogue.retry α β failing) view
      (RepeatingAsync failing view) where
  start := .idle rfl rfl
  held := rfl
  asks {m c now w} stands own := by
    cases stands with
    | idle _ idle => exact ⟨idle, rfl⟩
    | ready => simp [retryAsync] at own
    | @trying _ _ _ _ p =>
      by_cases early : now < p.due
      · simp [retryAsync, early] at own
      · simp only [retryAsync, early, if_false] at own
        split at own <;> cases own
    | @judging _ _ _ _ _ p =>
      by_cases early : now < p.due
      · simp [retryAsync, early] at own
      · simp only [retryAsync, early, if_false] at own
        split at own <;> cases own
    | spent => simp [retryAsync] at own
  own {m c now w r} stands clean log own := by
    cases stands with
    | idle => cases own
    | @ready index _ a i counts asking =>
      obtain ⟨said, replies⟩ := attempts a i now w
      cases own
      refine ⟨rfl, by simp, _,
        ⟨retry_asked .refl clean asking, .trying counts rfl replies, ?_, ?_, by simp⟩, rfl,
        .inr (.inr (by simp))⟩
      · exact said.trans (by rw [log])
      · exact (List.append_nil _).symm
    | trying counts awaiting replies =>
      exact retryAsync_trying_reacts judges counts awaiting replies clean log own
    | judging counts awaiting replies =>
      exact retryAsync_judging_reacts counts awaiting replies clean log own
    | spent counts idle =>
      cases own
      exact ⟨rfl, by simp [Answer.spent], c,
        ⟨.refl, .spent counts idle, log, (List.append_nil _).symm, by simp [Answer.spent]⟩, rfl,
        .inr (.inl rfl)⟩
  item {m c} a now w stands clean idle log := by
    have counts : m.index = (itemsOf c.source).length := by
      cases stands <;> assumption
    have taken : c.Leads { c with
        source := c.source ++ [.ok a]
        status := .asking (Attempted.operation a (itemsOf c.source).length) } :=
      .single ⟨clean, .take idle⟩
    refine ⟨rfl, by simp [retryAsync], _, ⟨taken, .ready ?_ ?_, log, ?_, by simp [retryAsync]⟩, rfl⟩
    · simp [counts, itemsOf, Except.toOption]
    · rw [counts]
    · exact (List.append_nil _).symm
  fail _ _ _ _ := rfl
  done {m c} now w stands idle := by
    cases stands with
    | idle counts _ => exact ⟨rfl, .spent counts idle, rfl⟩
    | ready _ asking => cases idle.symm.trans asking
    | trying _ awaiting => cases idle.symm.trans awaiting
    | judging _ awaiting => cases idle.symm.trans awaiting
    | spent counts _ => exact ⟨rfl, .spent counts idle, rfl⟩

theorem retryAsync_patient {judge : SlowJudge ω α} {operation : SlowStep ω α β} :
    Patient (retryAsync failing judge operation) (Dialogue.retry α β failing) view
      (RepeatingAsync failing view) where
  own {m c now w r} stands own puts := by
    cases stands with
    | idle => cases own
    | ready =>
      cases own
      exact absurd rfl puts
    | @trying index _ a i p _ _ replies =>
      by_cases early : now < p.due
      · cases (retryAsync_trying_early early).symm.trans own
        exact absurd rfl puts
      · have said := replies now w
        rcases tried : p.finish now w with ⟨e | x, w'⟩
        · cases (retryAsync_trying_error early tried).symm.trans own
          exact absurd rfl puts
        · cases (retryAsync_trying_ok early tried).symm.trans own
          rw [tried] at said
          exact ⟨_, _, said⟩
    | @judging index _ a i e p _ _ replies =>
      by_cases early : now < p.due
      · cases (retryAsync_judging_early early).symm.trans own
        exact absurd rfl puts
      · have said := replies now w
        rcases decided : p.finish now w with ⟨_ | _, w'⟩
        · cases (retryAsync_judging_retry early decided).symm.trans own
          exact absurd rfl puts
        · cases (retryAsync_judging_giveUp early decided).symm.trans own
          rw [decided] at said
          exact ⟨_, _, said⟩
    | spent =>
      cases own
      exact absurd rfl puts
  item _ _ _ _ := rfl

end Retry
end Transducer
end PullStream
