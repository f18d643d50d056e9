import PullStream.Proofs.Clockwork
import PullStream.Proofs.Stage.Asking

/-!
Visits: running a step function on each element, to a result.

A visit asks one question about each element, as mapping does, and has no outputs but a failure
that ends it. It too comes in two forms, with one dialogue.

* `Consumer.Uses` — the uses of a machine by a consumer.
* `Consumer.forEach_visits`, `Consumer.forEachAsync_visits` — what a visit comes to.
* `Consumer.forEachAsync_takes`, `Consumer.forEachAsync_wakes` — how a visit goes on.
-/

namespace PullStream

variable {ω α ρ : Type}

open Dialogue Transducer

namespace Consumer

/-- The uses of a machine by a consumer, in worlds of which `view` shows what the last use has
left; all else may change in between. -/
inductive Uses {ν : Type} (c : Consumer ω α ρ) (m : Machine ω α) (view : ω → ν) (before : ν) :
    c.Memory → m.State → ν → List (Answer α) → Prop where
  | start : Uses c m view before c.start m.start before []
  | pull {memory s x answers} : Uses c m view before memory s x answers →
      c.want memory = .pull → ∀ now w, view w = x →
      Uses c m view before (c.hear memory (m.poll s now w).1 now (m.poll s now w).2.2).1
        (m.poll s now w).2.1 (view (c.hear memory (m.poll s now w).1 now (m.poll s now w).2.2).2)
        (answers ++ [(m.poll s now w).1])
  | wake {memory s x answers due} : Uses c m view before memory s x answers →
      c.want memory = .rest due → ∀ now w, due ≤ now → view w = x →
      Uses c m view before (c.wake memory now w).1 s (view (c.wake memory now w).2) answers
  | tick {memory s x answers} : Uses c m view before memory s x answers → ∀ now w, view w = x →
      Uses c m view before memory (m.tick s now w).2.1 (view (m.tick s now w).2.2) answers

theorem uses_upheld {ν : Type} (c : Consumer ω α ρ) (m : Machine ω α) (view : ω → ν)
    (before : ν) :
    Uphold m c fun memory s w => ∃ answers, c.Uses m view before memory s (view w) answers where
  pull := by
    rintro memory s w now ⟨answers, used⟩ wants
    exact ⟨_, used.pull wants now w rfl⟩
  wake := by
    rintro memory s w due now ⟨answers, used⟩ wants late
    exact ⟨_, used.wake wants now w late rfl⟩
  tick := by
    rintro memory s w now ⟨answers, used⟩
    exact ⟨_, used.tick now w rfl⟩

end Consumer

/-! ### The dialogue of a visit -/

/-- The dialogue of a visit: one question about each element. -/
abbrev Dialogue.visit (α : Type) : Dialogue α Unit :=
  .mapping α Unit

/-- What the result of a visit says: that all elements have been visited, or which failure has
come. -/
inductive Concluded (answers : List (Answer α)) :
    Except Failure Unit → (visit α).Config → Prop where
  | all {c} : c.Clean → c.status = .idle → .done ∈ answers → Concluded answers (.ok ()) c
  | failed {c e} : c.outs.getLast? = some (.error e) → Concluded answers (.error e) c

theorem Concluded.of_error {answers : List (Answer α)} {outs : List (Except Failure Unit)}
    {e : Failure} {c : (visit α).Config} (last : c.outs = outs ++ [.error e]) :
    Concluded answers (.error e) c :=
  .failed (by rw [last, List.getLast?_concat])

theorem Concluded.ended {answers : List (Answer α)} {r : Except Failure Unit}
    {c : (visit α).Config} (concluded : Concluded answers r c) :
    ¬ c.Clean ∨ c.status = .idle ∧ .done ∈ answers := by
  cases concluded with
  | all clean idle done => exact .inr ⟨idle, done⟩
  | failed last => exact .inl fun clean => clean _ (List.mem_of_getLast? last)

/-- A visit has one result. -/
theorem Concluded.unique {answers answers' : List (Answer α)} {r r' : Except Failure Unit}
    {c : (visit α).Config} (concluded : Concluded answers r c)
    (concluded' : Concluded answers' r' c) : r = r' := by
  cases concluded with
  | all clean =>
    cases concluded' with
    | all => rfl
    | failed last => exact absurd (List.mem_of_getLast? last) (clean _)
  | failed last =>
    cases concluded' with
    | all clean => exact absurd (List.mem_of_getLast? last) (clean _)
    | failed last' => cases last.symm.trans last'; rfl

/-- A visit that has come as far as `c` in its dialogue. -/
structure Visits (m : Machine ω α) (s : m.State) (log : List (visit α).Utterance)
    (answers : List (Answer α)) (c : (visit α).Config) : Prop where
  reached : ({} : (visit α).Config).Leads c
  log : c.log = log
  taken : c.source = outputs answers
  below : m.Reach s answers

namespace Visits

variable {m : Machine ω α} {s : m.State} {view : ω → List (visit α).Utterance}
  {answers : List (Answer α)} {c : (visit α).Config} {now : Time} {w : ω}

/-- A poll that brings nothing. -/
theorem quiet (visits : Visits m s (view w) answers c) (keeps : m.Keeps view) {g : Signal}
    (polled : (m.poll s now w).1 = .signal g) (notFail : ∀ e, g ≠ .fail e) :
    Visits m (m.poll s now w).2.1 (view (m.poll s now w).2.2)
      (answers ++ [(m.poll s now w).1]) c where
  reached := visits.reached
  log := visits.log.trans (keeps.poll s now w).symm
  taken := by
    rw [visits.taken, outputs_append, polled, outputs_singleton, Answer.output?_signal notFail]
    simp
  below := visits.below.poll now w

/-- A poll that brings a failure. -/
theorem failure (visits : Visits m s (view w) answers c) (keeps : m.Keeps view) {e : Failure}
    (polled : (m.poll s now w).1 = .fail e) (clean : c.Clean) (idle : c.status = .idle) :
    Visits m (m.poll s now w).2.1 (view (m.poll s now w).2.2) (answers ++ [(m.poll s now w).1])
      { c with source := c.source ++ [.error e], outs := c.outs ++ [.error e] } where
  reached := visits.reached.tail ⟨clean, .pass idle⟩
  log := visits.log.trans (keeps.poll s now w).symm
  taken := by rw [visits.taken, outputs_append, polled, outputs_fail]
  below := visits.below.poll now w

/-- A poll that brings an element, about which is then asked. -/
theorem item (visits : Visits m s (view w) answers c) {a : α}
    (polled : (m.poll s now w).1 = .item a) (clean : c.Clean) (idle : c.status = .idle) :
    Visits m (m.poll s now w).2.1 (view w ++ [.asked (a, (itemsOf c.source).length)])
      (answers ++ [(m.poll s now w).1]) { c with
        source := c.source ++ [.ok a]
        log := c.log ++ [.asked (a, (itemsOf c.source).length)]
        status := .awaiting (a, (itemsOf c.source).length) } where
  reached := single_asked visits.reached clean idle a
  log := by rw [visits.log]
  taken := by rw [visits.taken, outputs_append, polled, outputs_item]
  below := visits.below.poll now w

/-- A reply. -/
theorem reply {log : List (visit α).Utterance} (visits : Visits m s log answers c)
    (clean : c.Clean) {q : α × Nat} (awaiting : c.status = .awaiting q)
    (r : Except Failure Unit) :
    Visits m s (log ++ [.answered q r]) answers { c with
      log := c.log ++ [.answered q r]
      outs := c.outs ++ (Answer.ofExcept r).output?.toList
      status := .idle } where
  reached := single_heard visits.reached clean awaiting r
  log := by rw [visits.log]
  taken := visits.taken
  below := visits.below

/-- A poll that brings no element: a failure and the end have the result, and all else leaves the
visit where it is. -/
theorem signal (visits : Visits m s (view w) answers c) (keeps : m.Keeps view) {g : Signal}
    (polled : (m.poll s now w).1 = .signal g) (clean : c.Clean) (idle : c.status = .idle) :
    let after := Visits m (m.poll s now w).2.1 (view (m.poll s now w).2.2) (answers ++ [.signal g])
    (∃ e, g = .fail e ∧ ∃ c', after c' ∧ Concluded (answers ++ [.signal g]) (.error e) c') ∨
      (g = .done ∧ after c ∧ Concluded (answers ++ [.signal g]) (.ok ()) c) ∨
      ((∀ e, g ≠ .fail e) ∧ g ≠ .done ∧ after c) := by
  intro after
  by_cases fails : ∃ e, g = .fail e
  · obtain ⟨e, rfl⟩ := fails
    have failed := visits.failure keeps polled clean idle
    rw [polled] at failed
    exact .inl ⟨e, rfl, _, failed, .of_error rfl⟩
  · have notFail : ∀ e, g ≠ .fail e := fun e same => fails ⟨e, same⟩
    have stays := visits.quiet keeps polled notFail
    rw [polled] at stays
    by_cases done : g = .done
    · subst done
      exact .inr (.inl ⟨rfl, stays, .all clean idle (by simp)⟩)
    · exact .inr (.inr ⟨notFail, done, stays⟩)

theorem tick (visits : Visits m s (view w) answers c) (keeps : m.Keeps view) :
    Visits m (m.tick s now w).2.1 (view (m.tick s now w).2.2) answers c where
  reached := visits.reached
  log := visits.log.trans (keeps.tick s now w).symm
  taken := visits.taken
  below := visits.below.tick now w

end Visits

/-! ### Visiting at once -/

namespace Consumer

variable {m : Machine ω α} {view : ω → List (visit α).Utterance} (keeps : m.Keeps view)

/-- Where a visit stands whose step function replies at once. -/
inductive AtOnce (answers : List (Answer α)) :
    Folding Unit Unit → (visit α).Config → Prop where
  | running {i c} : i = (itemsOf c.source).length → c.status = .idle → c.Clean →
      AtOnce answers (.running () i) c
  | finished {r c} : Concluded answers r c → AtOnce answers (.finished r) c

theorem AtOnce.concluded {f : Step ω α Unit} {answers : List (Answer α)}
    {memory : (forEach f).Memory} {c : (visit α).Config} (stands : AtOnce answers memory c)
    {r : Result Unit} (wants : (forEach f).want memory = .finish r) : Concluded answers r c := by
  cases stands with
  | running => cases wants
  | finished concluded =>
    cases wants
    exact concluded

theorem forEach_item_ok {f : Step ω α Unit} {a : α} {i : Nat} {now : Time} {w w' : ω}
    (result : f a i now w = (.ok (), w')) :
    (forEach f).hear (.running () i) (.item a) now w = (.running () (i + 1), w') := by
  simp [Consumer.hear, forEach, reduce, fold, result]

theorem forEach_item_error {f : Step ω α Unit} {a : α} {i : Nat} {now : Time} {w w' : ω}
    {e : Failure} (result : f a i now w = (.error e, w')) :
    (forEach f).hear (.running () i) (.item a) now w = (.finished (.error e), w') := by
  simp [Consumer.hear, forEach, reduce, fold, result]

include keeps in
/-- A visit whose step function replies at once. -/
theorem forEach_visits {f : Step ω α Unit}
    (noted : ∀ a i, Noted (D := visit α) view (a, i) (f a i))
    {memory : (forEach f).Memory} {s : m.State} {log : List (visit α).Utterance}
    {answers : List (Answer α)} (used : (forEach f).Uses m view [] memory s log answers) :
    ∃ c, Visits m s log answers c ∧ AtOnce answers memory c := by
  induction used with
  | start => exact ⟨{}, ⟨.refl, rfl, rfl, .start⟩, .running rfl rfl fun _ => List.not_mem_nil⟩
  | @pull memory s x answers _ wants now w same ih =>
    subst same
    obtain ⟨c, visits, stands⟩ := ih
    cases stands with
    | finished => cases wants
    | @running i _ counts idle clean =>
      cases polled : (m.poll s now w).1 with
      | item a =>
        subst counts
        have asked := visits.item polled clean idle
        rcases result : f a (itemsOf c.source).length now (m.poll s now w).2.2 with ⟨r, w'⟩
        have said : view w' = view w ++ [.asked (a, (itemsOf c.source).length)] ++
            [.answered (a, (itemsOf c.source).length) r] := by
          have both := noted a (itemsOf c.source).length now (m.poll s now w).2.2
          rw [result, keeps.poll] at both
          simpa using both
        have replied := asked.reply clean rfl r
        rw [polled] at replied
        cases r with
        | ok u =>
          rw [forEach_item_ok result, said]
          refine ⟨_, replied, .running ?_ rfl ?_⟩
          · simp [itemsOf, Except.toOption]
          · simpa [Config.Clean, Answer.ofExcept, Answer.output?] using clean
        | error e =>
          rw [forEach_item_error result, said]
          exact ⟨_, replied, .finished (.of_error rfl)⟩
      | signal g =>
        rcases visits.signal keeps polled clean idle with
          ⟨e, rfl, c', failed, concluded⟩ | ⟨rfl, ended, concluded⟩ | ⟨notFail, notDone, stays⟩
        · exact ⟨c', failed, .finished concluded⟩
        · exact ⟨c, ended, .finished concluded⟩
        · have same :=
            (forEach f).hear_signal (.running () i) now (m.poll s now w).2.2 notFail notDone
          rw [same]
          exact ⟨c, stays, .running counts idle clean⟩
  | @wake memory s x answers due _ wants now w late same ih =>
    obtain ⟨c, visits, stands⟩ := ih
    cases stands <;> cases wants
  | @tick memory s x answers _ now w same ih =>
    subst same
    obtain ⟨c, visits, stands⟩ := ih
    exact ⟨c, visits.tick keeps, stands⟩

/-! ### Visiting in a while -/

/-- Where a visit stands whose step function takes a while. -/
inductive InAWhile (view : ω → List (visit α).Utterance) (answers : List (Answer α)) :
    Visiting ω → (visit α).Config → Prop where
  | pulling {i c} : i = (itemsOf c.source).length → c.status = .idle → c.Clean →
      InAWhile view answers (.pulling i) c
  | acting {i c} {q : α × Nat} {p : Pending ω (Except Failure Unit)} :
      i + 1 = (itemsOf c.source).length → c.status = .awaiting q → c.Clean →
      (∀ now w, view (p.finish now w).2 = view w ++ [.answered q (p.finish now w).1]) →
      InAWhile view answers (.acting i p) c
  | finished {r c} : Concluded answers r c → InAWhile view answers (.finished r) c

theorem InAWhile.concluded {f : SlowStep ω α Unit} {answers : List (Answer α)}
    {memory : (forEachAsync f).Memory} {c : (visit α).Config}
    (stands : InAWhile view answers memory c) {r : Result Unit}
    (wants : (forEachAsync f).want memory = .finish r) : Concluded answers r c := by
  cases stands with
  | pulling => cases wants
  | acting => cases wants
  | finished concluded =>
    cases wants
    exact concluded

/-- A visit rests while a reply is awaited. -/
theorem InAWhile.awaits {f : SlowStep ω α Unit} {answers : List (Answer α)}
    {memory : (forEachAsync f).Memory} {c : (visit α).Config}
    (stands : InAWhile view answers memory c) {due : Time}
    (wants : (forEachAsync f).want memory = .rest due) : c.status.opened ≠ none := by
  cases stands with
  | pulling => cases wants
  | finished => cases wants
  | acting _ awaiting =>
    rw [awaiting]
    simp [Status.opened]

theorem forEachAsync_wake_ok {f : SlowStep ω α Unit} {i : Nat} {p : Pending ω (Except Failure Unit)}
    {now : Time} {w w' : ω} (result : p.finish now w = (.ok (), w')) :
    (forEachAsync f).wake (.acting i p) now w = (.pulling (i + 1), w') := by
  simp [forEachAsync, result]

theorem forEachAsync_wake_error {f : SlowStep ω α Unit} {i : Nat}
    {p : Pending ω (Except Failure Unit)} {now : Time} {w w' : ω} {e : Failure}
    (result : p.finish now w = (.error e, w')) :
    (forEachAsync f).wake (.acting i p) now w = (.finished (.error e), w') := by
  simp [forEachAsync, result]

include keeps in
/-- A visit whose step function takes a while. -/
theorem forEachAsync_visits {f : SlowStep ω α Unit}
    (noted : ∀ a i, NotedLater (D := visit α) view (a, i) (f a i))
    {memory : (forEachAsync f).Memory} {s : m.State} {log : List (visit α).Utterance}
    {answers : List (Answer α)} (used : (forEachAsync f).Uses m view [] memory s log answers) :
    ∃ c, Visits m s log answers c ∧ InAWhile view answers memory c := by
  induction used with
  | start => exact ⟨{}, ⟨.refl, rfl, rfl, .start⟩, .pulling rfl rfl fun _ => List.not_mem_nil⟩
  | @pull memory s x answers _ wants now w same ih =>
    subst same
    obtain ⟨c, visits, stands⟩ := ih
    cases stands with
    | finished => cases wants
    | acting => cases wants
    | @pulling i _ counts idle clean =>
      cases polled : (m.poll s now w).1 with
      | item a =>
        subst counts
        have asked := visits.item polled clean idle
        obtain ⟨said, replies⟩ := noted a (itemsOf c.source).length now (m.poll s now w).2.2
        rw [keeps.poll] at said
        rw [← said, polled] at asked
        refine ⟨_, asked, .acting ?_ rfl clean replies⟩
        simp [itemsOf, Except.toOption]
      | signal g =>
        rcases visits.signal keeps polled clean idle with
          ⟨e, rfl, c', failed, concluded⟩ | ⟨rfl, ended, concluded⟩ | ⟨notFail, notDone, stays⟩
        · exact ⟨c', failed, .finished concluded⟩
        · exact ⟨c, ended, .finished concluded⟩
        · have same :=
            (forEachAsync f).hear_signal (.pulling i) now (m.poll s now w).2.2 notFail notDone
          rw [same]
          exact ⟨c, stays, .pulling counts idle clean⟩
  | @wake memory s x answers due _ wants now w late same ih =>
    subst same
    obtain ⟨c, visits, stands⟩ := ih
    cases stands with
    | finished => cases wants
    | pulling => cases wants
    | @acting i _ q p counts awaiting clean replies =>
      have said := replies now w
      rcases result : p.finish now w with ⟨e | u, w'⟩
      · have wakes := forEachAsync_wake_error (f := f) (i := i) result
        rw [result] at said
        have replied := visits.reply clean awaiting (.error e)
        rw [wakes, said]
        exact ⟨_, replied, .finished (.of_error rfl)⟩
      · have wakes := forEachAsync_wake_ok (f := f) (i := i) result
        rw [result] at said
        have replied := visits.reply clean awaiting (.ok u)
        rw [wakes, said]
        refine ⟨_, replied, .pulling counts rfl ?_⟩
        simpa [Config.Clean, Answer.ofExcept, Answer.output?] using clean
  | @tick memory s x answers _ now w same ih =>
    subst same
    obtain ⟨c, visits, stands⟩ := ih
    exact ⟨c, visits.tick keeps, stands⟩

/-! ### Going on -/

include keeps in
/-- A visit that pulls asks about an element at once, and at a failure or the end it has its
result. -/
theorem forEachAsync_takes {f : SlowStep ω α Unit}
    (noted : ∀ a i, NotedLater (D := visit α) view (a, i) (f a i))
    {memory : (forEachAsync f).Memory} (wants : (forEachAsync f).want memory = .pull) (s : m.State)
    (now : Time) (w : ω) :
    let x := m.poll s now w
    let after := (forEachAsync f).hear memory x.1 now x.2.2
    (∀ a, x.1 = .item a → (∃ due, (forEachAsync f).want after.1 = .rest due) ∧
      ∃ q, view after.2 = view w ++ [.asked q]) ∧
    (x.1 = .done ∨ (∃ e, x.1 = .fail e) → ∃ r, (forEachAsync f).want after.1 = .finish r) := by
  intro x after
  cases memory with
  | acting => cases wants
  | finished => cases wants
  | pulling i =>
    constructor
    · intro a brings
      obtain ⟨said, -⟩ := noted a i now x.2.2
      rw [keeps.poll] at said
      simp only [after, brings]
      exact ⟨⟨_, rfl⟩, _, said⟩
    · rintro (ends | ⟨e, fails⟩)
      · simp only [after, ends]
        exact ⟨.ok (), rfl⟩
      · simp only [after, fails]
        exact ⟨.error e, rfl⟩

include keeps in
/-- A visit that rests takes the reply to its last question when it is due, and rests no more. -/
theorem forEachAsync_wakes {f : SlowStep ω α Unit}
    (noted : ∀ a i, NotedLater (D := visit α) view (a, i) (f a i))
    {memory : (forEachAsync f).Memory} {s : m.State} {answers : List (Answer α)} {w : ω}
    (used : (forEachAsync f).Uses m view [] memory s (view w) answers) {due : Time}
    (wants : (forEachAsync f).want memory = .rest due) (now : Time) :
    ∃ q r, Config.Turns (view w) (some q) ∧
      view ((forEachAsync f).wake memory now w).2 = view w ++ [.answered q r] ∧
      ∀ due', (forEachAsync f).want ((forEachAsync f).wake memory now w).1 ≠ .rest due' := by
  obtain ⟨c, visits, stands⟩ := forEachAsync_visits keeps noted used
  cases stands with
  | pulling => cases wants
  | finished => cases wants
  | @acting i _ q p counts awaiting clean replies =>
    have turns := visits.reached.turns
    rw [visits.log, awaiting] at turns
    have said := replies now w
    rcases result : p.finish now w with ⟨e | u, w'⟩
    · rw [result] at said
      rw [forEachAsync_wake_error result]
      exact ⟨q, .error e, turns, said, nofun⟩
    · rw [result] at said
      rw [forEachAsync_wake_ok result]
      exact ⟨q, .ok u, turns, said, nofun⟩

end Consumer
end PullStream
