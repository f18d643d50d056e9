import Mathlib.Data.List.Induction
import Mathlib.Logic.Relation
import PullStream.Consumer
import PullStream.Proofs.Machine.Delivery

/-!
Draining a machine, however it is done.

A machine is drained by polls up to the first failure or the end. Who drains it may stop asking at
any time and ask again later; in the meantime background work goes on, the clock moves and others
use the world. So a draining is any polls at any instants in any worlds, with any background work
in between, and what it comes to is what has arrived. A machine can be resumed if of two drainings
one has the same arrivals as the other, or fewer.

What arrives from such a machine is told by position: the machine has a script. What is built on
machines is shown to be resumable by a course: a function that says what comes next, and goes by
the scripts below. There are no instants and no worlds in it, so it leaves no choice.

* `Draining`, `Resumable` — drainings, and what must not depend on them.
* `Resumable.finished_eq` — two drainings that have been finished are the same.
* `GoesBy`, `Resumable.script` — the script of a machine that can be resumed.
* `resumable_of_course` — a machine that is somewhere on a course, however it is drained.
* `Delivers.resumable`, `resumable_of_plain`, `Resumable.guarded` — lists, machines without a
  clock, and guarding.
-/

namespace PullStream

variable {ω α β : Type}

/-! ### Arrivals -/

/-- Behind a failure or the end nothing arrives. -/
def Arrival.isLast : Arrival α → Bool
  | .item _ => false
  | _ => true

/-- The arrival of a result. -/
def Arrival.ofResult : Except Failure α → Arrival α
  | .ok a => .item a
  | .error e => .failure e

/-- The arrival behind the items: a failure, or the end. -/
def Arrival.ending : Option Failure → Arrival α
  | some e => .failure e
  | none => .ended

theorem Arrival.ending_isLast (fault : Option Failure) :
    (ending fault : Arrival α).isLast = true := by
  cases fault <;> rfl

/-- The result that arrives, if one does. -/
def Arrival.result? : Arrival α → Option (Except Failure α)
  | .item a => some (.ok a)
  | .failure e => some (.error e)
  | .ended => none

/-- What arrives with an answer, if anything. -/
def Answer.arrival? : Answer α → Option (Arrival α)
  | .item a => some (.item a)
  | .fail e => some (.failure e)
  | .done => some .ended
  | _ => none

/-- A signal that is neither a failure nor the end brings nothing. -/
theorem Answer.arrival?_signal {g : Signal} (notFail : ∀ e, g ≠ .fail e) (notDone : g ≠ .done) :
    (Answer.signal g : Answer α).arrival? = none := by
  cases g with
  | fail e => exact absurd rfl (notFail e)
  | done => exact absurd rfl notDone
  | _ => rfl

theorem Answer.arrival?_eq_ended {a : Answer α} : a.arrival? = some .ended ↔ a = .done := by
  cases a with
  | item a => simp [arrival?]
  | signal g => cases g <;> simp [arrival?]

theorem Answer.arrival?_eq_failure {a : Answer α} {e : Failure} :
    a.arrival? = some (.failure e) ↔ a = .fail e := by
  cases a with
  | item a => simp [arrival?]
  | signal g => cases g <;> simp [arrival?]

/-- What has arrived with some answers. -/
def arrivals (answers : List (Answer α)) : List (Arrival α) :=
  answers.filterMap Answer.arrival?

theorem arrivals_concat (answers : List (Answer α)) (a : Answer α) :
    arrivals (answers ++ [a]) = arrivals answers ++ a.arrival?.toList := by
  cases h : a.arrival? with
  | none => simp [arrivals, h]
  | some r => simp [arrivals, h]

/-- An answer may bring nothing. -/
theorem arrivals_quiet (answers : List (Answer α)) {a : Answer α} (quiet : a.arrival? = none) :
    arrivals (answers ++ [a]) = arrivals answers := by
  rw [arrivals_concat, quiet, Option.toList_none, List.append_nil]

/-- The results among arrivals. -/
def resultsIn (as : List (Arrival α)) : List (Except Failure α) :=
  as.filterMap Arrival.result?

@[simp] theorem resultsIn_append (as bs : List (Arrival α)) :
    resultsIn (as ++ bs) = resultsIn as ++ resultsIn bs :=
  List.filterMap_append

@[simp] theorem resultsIn_items (xs : List α) :
    resultsIn (xs.map Arrival.item) = xs.map Except.ok := by
  simp [resultsIn, Arrival.result?, Function.comp_def]

@[simp] theorem resultsIn_item (a : α) : resultsIn [.item a] = [.ok a] := rfl

@[simp] theorem resultsIn_failure (e : Failure) :
    resultsIn [.failure e] = [(.error e : Except Failure α)] := rfl

@[simp] theorem resultsIn_ended : resultsIn [(.ended : Arrival α)] = [] := rfl

theorem resultsIn_arrivals (answers : List (Answer α)) :
    resultsIn (arrivals answers) = outputs answers := by
  rw [resultsIn, arrivals, outputs, List.filterMap_filterMap]
  congr 1
  funext a
  cases a with
  | item a => rfl
  | signal g => cases g <;> rfl

theorem ended_mem_arrivals {answers : List (Answer α)} :
    .ended ∈ arrivals answers ↔ .done ∈ answers := by
  simp [arrivals, Answer.arrival?_eq_ended]

theorem failure_mem_arrivals {answers : List (Answer α)} {e : Failure} :
    .failure e ∈ arrivals answers ↔ .fail e ∈ answers := by
  simp [arrivals, Answer.arrival?_eq_failure]

/-- More may arrive. -/
def Unended (as : List (Arrival α)) : Prop := ∀ a ∈ as, a.isLast = false

theorem Unended.nil : Unended ([] : List (Arrival α)) :=
  fun _ member => absurd member List.not_mem_nil

theorem unended_append {as bs : List (Arrival α)} :
    Unended (as ++ bs) ↔ Unended as ∧ Unended bs := by
  simp [Unended, or_imp, forall_and]

/-- A failure or the end arrives. -/
def EndsWith (a : Option (Arrival α)) : Prop := ∃ b, a = some b ∧ b.isLast = true

theorem unended_toList {a : Option (Arrival α)} : Unended a.toList ↔ ¬ EndsWith a := by
  cases a <;> simp [Unended, EndsWith]

/-- Without a failure and an end there are items only. -/
theorem Unended.items {as : List (Arrival α)} (unended : Unended as) :
    ∃ xs : List α, as = xs.map Arrival.item := by
  induction as with
  | nil => exact ⟨[], rfl⟩
  | cons a as ih =>
    obtain ⟨xs, rfl⟩ := ih fun b member => unended b (List.mem_cons_of_mem _ member)
    cases a with
    | item x => exact ⟨x :: xs, rfl⟩
    | failure e => exact absurd (unended _ List.mem_cons_self) (by simp [Arrival.isLast])
    | ended => exact absurd (unended _ List.mem_cons_self) (by simp [Arrival.isLast])

/-- If nothing has arrived behind the last arrival, what has arrived is told by the results and
whether the end is among it. -/
theorem eq_of_unended_dropLast {as : List (Arrival α)} (front : Unended as.dropLast) :
    (as = (resultsIn as).map Arrival.ofResult ∧ .ended ∉ as) ∨
      (as = (resultsIn as).map Arrival.ofResult ++ [.ended] ∧ .ended ∈ as ∧
        ∀ e, .error e ∉ resultsIn as) := by
  rcases List.eq_nil_or_concat as with rfl | ⟨before, last, rfl⟩
  · exact .inl ⟨rfl, List.not_mem_nil⟩
  · rw [List.concat_eq_append, List.dropLast_concat] at front
    obtain ⟨xs, rfl⟩ := front.items
    rw [List.concat_eq_append, resultsIn_append, resultsIn_items]
    cases last with
    | item a => exact .inl ⟨by simp [Arrival.ofResult], by simp⟩
    | failure e => exact .inl ⟨by simp [Arrival.ofResult], by simp⟩
    | ended => exact .inr ⟨by simp [Arrival.ofResult], by simp, by simp⟩

/-- Results of a list, and all of them if the end has come. -/
theorem prefix_of_results {as : List (Arrival α)} (front : Unended as.dropLast)
    {list : List (Except Failure α)} (first : resultsIn as <+: list)
    (all : .ended ∈ as → resultsIn as = list) : as <+: list.map Arrival.ofResult ++ [.ended] := by
  rcases eq_of_unended_dropLast front with ⟨same, -⟩ | ⟨same, ended, -⟩
  · rw [same]
    exact (first.map _).trans (List.prefix_append _ _)
  · rw [all ended] at same
    exact ⟨[], (List.append_nil _).trans same⟩

/-- Results of other arrivals, and all of them if the end has come. -/
theorem prefix_of_resultsIn {as bs : List (Arrival α)} (front : Unended as.dropLast)
    (front' : Unended bs.dropLast) (first : resultsIn as <+: resultsIn bs)
    (all : .ended ∈ as → resultsIn as = resultsIn bs ∧ ¬ Unended bs) : as <+: bs := by
  rcases eq_of_unended_dropLast front with ⟨same, -⟩ | ⟨same, ended, clean⟩
  · rw [same]
    refine (first.map _).trans ?_
    rcases eq_of_unended_dropLast front' with ⟨same', -⟩ | ⟨same', -⟩
    · exact ⟨[], (List.append_nil _).trans same'.symm⟩
    · exact ⟨_, same'.symm⟩
  · obtain ⟨whole, finished⟩ := all ended
    rcases eq_of_unended_dropLast front' with ⟨same', notEnded⟩ | ⟨same', -⟩
    · -- Neither a failure nor the end is there, so more may arrive.
      refine absurd (fun a member => ?_) finished
      cases a with
      | item a => rfl
      | failure e =>
        have failed : .error e ∈ resultsIn bs := List.mem_filterMap.mpr ⟨_, member, rfl⟩
        exact absurd (whole ▸ failed) (clean e)
      | ended => exact absurd member notEnded
    · rw [whole, ← same'] at same
      exact ⟨[], (List.append_nil _).trans same⟩

/-! ### Scripts -/

/-- What arrives, by position. -/
abbrev Script (α : Type) := Nat → Option (Arrival α)

/-- The script begins with these arrivals. -/
def Script.Begins (script : Script α) (as : List (Arrival α)) : Prop :=
  ∀ ⦃i a⦄, as[i]? = some a → script i = some a

namespace Script

variable {script : Script α} {as bs : List (Arrival α)} {a : Arrival α}

theorem Begins.mono (begins : script.Begins bs) (first : as <+: bs) : script.Begins as := by
  obtain ⟨rest, rfl⟩ := first
  intro i a there
  have inside := (List.getElem?_eq_some_iff.mp there).1
  apply begins
  rw [List.getElem?_append_left inside]
  exact there

/-- What comes behind the first arrivals is told by their number. -/
theorem Begins.next (begins : script.Begins (as ++ [a])) : script as.length = some a :=
  begins (by simp)

theorem Begins.concat (begins : script.Begins as) (next : script as.length = some a) :
    script.Begins (as ++ [a]) := by
  intro i b there
  rcases Nat.lt_trichotomy i as.length with inside | rfl | behind
  · rw [List.getElem?_append_left inside] at there
    exact begins there
  · rw [List.getElem?_concat_length] at there
    rw [next, there]
  · have bound := (List.getElem?_eq_some_iff.mp there).1
    rw [List.length_append, List.length_singleton] at bound
    omega

/-- Lists of which one is always a first part of the other are beginnings of one script. -/
theorem exists_of_comparable {P : List (Arrival α) → Prop}
    (comparable : ∀ as bs, P as → P bs → as <+: bs ∨ bs <+: as) :
    ∃ script : Script α, ∀ as, P as → script.Begins as := by
  classical
  refine ⟨fun i => if h : ∃ a as, P as ∧ as[i]? = some a then some h.choose else none, ?_⟩
  intro as drained i a there
  have known : ∃ a as, P as ∧ as[i]? = some a := ⟨a, as, drained, there⟩
  simp only [dif_pos known]
  obtain ⟨bs, drained', there'⟩ := known.choose_spec
  rcases comparable as bs drained drained' with ⟨rest, same⟩ | ⟨rest, same⟩
  · rw [← same, List.getElem?_append_left (List.getElem?_eq_some_iff.mp there).1, there] at there'
    exact there'.symm
  · rw [← same, List.getElem?_append_left (List.getElem?_eq_some_iff.mp there').1, there'] at there
    exact there

end Script

/-! ### Drainings -/

namespace Machine

variable {m : Machine ω α}

/-- A state that draining the machine leads to, with what has arrived. Nobody asks after the first
failure or end. -/
inductive Draining (m : Machine ω α) : m.State → List (Arrival α) → Prop where
  | start : Draining m m.start []
  | poll {s as} : Draining m s as → Unended as → ∀ now w,
      Draining m (m.poll s now w).2.1 (as ++ (m.poll s now w).1.arrival?.toList)
  | tick {s as} : Draining m s as → ∀ now w, Draining m (m.tick s now w).2.1 as

/-- However the machine is drained, the same arrives: of two drainings, one may have come further
than the other. -/
def Resumable (m : Machine ω α) : Prop :=
  ∀ ⦃s as s' as'⦄, m.Draining s as → m.Draining s' as' → as <+: as' ∨ as' <+: as

/-- The last arrival is the only one of its kind. -/
theorem Draining.unended_dropLast {s : m.State} {as : List (Arrival α)}
    (draining : m.Draining s as) : Unended as.dropLast := by
  induction draining with
  | start => exact .nil
  | @poll s as _ unended now w =>
    have front : Unended as.dropLast := fun a member => unended a (List.dropLast_subset _ member)
    cases (m.poll s now w).1.arrival? with
    | none => simpa using front
    | some a => simpa using unended
  | tick _ _ _ ih => exact ih

/-- A draining is a use of the machine. -/
theorem Draining.reach {s : m.State} {as : List (Arrival α)} (draining : m.Draining s as) :
    ∃ answers, m.Reach s answers ∧ arrivals answers = as := by
  induction draining with
  | start => exact ⟨[], .start, rfl⟩
  | poll _ _ now w ih =>
    obtain ⟨answers, reached, rfl⟩ := ih
    exact ⟨_, reached.poll now w, arrivals_concat _ _⟩
  | tick _ now w ih =>
    obtain ⟨answers, reached, same⟩ := ih
    exact ⟨answers, reached.tick now w, same⟩

/-- A draining that has met with a failure or the end has everything. -/
theorem Draining.eq_of_prefix {s : m.State} {as as' : List (Arrival α)}
    (draining : m.Draining s as') (finished : ¬ Unended as) (first : as <+: as') : as = as' := by
  obtain ⟨rest, rfl⟩ := first
  cases rest with
  | nil => exact (List.append_nil _).symm
  | cons a rest =>
    have front := draining.unended_dropLast
    rw [List.dropLast_append_of_ne_nil (List.cons_ne_nil _ _), unended_append] at front
    exact absurd front.1 finished

/-- Two drainings up to a failure or the end have the same arrivals, the last one included. -/
theorem Resumable.finished_eq (resumable : m.Resumable) {s s' : m.State}
    {as as' : List (Arrival α)} (draining : m.Draining s as) (draining' : m.Draining s' as')
    (finished : ¬ Unended as) (finished' : ¬ Unended as') : as = as' := by
  rcases resumable draining draining' with first | first
  · exact draining'.eq_of_prefix finished first
  · exact (draining.eq_of_prefix finished' first).symm

/-- Whatever arrives from the machine is what the script has. -/
def GoesBy (m : Machine ω α) (script : Script α) : Prop :=
  ∀ ⦃s as⦄, m.Draining s as → script.Begins as

/-- A machine that can be resumed has a script. -/
theorem Resumable.script (resumable : m.Resumable) : ∃ script, m.GoesBy script := by
  obtain ⟨script, begins⟩ := Script.exists_of_comparable
    (P := fun as => ∃ s, m.Draining s as) fun as bs ⟨_, first⟩ ⟨_, second⟩ => resumable first second
  exact ⟨script, fun s as draining => begins as ⟨s, draining⟩⟩

/-! ### By number -/

/-- So much has arrived from the machine, and more may. -/
def Heard (m : Machine ω α) (s : m.State) (n : Nat) : Prop :=
  ∃ as, m.Draining s as ∧ Unended as ∧ as.length = n

theorem Heard.start : m.Heard m.start 0 :=
  ⟨[], .start, .nil, rfl⟩

theorem Heard.tick {s : m.State} {n : Nat} (heard : m.Heard s n) (now : Time) (w : ω) :
    m.Heard (m.tick s now w).2.1 n := by
  obtain ⟨as, draining, more, far⟩ := heard
  exact ⟨as, draining.tick now w, more, far⟩

/-- What comes of an answer: nothing arrives, or what the script has next. -/
inductive Heard.Next (m : Machine ω α) (script : Script α) (n : Nat) (s : m.State)
    (a : Answer α) : Prop where
  | quiet : a.arrival? = none → m.Heard s n → Next m script n s a
  | arrives {b} : a.arrival? = some b → script n = some b →
      (b.isLast = false → m.Heard s (n + 1)) → Next m script n s a

theorem Heard.next {script : Script α} (begins : m.GoesBy script) {s s' : m.State} {n : Nat}
    (heard : m.Heard s n) {now : Time} {w w' : ω} {a : Answer α}
    (answer : m.poll s now w = (a, s', w')) : Heard.Next m script n s' a := by
  obtain ⟨as, draining, more, rfl⟩ := heard
  have next := draining.poll more now w
  rw [answer] at next
  cases arrives : a.arrival? with
  | none =>
    rw [arrives, Option.toList_none, List.append_nil] at next
    exact .quiet arrives ⟨as, next, more, rfl⟩
  | some b =>
    rw [arrives] at next
    refine .arrives arrives (begins next).next fun goesOn => ⟨_, next, ?_, by simp⟩
    exact unended_append.mpr ⟨more, by simpa [Unended] using goesOn⟩

/-- In a world that nobody is in, nothing arrives. -/
theorem resumable_of_world (resumable : ω → m.Resumable) : m.Resumable := by
  intro s as s' as' draining draining'
  have none : ∀ {s as}, m.Draining s as → as = [] ∨ Nonempty ω := by
    intro s as draining
    induction draining with
    | start => exact .inl rfl
    | poll _ _ _ w => exact .inr ⟨w⟩
    | tick _ _ w => exact .inr ⟨w⟩
  rcases none draining with rfl | ⟨⟨w⟩⟩
  · exact .inl (List.nil_prefix)
  · exact resumable w draining draining'

/-! ### Courses -/

/-- One step of a course: where it leads, and what has arrived with it. -/
def Goes {P : Type} (next : P → Option (P × Option (Arrival α))) (x y : P × List (Arrival α)) :
    Prop :=
  ∃ r, next x.1 = some r ∧ y = (r.1, x.2 ++ r.2.toList)

theorem goes_unique {P : Type} (next : P → Option (P × Option (Arrival α))) :
    Relator.RightUnique (Goes next) := by
  rintro x y z ⟨r, ahead, rfl⟩ ⟨r', ahead', rfl⟩
  cases ahead.symm.trans ahead'
  rfl

theorem prefix_of_goes {P : Type} {next : P → Option (P × Option (Arrival α))}
    {x y : P × List (Arrival α)} (leads : Relation.ReflTransGen (Goes next) x y) :
    x.2 <+: y.2 := by
  induction leads with
  | refl => exact List.prefix_rfl
  | tail _ last ih =>
    obtain ⟨r, -, rfl⟩ := last
    exact ih.trans (List.prefix_append _ _)

/-- What a poll comes to on a course: nothing arrives and the machine stays where it is, or it goes
on by one step, and as long as more may arrive it is there. -/
def Proceeds {σ P : Type} (next : P → Option (P × Option (Arrival α))) (placed : σ → P → Prop)
    (p : P) (r : Answer α × σ × ω) : Prop :=
  (r.1.arrival? = none ∧ placed r.2.1 p) ∨
    ∃ p', next p = some (p', r.1.arrival?) ∧ (¬ EndsWith r.1.arrival? → placed r.2.1 p')

/-- A machine that is somewhere on a course, as long as more may arrive. -/
theorem resumable_of_course {P : Type} (next : P → Option (P × Option (Arrival α)))
    (placed : m.State → P → Prop) (start : P) (begins : placed m.start start)
    (ticked : ∀ {s p} now w, placed s p → placed (m.tick s now w).2.1 p)
    (polled : ∀ {s p} now w, placed s p → Proceeds next placed p (m.poll s now w)) :
    m.Resumable := by
  have follows : ∀ {s as}, m.Draining s as → ∃ p,
      Relation.ReflTransGen (Goes next) (start, []) (p, as) ∧ (Unended as → placed s p) := by
    intro s as draining
    induction draining with
    | start => exact ⟨start, .refl, fun _ => begins⟩
    | tick _ now w ih =>
      obtain ⟨p, reached, there⟩ := ih
      exact ⟨p, reached, fun more => ticked now w (there more)⟩
    | poll _ unended now w ih =>
      obtain ⟨p, reached, there⟩ := ih
      rcases polled now w (there unended) with ⟨quiet, still⟩ | ⟨p', ahead, goesOn⟩
      · rw [quiet, Option.toList_none, List.append_nil]
        exact ⟨p, reached, fun _ => still⟩
      · refine ⟨p', reached.tail ⟨_, ahead, rfl⟩, fun more => goesOn ?_⟩
        exact unended_toList.mp (unended_append.mp more).2
  intro s as s' as' draining draining'
  obtain ⟨p, reached, -⟩ := follows draining
  obtain ⟨p', reached', -⟩ := follows draining'
  rcases Relation.ReflTransGen.total_of_right_unique (goes_unique next) reached reached' with
    ahead | behind
  · exact .inl (prefix_of_goes ahead)
  · exact .inr (prefix_of_goes behind)

/-- A machine of which neither the clock nor the world matters, and which has no background work:
what it shows of its state decides what it answers. -/
theorem resumable_of_plain {σ : Type} (view : m.State → σ) (answer : σ → Answer α) (next : σ → σ)
    (polled : ∀ s now w, (m.poll s now w).1 = answer (view s) ∧
      view (m.poll s now w).2.1 = next (view s))
    (ticked : ∀ s now w, view (m.tick s now w).2.1 = view s) : m.Resumable := by
  refine resumable_of_course (fun x => some (next x, (answer x).arrival?))
    (fun s x => view s = x) (view m.start) rfl ?_ ?_
  · rintro s _ now w rfl
    exact ticked s now w
  · rintro s _ now w rfl
    obtain ⟨same, goesOn⟩ := polled s now w
    exact .inr ⟨_, by rw [same], fun _ => goesOn⟩

/-! ### Guarding -/

/-- A guarded machine that is drained has its machine drained. -/
theorem Draining.guarded {s : m.guarded.State} {as : List (Arrival α)}
    (draining : m.guarded.Draining s as) :
    m.Draining s.1 as ∧ (s.2 = true → ¬ Unended as) := by
  induction draining with
  | start => exact ⟨.start, nofun⟩
  | @poll s as _ unended now w ih =>
    obtain ⟨below, failed⟩ := ih
    obtain ⟨s, _ | _⟩ := s
    · rw [guarded_poll_going]
      refine ⟨below.poll unended now w, ?_⟩
      intro isFailure more
      obtain ⟨e, same⟩ := Answer.isFailure_iff.mp isFailure
      rw [same] at more
      exact absurd (more (.failure e) (by simp [Answer.arrival?])) (by simp [Arrival.isLast])
    · exact absurd unended (failed rfl)
  | tick _ now w ih => exact ⟨ih.1.tick now w, ih.2⟩

theorem Resumable.guarded (resumable : m.Resumable) : m.guarded.Resumable :=
  fun _ _ _ _ draining draining' => resumable draining.guarded.1 draining'.guarded.1

/-! ### Deliveries -/

/-- What delivers a list can be resumed. -/
theorem Delivers.resumable {list : List (Except Failure α)} (delivers : m.Delivers list) :
    m.Resumable := by
  have first : ∀ {s as}, m.Draining s as → as <+: list.map Arrival.ofResult ++ [.ended] := by
    intro s as draining
    have front := draining.unended_dropLast
    obtain ⟨answers, reached, rfl⟩ := draining.reach
    obtain ⟨part, all⟩ := delivers reached
    rw [← resultsIn_arrivals] at part all
    exact prefix_of_results front part fun ended => all (ended_mem_arrivals.mp ended)
  intro s as s' as' draining draining'
  exact List.prefix_or_prefix_of_prefix (first draining) (first draining')

end Machine
end PullStream
