import PullStream.Proofs.Machine.Pulls
import PullStream.Proofs.Stage.Chaining

/-!
Flattening: sequences inside a sequence, in order.

Somebody who flattens asks a source for an element, calls a mapper with it, waits for what the
mapper chooses, and goes through the inner sequence that has been chosen; the source is asked again
when the inner sequence has reported its end. What happens in this order is a course. It is over at
the end of the source and at the first failure, which may be one of the source, of the mapper or of
an inner sequence.

What a course hands out is what the inner sequences have, in order: all of those that have been
gone through, and so much of the last one as has been heard. So it depends on the source, the mapper
and the inner sequences only, and not on who waits where.

* `Event`, `Course` — what happens, and in which order.
* `Course.calls` — when the mapper is called, everything that has been opened has ended.
* `Course.flattened` — what a course hands out.
* `Flattened.agree` — two courses over one script agree.
-/

namespace PullStream.Nesting

variable {ω α β ι : Type}

/-! ### Events -/

/-- What happens when sequences inside a sequence are gone through. -/
inductive Event (α β ι : Type) where
  /-- The source has been asked. -/
  | asked (a : Answer α)
  /-- The mapper is called with an element and its index. -/
  | called (a : α) (index : Nat)
  /-- The mapper's choice has come. -/
  | chosen (choice : Except Failure ι)
  /-- An inner sequence has been asked. -/
  | heard (i : ι) (b : Answer β)

namespace Event

/-- What arrives from the source. -/
def taken : Event α β ι → Option (Arrival α)
  | .asked a => a.arrival?
  | _ => none

/-- What is handed out. Elements of the source are not, and the end of an inner sequence is not the
end of all. -/
def given : Event α β ι → Option (Arrival β)
  | .asked (.fail e) => some (.failure e)
  | .asked .done => some .ended
  | .chosen (.error e) => some (.failure e)
  | .heard _ .done => none
  | .heard _ b => b.arrival?
  | _ => none

/-- The inner sequence that is opened. -/
def opens : Event α β ι → Option ι
  | .chosen (.ok i) => some i
  | _ => none

/-- The inner sequence that reports its end. -/
def closes : Event α β ι → Option ι
  | .heard i .done => some i
  | _ => none

/-- A signal that is neither a failure nor the end hands nothing out. -/
theorem given_asked {a : Answer α} (quiet : a.arrival? = none) :
    (asked a : Event α β ι).given = none := by
  cases a with
  | item a => rfl
  | signal g => cases g <;> first | rfl | cases quiet

theorem given_heard {i : ι} {b : Answer β} (notDone : b ≠ .done) :
    (heard i b : Event α β ι).given = b.arrival? := by
  cases b with
  | item b => rfl
  | signal g => cases g <;> first | rfl | exact absurd rfl notDone

theorem closes_heard {i : ι} {b : Answer β} (notDone : b ≠ .done) :
    (heard i b : Event α β ι).closes = none := by
  cases b with
  | item b => rfl
  | signal g => cases g <;> first | rfl | exact absurd rfl notDone

end Event

/-- What has arrived from the source. -/
def taken (events : List (Event α β ι)) : List (Arrival α) := events.filterMap Event.taken

/-- What has been handed out. -/
def given (events : List (Event α β ι)) : List (Arrival β) := events.filterMap Event.given

/-- The inner sequences that have been opened. -/
def opened (events : List (Event α β ι)) : List ι := events.filterMap Event.opens

/-- The inner sequences that have reported their ends. -/
def closed (events : List (Event α β ι)) : List ι := events.filterMap Event.closes

section Concat

variable (events : List (Event α β ι)) (event : Event α β ι)

theorem taken_concat : taken (events ++ [event]) = taken events ++ event.taken.toList := by
  cases h : event.taken <;> simp [taken, h]

theorem given_concat : given (events ++ [event]) = given events ++ event.given.toList := by
  cases h : event.given <;> simp [given, h]

theorem opened_concat : opened (events ++ [event]) = opened events ++ event.opens.toList := by
  cases h : event.opens <;> simp [opened, h]

theorem closed_concat : closed (events ++ [event]) = closed events ++ event.closes.toList := by
  cases h : event.closes <;> simp [closed, h]

end Concat

/-! ### Courses -/

/-- Where a course is, with the number of the elements that have been taken and mapped. -/
inductive Place (α β ι : Type) where
  /-- Nothing has been opened that has not ended. -/
  | between (n : Nat)
  /-- An element has been taken. -/
  | calling (a : α) (n : Nat)
  /-- The mapper has been called, and makes this choice. -/
  | opening (choice : Except Failure ι) (n : Nat)
  /-- So much of an inner sequence has been heard. -/
  | within (i : ι) (xs : List β) (n : Nat)
  /-- The end or a failure has been handed out. -/
  | past

/-- What happens next, and where it leads. The mapper makes the choice `g a n` for the element `a`
with the index `n`. -/
inductive Move (inner : ι → Machine ω β) (g : α → Nat → Except Failure ι) :
    Place α β ι → Event α β ι → Place α β ι → Prop where
  | asked {n a} : a.arrival? = none → Move inner g (.between n) (.asked a) (.between n)
  | taken {n a} : Move inner g (.between n) (.asked (.item a)) (.calling a n)
  | called {n a} : Move inner g (.calling a n) (.called a n) (.opening (g a n) (n + 1))
  | chosen {n i} : Move inner g (.opening (.ok i) n) (.chosen (.ok i)) (.within i [] n)
  | waited {n i xs b} : b.arrival? = none →
      Move inner g (.within i xs n) (.heard i b) (.within i xs n)
  | heard {n i xs x t} : (inner i).Draining t ((xs ++ [x]).map .item) →
      Move inner g (.within i xs n) (.heard i (.item x)) (.within i (xs ++ [x]) n)
  | closed {n i xs t} : (inner i).Draining t (xs.map .item ++ [.ended]) →
      Move inner g (.within i xs n) (.heard i .done) (.between n)
  | ended {n} : Move inner g (.between n) (.asked .done) .past
  | sourceFailed {n e} : Move inner g (.between n) (.asked (.fail e)) .past
  | mapperFailed {n e} : Move inner g (.opening (.error e) n) (.chosen (.error e)) .past
  | innerFailed {n i xs e t} : (inner i).Draining t (xs.map .item ++ [.failure e]) →
      Move inner g (.within i xs n) (.heard i (.fail e)) .past

/-- What happens up to the first failure or the end. -/
inductive Course (inner : ι → Machine ω β) (g : α → Nat → Except Failure ι) :
    List (Event α β ι) → Place α β ι → Prop where
  | start : Course inner g [] (.between 0)
  | step {events p event p'} : Course inner g events p → Move inner g p event p' →
      Course inner g (events ++ [event]) p'

section Courses

variable {inner : ι → Machine ω β} {g : α → Nat → Except Failure ι} {events : List (Event α β ι)}
  {event : Event α β ι} {p p' : Place α β ι}

/-- Each element has opened one inner sequence, and there is one at most that has not ended. -/
inductive Tally (events : List (Event α β ι)) : Place α β ι → Prop where
  | between {n} : opened events = closed events → (opened events).length = n →
      Tally events (.between n)
  | calling {a n} : opened events = closed events → (opened events).length = n →
      Tally events (.calling a n)
  | opening {c n} : opened events = closed events → (opened events).length + 1 = n →
      Tally events (.opening c n)
  | within {i xs n} : opened events = closed events ++ [i] → (opened events).length = n →
      Tally events (.within i xs n)
  | past : Tally events .past

/-- An event that neither opens nor closes anything leaves the tally alone. -/
theorem opened_closed_concat (opens : event.opens = none) (closes : event.closes = none) :
    opened (events ++ [event]) = opened events ∧ closed (events ++ [event]) = closed events := by
  rw [opened_concat, closed_concat, opens, closes]
  simp

theorem Move.tally (step : Move inner g p event p') (tally : Tally events p) :
    Tally (events ++ [event]) p' := by
  have same := @opened_closed_concat _ _ _ events event
  cases step with
  | asked =>
    cases tally with
    | between equal counts =>
      obtain ⟨opens, closes⟩ := same rfl rfl
      exact .between (opens ▸ closes ▸ equal) (opens ▸ counts)
  | taken =>
    cases tally with
    | between equal counts =>
      obtain ⟨opens, closes⟩ := same rfl rfl
      exact .calling (opens ▸ closes ▸ equal) (opens ▸ counts)
  | called =>
    cases tally with
    | calling equal counts =>
      obtain ⟨opens, closes⟩ := same rfl rfl
      exact .opening (opens ▸ closes ▸ equal) (opens ▸ counts ▸ rfl)
  | chosen =>
    cases tally with
    | opening equal counts =>
      refine .within ?_ ?_
      · rw [opened_concat, closed_concat, equal]
        simp [Event.opens, Event.closes]
      · rw [opened_concat, List.length_append]
        exact counts
  | waited quiet =>
    cases tally with
    | within equal counts =>
      obtain ⟨opens, closes⟩ := same rfl (Event.closes_heard (by rintro rfl; cases quiet))
      exact .within (opens ▸ closes ▸ equal) (opens ▸ counts)
  | heard =>
    cases tally with
    | within equal counts =>
      obtain ⟨opens, closes⟩ := same rfl rfl
      exact .within (opens ▸ closes ▸ equal) (opens ▸ counts)
  | closed =>
    cases tally with
    | within equal counts =>
      refine .between ?_ ?_
      · rw [opened_concat, closed_concat, equal]
        simp [Event.opens, Event.closes]
      · rw [opened_concat, List.length_append]
        exact counts
  | ended => exact .past
  | sourceFailed => exact .past
  | mapperFailed => exact .past
  | innerFailed => exact .past

theorem Course.tally (course : Course inner g events p) : Tally events p := by
  induction course with
  | start => exact .between rfl rfl
  | step _ step ih => exact step.tally ih

/-- When the mapper is called with an element, the elements before it have opened one inner sequence
each, and all of these have reported their ends. -/
theorem Course.calls (course : Course inner g events p) {before after : List (Event α β ι)} {a : α}
    {n : Nat} (split : events = before ++ .called a n :: after) :
    opened before = closed before ∧ (opened before).length = n := by
  induction course generalizing after with
  | start => exact absurd split (by simp)
  | @step events p event p' course step ih =>
    rcases List.eq_nil_or_concat after with rfl | ⟨after, last, rfl⟩
    · obtain ⟨rfl, same⟩ := List.append_inj' split rfl
      obtain rfl := List.singleton_inj.mp same
      cases step with
      | called =>
        cases course.tally with
        | calling equal counts => exact ⟨equal, counts⟩
    · rw [List.concat_eq_append, ← List.cons_append, ← List.append_assoc] at split
      exact ih (List.append_inj_left' split rfl)

/-! ### What is handed out -/

/-- Elements that have been gone through, and what their inner sequences had up to their ends. -/
inductive Through (inner : ι → Machine ω β) (g : α → Nat → Except Failure ι) :
    List α → List β → Prop where
  | start : Through inner g [] []
  | next {as out a i t xs} : Through inner g as out → g a as.length = .ok i →
      (inner i).Draining t (xs.map .item ++ [.ended]) → Through inner g (as ++ [a]) (out ++ xs)

/-- What has been taken from the source, and what has been made of it. -/
inductive Flattened (inner : ι → Machine ω β) (g : α → Nat → Except Failure ι) :
    Place α β ι → List (Arrival α) → List (Arrival β) → Prop where
  | between {as out} : Through inner g as out →
      Flattened inner g (.between as.length) (as.map .item) (out.map .item)
  | calling {as out a} : Through inner g as out →
      Flattened inner g (.calling a as.length) ((as ++ [a]).map .item) (out.map .item)
  | opening {as out a c} : Through inner g as out → g a as.length = c →
      Flattened inner g (.opening c (as.length + 1)) ((as ++ [a]).map .item) (out.map .item)
  | within {as out a i t xs} : Through inner g as out → g a as.length = .ok i →
      (inner i).Draining t (xs.map .item) →
      Flattened inner g (.within i xs (as.length + 1)) ((as ++ [a]).map .item)
        ((out ++ xs).map .item)
  | ended {as out} : Through inner g as out →
      Flattened inner g .past (as.map .item ++ [.ended]) (out.map .item ++ [.ended])
  | sourceFailed {as out e} : Through inner g as out →
      Flattened inner g .past (as.map .item ++ [.failure e]) (out.map .item ++ [.failure e])
  | mapperFailed {as out a e} : Through inner g as out → g a as.length = .error e →
      Flattened inner g .past ((as ++ [a]).map .item) (out.map .item ++ [.failure e])
  | innerFailed {as out a i t xs e} : Through inner g as out → g a as.length = .ok i →
      (inner i).Draining t (xs.map .item ++ [.failure e]) →
      Flattened inner g .past ((as ++ [a]).map .item) ((out ++ xs).map .item ++ [.failure e])

theorem Move.flattened {as : List (Arrival α)} {bs : List (Arrival β)}
    (step : Move inner g p event p') (flat : Flattened inner g p as bs) :
    Flattened inner g p' (as ++ event.taken.toList) (bs ++ event.given.toList) := by
  cases step with
  | asked quiet =>
    rw [Event.given_asked quiet, Event.taken, quiet]
    simpa using flat
  | @taken n a =>
    cases flat with
    | between through =>
      simpa [Event.taken, Event.given, Answer.arrival?] using Flattened.calling (a := a) through
  | called =>
    cases flat with
    | calling through => simpa [Event.taken, Event.given] using Flattened.opening through rfl
  | chosen =>
    cases flat with
    | @opening as out a c through chosen =>
      have opened : Flattened inner g (.within _ [] _) ((as ++ [a]).map .item)
          ((out ++ []).map .item) := .within through chosen .start
      simpa [Event.taken, Event.given] using opened
  | waited quiet =>
    rw [Event.given_heard (by rintro rfl; cases quiet), quiet]
    simpa [Event.taken] using flat
  | heard draining =>
    cases flat with
    | within through chosen =>
      simpa [Event.taken, Event.given, Answer.arrival?] using
        Flattened.within through chosen draining
  | closed draining =>
    cases flat with
    | within through chosen =>
      simpa [Event.taken, Event.given] using Flattened.between (through.next chosen draining)
  | ended =>
    cases flat with
    | between through => exact .ended through
  | sourceFailed =>
    cases flat with
    | between through => exact .sourceFailed through
  | mapperFailed =>
    cases flat with
    | opening through chosen =>
      simpa [Event.taken, Event.given] using Flattened.mapperFailed through chosen
  | innerFailed draining =>
    cases flat with
    | within through chosen =>
      simpa [Event.taken, Event.given, Answer.arrival?] using
        Flattened.innerFailed through chosen draining

/-- What a course hands out is what the inner sequences have, in order. -/
theorem Course.flattened (course : Course inner g events p) :
    Flattened inner g p (taken events) (given events) := by
  induction course with
  | start => exact .between .start
  | step _ step ih =>
    rw [taken_concat, given_concat]
    exact step.flattened ih

theorem unended_items (xs : List α) : Unended (xs.map Arrival.item) := by
  intro a member
  obtain ⟨x, -, rfl⟩ := List.mem_map.mp member
  rfl

/-- The last arrival is the only one of its kind, and with it the course is over. -/
theorem Flattened.front {as : List (Arrival α)} {bs : List (Arrival β)}
    (flat : Flattened inner g p as bs) : Unended bs.dropLast ∧ (p = .past ↔ ¬ Unended bs) := by
  have more (xs : List β) : Unended (xs.map Arrival.item).dropLast ∧
      ¬ ¬ Unended (xs.map Arrival.item) :=
    ⟨fun a member => unended_items xs a (List.dropLast_subset _ member),
      not_not_intro (unended_items xs)⟩
  have last (xs : List β) {b : Arrival β} (isLast : b.isLast = true) :
      Unended (xs.map Arrival.item ++ [b]).dropLast ∧ ¬ Unended (xs.map Arrival.item ++ [b]) := by
    rw [List.dropLast_concat]
    refine ⟨unended_items xs, fun unended => ?_⟩
    cases isLast.symm.trans (unended b (by simp))
  cases flat with
  | between => exact (more _).imp_right (iff_of_false nofun)
  | calling => exact (more _).imp_right (iff_of_false nofun)
  | opening => exact (more _).imp_right (iff_of_false nofun)
  | within => exact (more _).imp_right (iff_of_false nofun)
  | ended => exact (last _ rfl).imp_right (iff_of_true rfl)
  | sourceFailed => exact (last _ rfl).imp_right (iff_of_true rfl)
  | mapperFailed => exact (last _ rfl).imp_right (iff_of_true rfl)
  | innerFailed => exact (last _ rfl).imp_right (iff_of_true rfl)

/-- Until the course is over only elements have been taken. -/
theorem Flattened.items {as : List (Arrival α)} {bs : List (Arrival β)}
    (flat : Flattened inner g p as bs) (notOver : p ≠ .past) : Unended as := by
  cases flat with
  | between => exact unended_items _
  | calling => exact unended_items _
  | opening => exact unended_items _
  | within => exact unended_items _
  | ended => exact absurd rfl notOver
  | sourceFailed => exact absurd rfl notOver
  | mapperFailed => exact absurd rfl notOver
  | innerFailed => exact absurd rfl notOver

/-! ### One script -/

section Scripts

variable {script : Script α} {scripts : ι → Script β} {as : List α} {out : List β}

open Machine (Nest Goes)

/-- The course of a nest over these scripts. -/
abbrev Leads (script : Script α) (scripts : ι → Script β) (g : α → Nat → Except Failure ι) :
    (Nat × Nest ι) × List (Arrival β) → (Nat × Nest ι) × List (Arrival β) → Prop :=
  Relation.ReflTransGen (Goes (Nest.next script scripts g))

/-- An element is taken, and its inner sequence is chosen. -/
theorem leads_taken {a : α} {i : ι} (begins : script.Begins ((as ++ [a]).map .item))
    (chosen : g a as.length = .ok i) :
    Leads script scripts g ((as.length, .outer), out.map .item)
      ((as.length + 1, .within i 0), out.map .item) := by
  rw [List.map_append] at begins
  have there := begins.next
  rw [List.length_map] at there
  refine .tail (.single ⟨((as.length + 1, .opening (.ok i)), none), ?_, rfl⟩)
    ⟨((as.length + 1, .within i 0), none), rfl, ?_⟩
  · simp [Nest.next, there, chosen]
  · simp

/-- Items of an inner sequence are handed on. -/
theorem leads_within {n : Nat} {i : ι} {xs : List β} (begins : (scripts i).Begins (xs.map .item)) :
    Leads script scripts g ((n, .within i 0), out.map .item)
      ((n, .within i xs.length), (out ++ xs).map .item) := by
  induction xs using List.reverseRecOn with
  | nil =>
    rw [List.append_nil]
    exact .refl
  | append_singleton xs x ih =>
    rw [List.map_append] at begins
    have there := begins.next
    rw [List.length_map] at there
    refine .tail (ih (begins.mono (List.prefix_append _ _)))
      ⟨((n, .within i (xs.length + 1)), some (.item x)), ?_, ?_⟩
    · simp [Nest.next, there]
    · simp

/-- Elements come before what comes behind them. -/
theorem begins_items {a : α} (begins : script.Begins ((as ++ [a]).map .item)) :
    script.Begins (as.map .item) :=
  begins.mono ((List.prefix_append _ _).map _)

theorem Through.leads (through : Through inner g as out) (begins : script.Begins (as.map .item))
    (goes : ∀ i, (inner i).GoesBy (scripts i)) :
    Leads script scripts g ((0, .outer), []) ((as.length, .outer), out.map .item) := by
  induction through with
  | start => exact .refl
  | @next as out a i t xs _ chosen draining ih =>
    have inside := goes i draining
    have there := inside.next
    rw [List.length_map] at there
    refine .tail (((ih (begins_items begins)).trans (leads_taken begins chosen)).trans
      (leads_within (inside.mono (List.prefix_append _ _))))
      ⟨((as.length + 1, .outer), none), ?_, ?_⟩
    · simp [Nest.next, there]
    · simp

/-- Whatever has been made of what has been taken, the scripts lead there. -/
theorem Flattened.leads {heard : List (Arrival α)} {bs : List (Arrival β)}
    (flat : Flattened inner g p heard bs) (begins : script.Begins heard)
    (goes : ∀ i, (inner i).GoesBy (scripts i)) :
    ∃ q, Leads script scripts g ((0, .outer), []) (q, bs) := by
  cases flat with
  | between through => exact ⟨_, through.leads begins goes⟩
  | calling through => exact ⟨_, through.leads (begins_items begins) goes⟩
  | opening through => exact ⟨_, through.leads (begins_items begins) goes⟩
  | within through chosen draining =>
    exact ⟨_, ((through.leads (begins_items begins) goes).trans (leads_taken begins chosen)).trans
      (leads_within (goes _ draining))⟩
  | @ended as out through =>
    have there := begins.next
    rw [List.length_map] at there
    refine ⟨(as.length, .outer), .tail (through.leads (begins.mono (List.prefix_append _ _)) goes)
      ⟨((as.length, .outer), some .ended), ?_, rfl⟩⟩
    simp [Nest.next, there]
  | @sourceFailed as out e through =>
    have there := begins.next
    rw [List.length_map] at there
    refine ⟨(as.length, .outer), .tail (through.leads (begins.mono (List.prefix_append _ _)) goes)
      ⟨((as.length, .outer), some (.failure e)), ?_, rfl⟩⟩
    simp [Nest.next, there]
  | @mapperFailed as out a e through fails =>
    have earlier := begins_items begins
    rw [List.map_append] at begins
    have there := begins.next
    rw [List.length_map] at there
    refine ⟨(as.length + 1, .outer), .tail (.tail (through.leads earlier goes)
      ⟨((as.length + 1, .opening (.error e)), none), ?_, rfl⟩)
      ⟨((as.length + 1, .outer), some (.failure e)), rfl, ?_⟩⟩
    · simp [Nest.next, there, fails]
    · simp
  | @innerFailed as out a i t xs e through chosen draining =>
    have inside := goes i draining
    have there := inside.next
    rw [List.length_map] at there
    refine ⟨(as.length + 1, .within i (xs.length + 1)), .tail
      (((through.leads (begins_items begins) goes).trans (leads_taken begins chosen)).trans
        (leads_within (inside.mono (List.prefix_append _ _))))
      ⟨((as.length + 1, .within i (xs.length + 1)), some (.failure e)), ?_, rfl⟩⟩
    simp [Nest.next, there]

/-- Over one script, with one mapper and inner sequences that go by scripts, the same is made. -/
theorem Flattened.agree {heard heard' : List (Arrival α)} {bs bs' : List (Arrival β)}
    (flat : Flattened inner g p heard bs) (flat' : Flattened inner g p' heard' bs')
    (begins : script.Begins heard) (begins' : script.Begins heard')
    (goes : ∀ i, (inner i).GoesBy (scripts i)) : Agree bs bs' := by
  obtain ⟨q, leads⟩ := flat.leads begins goes
  obtain ⟨q', leads'⟩ := flat'.leads begins' goes
  refine Agree.of_fronts ?_ flat.front.1 flat'.front.1
  rcases Relation.ReflTransGen.total_of_right_unique (Machine.goes_unique _) leads leads' with
    ahead | behind
  · exact .inl (Machine.prefix_of_goes ahead)
  · exact .inr (Machine.prefix_of_goes behind)

end Scripts

end Courses

end PullStream.Nesting
