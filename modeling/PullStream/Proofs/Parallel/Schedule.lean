import PullStream.Proofs.Parallel.Unordered

/-!
Ordered dispatchers under every schedule, over a source of their own.

A schedule is a course of an ordered dispatcher together with the source: the elements that it has
left, and those that have been handed to workers, each with the index it was handed with. What may
come from outside is told by these. The source hands out the next of its elements, and its failure
or its end behind the last; a worker ends as the element that it has been handed says, at any time
after its start or while it is started.

So the position of an element in the list is not given to the dispatcher, but comes out: the n-th
element of the source is handed out with the index n. Schedules are therefore the courses over the
list, and all of them.

* `Schedule.Valid`, `Valid.handed_prefix` — what the books of the source come to.
* `Valid.around_within`, `Valid.step_around` — what may come from outside is what may come over
  the list.
* `Schedule.Reaches.course`, `Schedule.exists_of_course` — the schedules and the courses.
-/

namespace PullStream

open Dispatcher (Course Surroundings)

variable {τ α β : Type}

/-- What becomes of an element: its worker panics while it is started, or it is started and
ends in some way. -/
abbrev Fate (α β : Type) :=
  α → Nat → Launch (Outcome β)

/-- The result of the worker of an element. -/
def Fate.result (fate : Fate α β) (a : α) (i : Nat) : Except Failure (Option β) :=
  match fate a i with
  | .started outcome => outcome.result i
  | .panicked payload => (Outcome.panicked payload).result i

/-- A dispatcher at work over a source, with the elements that the source has left. -/
structure Schedule (τ α β : Type) extends Course τ β where
  rest : List α
  /-- The elements handed to workers, each with the index it was handed with. -/
  handed : List (α × Nat) := []

namespace Schedule

variable {fate : Fate α β} {xs : List α} {fault : Option Failure} {concurrency : Nat}
  {s s' : Schedule τ α β}

/-! ### Steps -/

/-- What may come from outside. `fault` is the failure behind the last element, if any. -/
def around (fate : Fate α β) (fault : Option Failure) (s : Schedule τ α β) : Surroundings β where
  element n := n = s.dispatcher.dispatched ∧ s.rest ≠ []
  failure n e := n = s.dispatcher.dispatched ∧ s.rest = [] ∧ fault = some e
  finish n := n = s.dispatcher.dispatched ∧ s.rest = [] ∧ fault = none
  breaks := False
  result n r := ∃ a, ((a, n) ∈ s.handed ∨ n = s.dispatcher.dispatched ∧ s.rest.head? = some a) ∧
    fate.result a n = r

/-- One thing that may happen. -/
inductive Step (fate : Fate α β) (fault : Option Failure) (s : Schedule τ α β) :
    Schedule τ α β → Prop where
  /-- No element is handed out. -/
  | goes {c : Course τ β} : Course.Step (s.around fate fault) s.toCourse c →
      c.dispatcher.dispatched = s.dispatcher.dispatched → Step fate fault s { s with toCourse := c }
  /-- The next element is handed to a worker. -/
  | hands {c : Course τ β} {a rest} : Course.Step (s.around fate fault) s.toCourse c →
      c.dispatcher.dispatched = s.dispatcher.dispatched + 1 → s.rest = a :: rest →
      Step fate fault s {
        toCourse := c, rest, handed := s.handed ++ [(a, s.dispatcher.dispatched)] }

/-- What schedules lead to, from an ordered dispatcher on the source `xs` with `fault` behind
it. -/
inductive Reaches (fate : Fate α β) (xs : List α) (fault : Option Failure) (concurrency : Nat) :
    Schedule τ α β → Prop where
  | start : Reaches fate xs fault concurrency
      { dispatcher := { concurrency, keepOrder := true }, rest := xs }
  | step {s s' : Schedule τ α β} : Reaches fate xs fault concurrency s → Step fate fault s s' →
      Reaches fate xs fault concurrency s'

/-- The dispatcher goes on by itself. -/
theorem Reaches.works (reached : Reaches fate xs fault concurrency s) {c : Course τ β}
    (works : Course.Works s.toCourse c) :
    Reaches fate xs fault concurrency { s with toCourse := c } :=
  reached.step (.goes (.works works) (by cases works <;> rfl))

/-! ### The books of the source -/

/-- The source has left what has not been taken, and what has been taken has been handed out. -/
structure Valid (xs : List α) (s : Schedule τ α β) : Prop where
  taken : s.dispatcher.dispatched ≤ xs.length
  rest : s.rest = xs.drop s.dispatcher.dispatched
  handed : s.handed = (xs.take s.dispatcher.dispatched).zipIdx

namespace Valid

theorem start (concurrency : Nat) :
    Valid (τ := τ) (β := β) xs
      { dispatcher := { concurrency, keepOrder := true }, rest := xs } where
  taken := Nat.zero_le _
  rest := rfl
  handed := rfl

/-- A source that has nothing left has handed out everything. -/
theorem all_taken (v : Valid xs s) (none : s.rest = []) :
    s.dispatcher.dispatched = xs.length := by
  have left : xs.length ≤ s.dispatcher.dispatched := by
    rw [← List.drop_eq_nil_iff, ← v.rest, none]
  exact Nat.le_antisymm v.taken left

/-- The next element of the source is that of the next position. -/
theorem head_rest (v : Valid xs s) : s.rest.head? = xs[s.dispatcher.dispatched]? := by
  rw [v.rest, List.head?_drop]

/-- The source has an element left as long as the list has. -/
theorem rest_ne_nil (v : Valid xs s) (more : s.dispatcher.dispatched < xs.length) :
    s.rest ≠ [] :=
  fun none => absurd (v.all_taken none) (Nat.ne_of_lt more)

/-- The elements that have been handed out are those of the positions that have been taken. -/
theorem mem_handed (v : Valid xs s) {a : α} {n : Nat} :
    (a, n) ∈ s.handed ↔ n < s.dispatcher.dispatched ∧ xs[n]? = some a := by
  rw [v.handed, List.mk_mem_zipIdx_iff_getElem?, List.getElem?_take]
  split
  · rename_i before
    exact (and_iff_right before).symm
  · rename_i behind
    exact ⟨nofun, fun h => absurd h.1 behind⟩

/-- A step that hands out no element leaves the source alone. -/
theorem stays (v : Valid xs s) {c : Course τ β}
    (same : c.dispatcher.dispatched = s.dispatcher.dispatched) :
    Valid xs { s with toCourse := c } where
  taken := same ▸ v.taken
  rest := v.rest.trans (by rw [same])
  handed := v.handed.trans (by rw [same])

theorem hands (v : Valid xs s) {c : Course τ β} {a : α} {rest : List α}
    (next : c.dispatcher.dispatched = s.dispatcher.dispatched + 1) (more : s.rest = a :: rest) :
    Valid xs { toCourse := c, rest, handed := s.handed ++ [(a, s.dispatcher.dispatched)] } := by
  have there : xs[s.dispatcher.dispatched]? = some a := by
    rw [← v.head_rest, more, List.head?_cons]
  refine ⟨?_, ?_, ?_⟩
  · rw [next]
    exact (List.getElem?_eq_some_iff.mp there).1
  · rw [next, ← List.tail_drop, ← v.rest, more, List.tail_cons]
  · rw [next, List.take_add_one, there, Option.toList_some, List.zipIdx_append,
      List.length_take, Nat.min_eq_left v.taken, Nat.zero_add, v.handed]
    rfl

/-- Elements are handed out from the first on, each once and with its position. -/
theorem handed_prefix (v : Valid xs s) : s.handed <+: xs.zipIdx := by
  have split : xs.zipIdx = (xs.take s.dispatcher.dispatched).zipIdx ++
      (xs.drop s.dispatcher.dispatched).zipIdx (0 + (xs.take s.dispatcher.dispatched).length) := by
    rw [← List.zipIdx_append, List.take_append_drop]
  rw [v.handed, split]
  exact List.prefix_append _ _

/-- So what may come from outside is what may come over the list. -/
theorem around_within (v : Valid xs s) :
    (s.around fate fault).Within (.of fate.result xs fault False) where
  element := by
    rintro n ⟨rfl, more⟩
    exact Nat.lt_of_not_le fun behind =>
      more (v.rest.trans (List.drop_eq_nil_iff.mpr behind))
  failure := by
    rintro n e ⟨rfl, none, fails⟩
    exact ⟨v.all_taken none, fails⟩
  finish := by
    rintro n ⟨rfl, none, sound⟩
    exact ⟨v.all_taken none, sound⟩
  breaks := id
  result := by
    rintro n r ⟨a, handed | ⟨rfl, next⟩, rfl⟩
    · exact ⟨a, (v.mem_handed.mp handed).2, rfl⟩
    · exact ⟨a, v.head_rest.symm.trans next, rfl⟩

/-- And what may come over the list may come from outside, if the workers have elements that have
been handed out. -/
theorem step_around (v : Valid xs s) (manned : s.Manned) {c : Course τ β}
    (step : Course.Step (.of fate.result xs fault False) s.toCourse c) :
    Course.Step (s.around fate fault) s.toCourse c := by
  have none : s.dispatcher.dispatched = xs.length → s.rest = [] :=
    fun last => v.rest.trans (List.drop_eq_nil_iff.mpr (Nat.le_of_eq last.symm))
  cases step with
  | works works => exact .works works
  | meets meets =>
    cases meets with
    | join resting phase member comes =>
      obtain ⟨a, there, same⟩ := comes
      have handed := v.mem_handed.mpr ⟨manned _ member, there⟩
      exact .meets (.join resting phase member ⟨a, .inl handed, same⟩)
    | start resting phase inside => exact .meets (.start resting phase ⟨rfl, v.rest_ne_nil inside⟩)
    | panic resting phase inside comes =>
      obtain ⟨a, there, same⟩ := comes
      have next := v.head_rest.trans there
      exact .meets (.panic resting phase ⟨rfl, v.rest_ne_nil inside⟩ ⟨a, .inr ⟨rfl, next⟩, same⟩)
    | fail resting phase fails =>
      exact .meets (.fail resting phase ⟨rfl, none fails.1, fails.2⟩)
    | finish resting phase ends =>
      exact .meets (.finish resting phase ⟨rfl, none ends.1, ends.2⟩)
    | broke resting phase breaks => exact breaks.elim
  | stir same fewer => exact .stir same fewer
  | refill => exact .refill
  | poll present => exact .poll present
  | drop present => exact .drop present

end Valid

theorem Step.valid (step : Step fate fault s s') (v : Valid xs s) : Valid xs s' := by
  cases step with
  | goes _ same => exact v.stays same
  | hands _ next more => exact v.hands next more

/-- The dispatcher takes a step of a course. -/
theorem Step.course (step : Step fate fault s s') :
    Course.Step (s.around fate fault) s.toCourse s'.toCourse := by
  cases step with
  | goes step _ => exact step
  | hands step _ _ => exact step

theorem Reaches.valid (reached : Reaches fate xs fault concurrency s) : Valid xs s := by
  induction reached with
  | start => exact .start _
  | step _ step ih => exact step.valid ih

/-- A schedule is a course over the list. -/
theorem Reaches.course (reached : Reaches fate xs fault concurrency s) :
    Course.Reaches (.of fate.result xs fault False) concurrency true s.toCourse := by
  induction reached with
  | start => exact .start
  | step reached step ih => exact ih.step (step.course.within reached.valid.around_within)

/-- Every course over the list is that of a schedule. -/
theorem exists_of_course {c : Course τ β}
    (reached : Course.Reaches (.of fate.result xs fault False) concurrency true c) :
    ∃ s : Schedule τ α β, s.Reaches fate xs fault concurrency ∧ s.toCourse = c := by
  induction reached with
  | start => exact ⟨_, .start, rfl⟩
  | step reached step ih =>
    obtain ⟨s, scheduled, rfl⟩ := ih
    have v := scheduled.valid
    have taken := v.step_around reached.manned step
    cases step.onward reached.placed reached.constant.2 with
    | stands same _ => exact ⟨_, scheduled.step (.goes taken same), rfl⟩
    | takes inside _ next _ =>
      obtain ⟨a, rest, more⟩ := List.exists_cons_of_ne_nil (v.rest_ne_nil inside)
      exact ⟨_, scheduled.step (.hands taken next more), rfl⟩
    | ends _ _ same _ => exact ⟨_, scheduled.step (.goes taken same), rfl⟩

end Schedule
end PullStream
