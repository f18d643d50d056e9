import PullStream.Proofs.Machine.Delivery
import PullStream.Proofs.Parallel.Advancing
import PullStream.Proofs.Parallel.Sourced

/-!
A parallel stage follows a course.

The stage runs its dispatcher over a machine and on a clock; a course leaves open what the
source says and when workers end. Whatever the stage does, a course may do, with the same
dispatcher and the same answers. What the surroundings of that course allow is what the source
and the workers of the stage come to (`Supplies`): anything at all (`supplies_any`), or the
elements that the source delivers and the results of their workers (`supplies_of`).

* `Worker.Yields` — workers with results of their own.
* `Parallel.Follows` — the relation, `Follows.dispatch`, `Follows.finishWorker` its steps.
* `reach_follows` — every state of a parallel stage follows a course.
* `parallel_delivers` — in order, the results in order, up to the first failure.
-/

namespace PullStream

variable {ω α β : Type}

/-- Whenever and wherever the worker is asked, it comes to the result of its element: it ends
with it at some time, or panics when it is started. -/
def Worker.Yields (work : Worker ω α β) (result : α → Nat → Except Failure (Option β)) : Prop :=
  ∀ a i now w, match (work a i now w).1 with
    | .started d => ∀ now w, (d.finish now w).1.result i = result a i
    | .panicked payload => (Outcome.panicked payload : Outcome β).result i = result a i

namespace Parallel

open Dispatcher (Surroundings Course)

variable {source : Machine ω α} {work : Worker ω α β} {around : Surroundings β}
  {place : source.State → Nat → Prop} {result : α → Nat → Except Failure (Option β)}
  {xs : List α} {fault : Option Failure}

/-! ### What source and workers come to -/

/-- The worker of an element comes to results that may come here, however it ends. -/
def Comes (around : Surroundings β) (i : Nat) : Launch (Deferred ω (Outcome β)) → Prop
  | .started d => ∀ now w, around.result i ((d.finish now w).1.result i)
  | .panicked payload => around.result i ((Outcome.panicked payload).result i)

/-- By its place the source answers, and the workers of its elements end, as the surroundings
have it. -/
structure Supplies (source : Machine ω α) (work : Worker ω α β) (around : Surroundings β)
    (place : source.State → Nat → Prop) : Prop where
  start : place source.start 0
  tick : ∀ {s n}, place s n → ∀ now w, place (source.tick s now w).2.1 n
  item : ∀ {s n now w a s' w'}, place s n → source.poll s now w = (.item a, s', w') →
    around.element n ∧ place s' (n + 1) ∧ ∀ now w, Comes around n (work a n now w).1
  fail : ∀ {s n now w e s' w'}, place s n → source.poll s now w = (.fail e, s', w') →
    around.failure n e
  done : ∀ {s n now w s' w'}, place s n → source.poll s now w = (.done, s', w') →
    around.finish n
  crash : ∀ {s n now w message s' w'}, place s n →
    source.poll s now w = (.crash message, s', w') → around.breaks
  other : ∀ {s n now w g s' w'}, place s n → source.poll s now w = (.signal g, s', w') →
    (∀ e, g ≠ .fail e) → g ≠ .done → place s' n

/-- Any source and any workers are somewhere. -/
theorem supplies_any (source : Machine ω α) (work : Worker ω α β) :
    Supplies source work .any fun _ _ => True where
  start := trivial
  tick _ _ _ := trivial
  item {_ n _ _ a _ _} _ _ := by
    refine ⟨trivial, trivial, fun now w => ?_⟩
    cases (work a n now w).1 with
    | started d => exact fun _ _ => trivial
    | panicked payload => exact trivial
  fail _ _ := trivial
  done _ _ := trivial
  crash _ _ := trivial
  other _ _ _ _ := trivial

/-- The worker of an element comes to its result. -/
theorem comes_of_yields (yields : work.Yields result) {a : α} {n : Nat}
    (right : ∀ r, result a n = r → around.result n r) (now : Time) (w : ω) :
    Comes around n (work a n now w).1 := by
  have comes := yields a n now w
  cases launch : (work a n now w).1 with
  | started d =>
    rw [launch] at comes
    exact fun now' w' => right _ (comes now' w').symm
  | panicked payload =>
    rw [launch] at comes
    exact right _ comes.symm

/-- A source that delivers `xs` and `fault`, with workers that have results of their own. -/
theorem supplies_of (delivers : source.Delivers (sourceOf xs fault))
    (yields : work.Yields result) :
    Supplies source work (.of result xs fault True)
      fun s n => source.At (sourceOf xs fault) s n ∧ n ≤ xs.length where
  start := ⟨Machine.At.start, Nat.zero_le _⟩
  tick held now w := ⟨held.1.tick now w, held.2⟩
  item {_ n _ _ a _ _} held asked := by
    obtain ⟨there, next⟩ := held.1.output delivers asked rfl
    have element := sourceOf_element there
    have bound := (List.getElem?_eq_some_iff.mp element).1
    exact ⟨bound, ⟨next, bound⟩, comes_of_yields yields fun r same => ⟨a, element, same⟩⟩
  fail held asked := sourceOf_failure (held.1.output delivers asked rfl).1
  done {_ n _ _ _ _} held asked := by
    have all := held.1.done delivers asked
    have bound := held.2
    cases fault with
    | none => exact ⟨by simpa [sourceOf] using all, rfl⟩
    | some e =>
      simp only [sourceOf, List.length_append, List.length_map, Option.toList_some,
        List.length_singleton] at all
      omega
  crash _ _ := trivial
  other held asked notFail _ := ⟨held.1.silent asked (Answer.output?_signal notFail), held.2⟩

/-! ### The relation -/

/-- Of the workers of a stage with distinct elements, one that is on the clock has not
finished. -/
theorem not_finished_of_onClock {workers : List (Nat × Running ω β)}
    (distinct : (workers.map Prod.fst).Nodup) {i : Nat} {p : Pending ω (Outcome β)}
    (running : (i, .onClock p) ∈ workers) : (i, .finished) ∉ workers := by
  intro finished
  have same := List.inj_on_of_nodup_map distinct running finished rfl
  cases same

/-- A parallel stage whose dispatcher has not stopped: the source is at the next position as
long as it may be asked, workers have results that may come, and the outcomes that wait to be
joined are those of workers that have finished. -/
structure Working (around : Surroundings β) (place : source.State → Nat → Prop)
    (s : State ω source.State β) : Prop where
  asked : s.dispatcher.exhausted = false → place s.source s.dispatcher.dispatched
  running : ∀ {i p}, (i, .onClock p) ∈ s.dispatcher.workers → ∀ now w,
    around.result i ((p.finish now w).1.result i)
  waiting : ∀ {i outcome}, (i, outcome) ∈ s.outcomes → (i, .finished) ∈ s.dispatcher.workers ∧
    around.result i (outcome.result i)
  once : (s.outcomes.map Prod.fst).Nodup

/-- The dispatcher of a parallel stage whose consumer has been given `answers` is that of a
course. -/
structure Follows (around : Surroundings β) (place : source.State → Nat → Prop)
    (concurrency : Nat) (keepOrder : Bool) (answers : List (Answer β))
    (s : State ω source.State β) : Prop where
  course : ∃ rounds events, Course.Reaches around concurrency keepOrder
    { dispatcher := s.dispatcher, rounds, events, answers }
  present : s.dispatcher.feed.abandoned = false
  working : s.dispatcher.phase ≠ .stopped → Working around place s

/-- A worker that has been started is on the clock, and comes to what may come. -/
theorem comes_of_started {launch : Launch (Deferred ω (Outcome β))} {i : Nat} {now : Time}
    {p : Pending ω (Outcome β)} (comes : Comes around i launch)
    (started : launched now launch = .started (.onClock p)) (now' : Time) (w' : ω) :
    around.result i ((p.finish now' w').1.result i) := by
  cases launch with
  | started d =>
    injection started with same
    injection same with same
    rw [← same]
    exact comes now' w'
  | panicked payload => cases started

namespace Follows

variable {concurrency : Nat} {keepOrder : Bool} {answers : List (Answer β)}
  {s : State ω source.State β}

theorem start (supplies : Supplies source work around place) :
    Follows around place concurrency keepOrder []
      (source.parallel concurrency keepOrder work).start.1 where
  course := ⟨0, [], .start⟩
  present := rfl
  working _ := by
    constructor
    · exact fun _ => supplies.start
    · exact fun member => absurd member List.not_mem_nil
    · exact fun member => absurd member List.not_mem_nil
    · exact List.nodup_nil

/-! ### Rounds -/

/-- After a round the course goes on, and the workers unless it was the last. -/
theorem settled {d : Dispatcher (Running ω β) β} {r : source.State}
    {outcomes : List (Nat × Outcome β)}
    (k : Follows around place concurrency keepOrder answers s)
    (goes : Dispatcher.Goes s.dispatcher d)
    (course : ∃ rounds events, Course.Reaches around concurrency keepOrder
      { dispatcher := d, rounds, events, answers })
    (working : d.phase ≠ .stopped →
      Working around place { source := r, dispatcher := d, outcomes }) :
    Follows around place concurrency keepOrder answers
      (settle source r outcomes s.dispatcher d) := by
  refine ⟨course, goes.feed.abandoned.trans k.present, fun goesOn => ?_⟩
  have goesOn : d.phase ≠ .stopped := goesOn
  have same : settle source r outcomes s.dispatcher d =
      { source := r, dispatcher := d, outcomes } := by
    simp [settle, goesOn]
  rw [same]
  exact working goesOn

/-- A round that takes no element and joins no worker. -/
theorem round {d : Dispatcher (Running ω β) β} {r : source.State}
    {outcomes : List (Nat × Outcome β)}
    (k : Follows around place concurrency keepOrder answers s)
    (started : s.dispatcher.phase ≠ .stopped) (goes : Dispatcher.Goes s.dispatcher d)
    (course : ∃ rounds events, Course.Reaches around concurrency keepOrder
      { dispatcher := d, rounds, events, answers })
    (held : d.phase ≠ .stopped → d.workers = s.dispatcher.workers)
    (asked : d.exhausted = false → place r d.dispatched)
    (fewer : outcomes.Sublist s.outcomes) :
    Follows around place concurrency keepOrder answers
      (settle source r outcomes s.dispatcher d) := by
  obtain ⟨-, running, waiting, once⟩ := k.working started
  refine k.settled goes course fun goesOn => ⟨asked, ?_, ?_, once.sublist (fewer.map _)⟩
  · intro i p member
    exact running (held goesOn ▸ member)
  · intro i outcome member
    obtain ⟨worker, comes⟩ := waiting (fewer.subset member)
    exact ⟨held goesOn ▸ worker, comes⟩

theorem joined {mayPull : Bool} {read : Feed.Waiter} {index : Nat} {outcome : Outcome β}
    {rest : List (Nat × Outcome β)} (k : Follows around place concurrency keepOrder answers s)
    (phase : s.dispatcher.phase = .selecting mayPull read)
    (first : s.outcomes = (index, outcome) :: rest) :
    Follows around place concurrency keepOrder answers
      (settle source s.source rest s.dispatcher (s.dispatcher.joined index outcome)) := by
  have started : s.dispatcher.phase ≠ .stopped := by simp [phase]
  obtain ⟨asked, running, waiting, once⟩ := k.working started
  rw [first, List.map_cons, List.nodup_cons] at once
  rw [first] at waiting
  obtain ⟨finished, comes⟩ := waiting List.mem_cons_self
  have member : index ∈ s.dispatcher.workers.map Prod.fst := List.mem_map_of_mem finished
  obtain ⟨workers, held, dispatched, exhausted⟩ := Dispatcher.complete_stays
    { s.dispatcher with workers := s.dispatcher.workers.filter (·.1 != index) } index
    (outcome.result index)
  obtain ⟨rounds, events, reached⟩ := k.course
  have joined := Course.Reaches.gotten (reached.step (.meets (.join rfl phase member comes))) rfl
  refine k.settled (Dispatcher.joined_goes _ _ _) ⟨_, _, joined⟩ fun goesOn => ⟨?_, ?_, ?_, once.2⟩
  · intro more
    have count : (s.dispatcher.joined index outcome).dispatched = s.dispatcher.dispatched :=
      dispatched
    rw [count]
    exact asked (exhausted ▸ more)
  · intro i p member
    exact running (List.mem_of_mem_filter (workers member))
  · intro i other member
    obtain ⟨worker, right⟩ := waiting (List.mem_cons_of_mem _ member)
    refine ⟨?_, right⟩
    -- The joined worker is not this one: no outcome waits twice.
    have apart : i ≠ index := by
      intro same
      have twice : i ∈ rest.map Prod.fst := List.mem_map_of_mem member
      rw [same] at twice
      exact once.1 twice
    have left : (s.dispatcher.joined index outcome).workers =
        s.dispatcher.workers.filter (·.1 != index) := held goesOn
    rw [left, List.mem_filter]
    exact ⟨worker, by simpa using apart⟩

theorem pulled (k : Follows around place concurrency keepOrder answers s) {read : Feed.Waiter}
    (phase : s.dispatcher.phase = .selecting true read)
    {launch : Launch (Deferred ω (Outcome β))} {r : source.State} {now : Time}
    (element : around.element s.dispatcher.dispatched)
    (next : place r (s.dispatcher.dispatched + 1))
    (comes : Comes around s.dispatcher.dispatched launch) :
    Follows around place concurrency keepOrder answers
      (settle source r [] s.dispatcher (s.dispatcher.pulled (launched now launch))) := by
  have working := k.working (by simp [phase])
  obtain ⟨rounds, events, reached⟩ := k.course
  have course : ∃ rounds events, Course.Reaches around concurrency keepOrder
      { dispatcher := s.dispatcher.pulled (launched now launch), rounds, events, answers } := by
    cases launch with
    | started d => exact ⟨_, _, reached.step (.meets (.start rfl phase element))⟩
    | panicked payload =>
      exact ⟨_, _, Course.Reaches.gotten
        (reached.step (.meets (.panic rfl phase element comes))) rfl⟩
  refine k.settled (Dispatcher.pulled_goes _ _) course fun _ => ⟨?_, ?_, ?_, List.nodup_nil⟩
  · intro _
    rw [Dispatcher.pulled_dispatched]
    exact next
  · intro i p member
    rcases Dispatcher.mem_workers_pulled member with old | ⟨rfl, started⟩
    · exact working.running old
    · exact comes_of_started comes started
  · intro i outcome member
    exact absurd member List.not_mem_nil

/-! ### Steps -/

theorem dispatch (supplies : Supplies source work around place)
    (k : Follows around place concurrency keepOrder answers s) (now : Time) (w : ω) :
    Follows around place concurrency keepOrder answers (dispatch source work s now w).2.1 := by
  have step := dispatch_cases source work s now w
  generalize (Parallel.dispatch source work s now w).2.1 = s' at step
  obtain ⟨rounds, events, reached⟩ := k.course
  -- While the dispatcher may take an element, the source is at the next position.
  have position : ∀ {read}, s.dispatcher.phase = .selecting true read →
      place s.source s.dispatcher.dispatched := by
    intro read phase
    exact (k.working (by simp [phase])).asked (reached.placed.leave rfl phase)
  cases step with
  | idle => exact k
  | surveyed phase =>
    have started : s.dispatcher.phase ≠ .stopped := by simp [phase]
    obtain ⟨-, held, dispatched, exhausted⟩ := s.dispatcher.survey_stays
    refine k.round started (Dispatcher.survey_goes _) ⟨_, _, reached.surveyed rfl phase⟩ held ?_
      (List.Sublist.refl _)
    intro more
    rw [dispatched]
    exact (k.working started).asked (exhausted ▸ more)
  | joined phase first => exact k.joined phase first
  | @pulled read a r w' phase none asked =>
    obtain ⟨element, next, comes⟩ := supplies.item (position phase) asked
    exact k.pulled phase element next (comes now w')
  | @failed read e r w' phase none asked =>
    have failed := Course.Reaches.gotten
      (reached.step (.meets (.fail rfl phase (supplies.fail (position phase) asked)))) rfl
    obtain ⟨-, held, -, exhausted⟩ := Dispatcher.complete_stays
      { s.dispatcher with exhausted := true } s.dispatcher.dispatched (.error e)
    refine k.round (by simp [phase]) (Dispatcher.pulledFailure_goes _ _) ⟨_, _, failed⟩ held ?_
      (List.nil_sublist _)
    intro more
    cases exhausted.symm.trans more
  | @ended read r w' phase none asked =>
    have ended := reached.step (.meets (.finish rfl phase (supplies.done (position phase) asked)))
    refine k.round (by simp [phase]) (Dispatcher.pulledEnd_goes _) ⟨_, _, ended⟩ (fun _ => rfl) ?_
      (List.nil_sublist _)
    intro more
    cases more
  | @broke read message r w' phase none asked =>
    have broke := reached.step (.meets (.broke rfl phase (supplies.crash (position phase) asked)))
    refine k.settled ⟨by simp, .refl _, rfl, rfl⟩ ⟨_, _, broke⟩ ?_
    intro goesOn
    exact absurd rfl goesOn
  | @asked read g r w' phase asked notFail notDone =>
    have next := supplies.other (position phase) asked notFail notDone
    refine ⟨k.course, k.present, fun goesOn => ?_⟩
    obtain ⟨-, running, waiting, once⟩ := k.working goesOn
    exact ⟨fun _ => next, running, waiting, once⟩
  | @noticed mayPull read r phase none resolved below =>
    have started : s.dispatcher.phase ≠ .stopped := by simp [phase]
    refine k.round started (Dispatcher.noticedRead_goes _)
      ⟨_, _, reached.works (.notice rfl phase resolved)⟩ (fun _ => rfl) ?_ (List.nil_sublist _)
    intro more
    have before := (k.working started).asked more
    rcases below with rfl | ⟨w', asked⟩
    · exact before
    · exact supplies.other before asked (by simp) (by simp)

theorem finishWorker (k : Follows around place concurrency keepOrder answers s) (now : Time)
    (w : ω) :
    Follows around place concurrency keepOrder answers (finishWorker s now w).2.1 := by
  have step := finishWorker_cases s now w
  generalize (Parallel.finishWorker s now w).2.1 = s' at step
  obtain ⟨rounds, events, reached⟩ := k.course
  cases step with
  | nobody => exact k
  | @joinable index p member =>
    have stirred := reached.step (.stir (map_fst_marked index _) (List.Sublist.refl _))
    refine ⟨⟨_, _, stirred⟩, k.present, fun goesOn => ?_⟩
    obtain ⟨asked, running, waiting, once⟩ := k.working goesOn
    have distinct := reached.placed.workers_nodup goesOn
    have fresh : index ∉ s.outcomes.map Prod.fst := by
      intro known
      obtain ⟨⟨i, outcome⟩, waits, rfl⟩ := List.mem_map.mp known
      exact not_finished_of_onClock distinct member (waiting waits).1
    constructor
    · exact asked
    · intro i p' still
      obtain ⟨x, old, same⟩ := List.mem_map.mp still
      split at same
      · cases same
      · exact running (same ▸ old)
    · intro i outcome waits
      rcases List.mem_append.mp waits with old | new
      · obtain ⟨finished, comes⟩ := waiting old
        refine ⟨List.mem_map.mpr ⟨_, finished, ?_⟩, comes⟩
        by_cases same : i = index
        · simp [same]
        · simp [same]
      · cases List.mem_singleton.mp new
        refine ⟨List.mem_map.mpr ⟨_, member, ?_⟩, running member now w⟩
        simp
    · rw [List.map_append, List.nodup_append]
      refine ⟨once, List.nodup_singleton _, ?_⟩
      intro i known j last same
      cases List.mem_singleton.mp last
      rw [same] at known
      exact fresh known
  | detached fewer =>
    refine ⟨⟨_, _, reached.step (.stir rfl fewer)⟩, k.present, fun goesOn => ?_⟩
    obtain ⟨asked, running, waiting, once⟩ := k.working goesOn
    exact ⟨asked, running, waiting, once⟩

theorem below (supplies : Supplies source work around place)
    (k : Follows around place concurrency keepOrder answers s) (now : Time) (w : ω) :
    Follows around place concurrency keepOrder answers
      { s with source := (source.tick s.source now w).2.1 } := by
  refine ⟨k.course, k.present, fun goesOn => ?_⟩
  obtain ⟨asked, running, waiting, once⟩ := k.working goesOn
  exact ⟨fun more => supplies.tick (asked more) now w, running, waiting, once⟩

theorem poll (k : Follows around place concurrency keepOrder answers s) :
    Follows around place concurrency keepOrder (answers ++ [s.dispatcher.poll.1])
      { s with dispatcher := s.dispatcher.poll.2 } := by
  obtain ⟨workers, held, dispatched, exhausted⟩ := s.dispatcher.poll_stays
  obtain ⟨rounds, events, reached⟩ := k.course
  refine ⟨⟨_, _, reached.step (.poll k.present)⟩, ?_, fun goesOn => ?_⟩
  · exact s.dispatcher.poll_abandoned.trans k.present
  · have before : s.dispatcher.phase ≠ .stopped := fun stopped =>
      goesOn (Dispatcher.poll_stopped stopped)
    obtain ⟨asked, running, waiting, once⟩ := k.working before
    have same : s.dispatcher.poll.2.workers = s.dispatcher.workers := held goesOn
    constructor
    · intro more
      rw [dispatched]
      exact asked (exhausted ▸ more)
    · intro i p member
      exact running (same ▸ member)
    · intro i outcome member
      exact same ▸ waiting member
    · exact once

end Follows

/-! ### Every state -/

theorem reach_follows (supplies : Supplies source work around place) {concurrency : Nat}
    {keepOrder : Bool} {s : (source.parallel concurrency keepOrder work).State}
    {answers : List (Answer β)}
    (reached : (source.parallel concurrency keepOrder work).Reach s answers) :
    Follows around place concurrency keepOrder answers s.1 := by
  induction reached with
  | start => exact .start supplies
  | poll _ now w ih => exact ih.poll
  | @tick s answers _ now w ih =>
    refine tick_preserves (Follows around place concurrency keepOrder answers) ?_ ?_ ?_ ?_ s w ih
    · exact fun s w k => k.below supplies now w
    · exact fun s w k => k.dispatch supplies now w
    · exact fun s w k => k.finishWorker now w
    · intro s b k
      refine ⟨k.course, k.present, fun goesOn => ?_⟩
      obtain ⟨asked, running, waiting, once⟩ := k.working goesOn
      exact ⟨asked, running, waiting, once⟩

/-- What ends at a failure anyway may be guarded. -/
theorem guarded_delivers_inOrder {m : Machine ω β} {results : List (Except Failure (Option β))}
    (delivers : m.Delivers (inOrder results)) : m.guarded.Delivers (inOrder results) := by
  have last : untilFailure (inOrder results) = inOrder results :=
    untilFailure_of_terminal (error_not_mem_dropLast_inOrder _)
  rw [← last]
  exact Machine.guarded_delivers delivers

/-- An ordered parallel stage delivers the results in order, up to the first failure. -/
theorem parallel_delivers (delivers : source.Delivers (sourceOf xs fault))
    (yields : work.Yields result) (concurrency : Nat) :
    (source.parallel concurrency true work).Delivers (inOrder (resultsOf result xs fault)) := by
  intro s answers reached
  obtain ⟨rounds, events, course⟩ := (reach_follows (supplies_of delivers yields) reached).course
  have ordered := course.ordered
  exact ⟨ordered.outputs_prefix, ordered.outputs_of_done⟩

end Parallel
end PullStream
