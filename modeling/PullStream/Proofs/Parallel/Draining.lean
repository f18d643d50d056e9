import PullStream.Proofs.Machine.Draining
import PullStream.Proofs.Parallel.Clocked
import PullStream.Proofs.Parallel.Progress

/-!
An ordered parallel stage over a source with a script.

The dispatcher asks its source, turns to its workers and its consumer, and asks again; in between
the source is left as it is. So whatever happens in which order, the elements that it has taken
are the first of the script, each at its position, and their number is how far the source has been
heard.

Of a course over a script only a finite part is seen. It is a course over the elements that have
been taken, or over more of them while the source has not ended (`Course.Suits`). Two courses over
one script are courses over one list, and so what they deliver is in the results of that list.

* `Surroundings.scripted`, `supplies_scripted` — what a source with a script allows.
* `Course.Suits.restrict` — a course over a script is a course over a list.
* `parallel_resumable` — an ordered parallel stage can be resumed if its source can.
* `parallel_accounted` — where the elements are that have been taken from the source.
* `parallel_whole` — what the stage makes of what its source comes to by itself.
-/

namespace PullStream

variable {ω τ α β : Type}

namespace Dispatcher

/-- A source with a script, and workers with the results of their elements. -/
def Surroundings.scripted (result : α → Nat → Except Failure (Option β)) (script : Script α) :
    Surroundings β where
  element n := ∃ a, script n = some (.item a)
  failure n e := script n = some (.failure e)
  finish n := script n = some .ended
  breaks := True
  result n r := ∃ a, script n = some (.item a) ∧ result a n = r

namespace Course

variable {result : α → Nat → Except Failure (Option β)} {script : Script α}
  {around : Surroundings β} {s s' : Course τ β} {concurrency : Nat} {xs : List α}
  {fault : Option Failure}

/-! ### Positions -/

/-- The elements that have been taken are the first of the script, and behind them it ends if the
source has. -/
structure Scripted (script : Script α) (s : Course τ β) : Prop where
  taken : ∃ xs : List α, xs.length = s.dispatcher.dispatched ∧ script.Begins (xs.map .item)
  last : s.dispatcher.exhausted = true →
    ∃ a, script s.dispatcher.dispatched = some a ∧ a.isLast = true

theorem Reaches.scripted
    (reached : Reaches (.scripted result script) concurrency true s) : Scripted script s := by
  induction reached with
  | start => exact ⟨⟨[], rfl, fun _ _ there => by cases there⟩, nofun⟩
  | @step s s' reached step ih =>
    obtain ⟨⟨xs, length, begins⟩, last⟩ := ih
    cases step.onward reached.placed reached.constant.2 with
    | stands dispatched exhausted =>
      refine ⟨⟨xs, length.trans dispatched.symm, begins⟩, ?_⟩
      rwa [dispatched, exhausted]
    | takes element _ dispatched more =>
      obtain ⟨a, there⟩ := element
      refine ⟨⟨xs ++ [a], by simp [length, dispatched], ?_⟩, fun exhausted => ?_⟩
      · rw [List.map_append]
        exact begins.concat (by simpa [length] using there)
      · cases more.symm.trans exhausted
    | ends ended _ dispatched =>
      refine ⟨⟨xs, length.trans dispatched.symm, begins⟩, fun _ => ?_⟩
      rw [dispatched]
      rcases ended with ⟨e, there⟩ | there
      · exact ⟨_, there, rfl⟩
      · exact ⟨_, there, rfl⟩

/-! ### A finite part of a script -/

/-- The first elements of a script and the failure behind them, as far as a course has come. If its
source has ended, they are all of them. -/
structure Suits (script : Script α) (xs : List α) (fault : Option Failure) (s : Course τ β) :
    Prop where
  begins : script.Begins (xs.map .item)
  fault : ∀ e, fault = some e ↔ script xs.length = some (.failure e)
  within : s.dispatcher.dispatched ≤ xs.length
  all : s.dispatcher.exhausted = true → s.dispatcher.dispatched = xs.length

namespace Suits

/-- What suits a course has suited it before. -/
theorem before (suits : Suits script xs fault s') (onward : Onward around s s') :
    Suits script xs fault s := by
  obtain ⟨begins, same, within, all⟩ := suits
  cases onward with
  | stands dispatched exhausted =>
    rw [dispatched] at within
    rw [exhausted, dispatched] at all
    exact ⟨begins, same, within, all⟩
  | takes _ more dispatched _ =>
    refine ⟨begins, same, by omega, fun exhausted => ?_⟩
    cases more.symm.trans exhausted
  | ends _ more dispatched _ =>
    refine ⟨begins, same, by omega, fun exhausted => ?_⟩
    cases more.symm.trans exhausted

/-- An element of the script among the first ones. -/
theorem element (suits : Suits script xs fault s) {i : Nat} {a : α} (inside : i < xs.length)
    (there : script i = some (.item a)) : xs[i]? = some a := by
  have here := suits.begins (i := i) (a := .item xs[i]) (by simp [inside])
  rw [there] at here
  cases here
  exact List.getElem?_eq_getElem inside

/-- What a dispatcher meets with on a script, it meets with on a list that suits it afterwards. -/
theorem meets (suits : Suits script xs fault s') (meets : Meets (.scripted result script) s s')
    (placed : Placed s) (ordered : s.dispatcher.keepOrder = true) (manned : Manned s) :
    Meets (.of result xs fault True) s s' := by
  have earlier := suits.before (meets.onward placed ordered)
  cases meets with
  | join resting phase member comes =>
    obtain ⟨a, there, same⟩ := comes
    have inside := Nat.lt_of_lt_of_le (manned _ member) earlier.within
    exact .join resting phase member ⟨a, earlier.element inside there, same⟩
  | start resting phase element => exact .start resting phase suits.within
  | panic resting phase element comes =>
    obtain ⟨a, there, same⟩ := comes
    have within := suits.within
    rw [got_ordered (by exact ordered)] at within
    exact .panic resting phase within ⟨a, earlier.element within there, same⟩
  | fail resting phase failure =>
    have all := suits.all
    rw [got_ordered (by exact ordered)] at all
    have last : s.dispatcher.dispatched = xs.length := all rfl
    refine .fail resting phase ⟨last, (suits.fault _).mpr ?_⟩
    rw [← last]
    exact failure
  | finish resting phase finish =>
    have last : s.dispatcher.dispatched = xs.length := suits.all rfl
    refine .finish resting phase ⟨last, ?_⟩
    cases failed : fault with
    | none => rfl
    | some e =>
      have there := (suits.fault e).mp failed
      rw [← last] at there
      cases there.symm.trans finish
  | broke resting phase breaks => exact .broke resting phase breaks

/-- A course over a script is a course over a list that suits it. -/
theorem restrict (suits : Suits script xs fault s)
    (reached : Reaches (.scripted result script) concurrency true s) :
    Reaches (.of result xs fault True) concurrency true s := by
  induction reached with
  | start => exact .start
  | @step s s' reached step ih =>
    have ordered := reached.constant.2
    have earlier := suits.before (step.onward reached.placed ordered)
    refine (ih earlier).step ?_
    cases step with
    | works works => exact .works works
    | meets meets => exact .meets (suits.meets meets reached.placed ordered reached.manned)
    | stir same fewer => exact .stir same fewer
    | refill => exact .refill
    | poll present => exact .poll present
    | drop present => exact .drop present

end Suits

/-- The failure at a position of a script, if there is one. -/
def faultAt (script : Script α) (n : Nat) : Option Failure :=
  match script n with
  | some (.failure e) => some e
  | _ => none

theorem faultAt_iff {n : Nat} {e : Failure} :
    faultAt script n = some e ↔ script n = some (.failure e) := by
  unfold faultAt
  split
  · rename_i e' there
    simp [there]
  · rename_i other
    simpa using other e

/-- Behind the end of a source no element is taken. -/
theorem length_le_of_isLast {n : Nat} (begins : script.Begins (xs.map .item))
    (last : ∃ a, script n = some a ∧ a.isLast = true) : xs.length ≤ n := by
  obtain ⟨a, there, isLast⟩ := last
  by_contra beyond
  have here := begins (i := n) (a := .item xs[n]) (by simp [Nat.lt_of_not_le beyond])
  rw [there] at here
  cases here
  cases isLast

/-- Any first elements suit a course that has not come further. -/
theorem Scripted.suits (scripted : Scripted script s) (begins : script.Begins (xs.map .item))
    (within : s.dispatcher.dispatched ≤ xs.length) :
    Suits script xs (faultAt script xs.length) s where
  begins := begins
  fault _ := faultAt_iff
  within := within
  all exhausted := Nat.le_antisymm within (length_le_of_isLast begins (scripted.last exhausted))

/-- Two courses over one script are courses over one list. -/
theorem exists_suits {t : Course τ β} (first : Scripted script s) (second : Scripted script t) :
    ∃ (xs : List α) (fault : Option Failure),
      Suits script xs fault s ∧ Suits script xs fault t := by
  obtain ⟨xs, length, begins⟩ := first.taken
  obtain ⟨ys, length', begins'⟩ := second.taken
  rcases Nat.le_total xs.length ys.length with shorter | longer
  · exact ⟨ys, _, first.suits begins' (by omega), second.suits begins' (by omega)⟩
  · exact ⟨xs, _, first.suits begins (by omega), second.suits begins (by omega)⟩

/-- What a script comes to suits every course over it. -/
theorem suits_of_whole (scripted : Scripted script s)
    (begins : script.Begins (xs.map .item ++ [.ending fault])) : Suits script xs fault s := by
  have there := begins.next
  rw [List.length_map] at there
  have same : faultAt script xs.length = fault := by
    rw [faultAt, there]
    cases fault <;> rfl
  obtain ⟨ys, length, taken⟩ := scripted.taken
  have within := length_le_of_isLast taken ⟨_, there, Arrival.ending_isLast fault⟩
  rw [← same]
  exact scripted.suits (begins.mono (List.prefix_append _ _)) (length ▸ within)

end Course
end Dispatcher

namespace Parallel

open Dispatcher (Surroundings Course)

variable {source : Machine ω α} {work : Worker ω α β}
  {result : α → Nat → Except Failure (Option β)} {script : Script α} {concurrency : Nat}

/-! ### A source with a script -/

/-- A source that goes by its script, with workers that have results of their own. -/
theorem supplies_scripted (begins : source.GoesBy script) (yields : work.Yields result) :
    Supplies source work (.scripted result script) source.Heard where
  start := .start
  tick heard now w := heard.tick now w
  item {_ n _ _ a _ _} heard asked := by
    cases heard.next begins asked with
    | quiet nothing => cases nothing
    | arrives here there goesOn =>
      cases here
      exact ⟨⟨a, there⟩, goesOn rfl, comes_of_yields yields fun r same => ⟨a, there, same⟩⟩
  fail heard asked := by
    cases heard.next begins asked with
    | quiet nothing => cases nothing
    | arrives here there =>
      cases here
      exact there
  done heard asked := by
    cases heard.next begins asked with
    | quiet nothing => cases nothing
    | arrives here there =>
      cases here
      exact there
  crash _ _ := trivial
  other heard asked notFail notDone := by
    have nothing := Answer.arrival?_signal (α := α) notFail notDone
    cases heard.next begins asked with
    | quiet _ still => exact still
    | arrives here => cases nothing.symm.trans here

/-! ### Resuming -/

/-- An ordered parallel stage over a source that can be resumed: however both are interrupted,
the elements that it has taken are the first of the source's script. -/
theorem draining_follows (begins : source.GoesBy script) (yields : work.Yields result)
    {t : (source.parallel concurrency true work).State} {as : List (Arrival β)}
    (draining : (source.parallel concurrency true work).Draining t as) :
    ∃ answers, arrivals answers = as ∧
      Follows (.scripted result script) source.Heard concurrency true answers t.1 := by
  obtain ⟨answers, reached, same⟩ := draining.reach
  exact ⟨answers, same, reach_follows (supplies_scripted begins yields) reached⟩

/-- A course over a list that suits it delivers the results of the list. -/
theorem prefix_of_suits {s : Course (Running ω β) β} {xs : List α} {fault : Option Failure}
    (suits : s.Suits script xs fault)
    (reached : s.Reaches (.scripted result script) concurrency true)
    (front : Unended (arrivals s.answers).dropLast) :
    arrivals s.answers <+:
      (inOrder (resultsOf result xs fault)).map Arrival.ofResult ++ [.ended] := by
  have ordered := (suits.restrict reached).ordered
  refine prefix_of_results front ?_ ?_
  · rw [resultsIn_arrivals]
    exact ordered.outputs_prefix
  · intro ended
    rw [resultsIn_arrivals]
    exact ordered.outputs_of_done (ended_mem_arrivals.mp ended)

/-- An ordered parallel stage can be resumed if its source can, whatever its dispatcher turns to
while the source has no answer. -/
theorem parallel_resumable (resumable : source.Resumable) (yields : work.Yields result)
    (concurrency : Nat) : (source.parallel concurrency true work).Resumable := by
  obtain ⟨script, begins⟩ := resumable.script
  intro t as t' as' draining draining'
  have front := draining.unended_dropLast
  have front' := draining'.unended_dropLast
  obtain ⟨answers, rfl, ⟨rounds, events, course⟩, -, -⟩ := draining_follows begins yields draining
  obtain ⟨answers', rfl, ⟨rounds', events', course'⟩, -, -⟩ :=
    draining_follows begins yields draining'
  obtain ⟨xs, fault, suits, suits'⟩ := Course.exists_suits course.scripted course'.scripted
  exact List.prefix_or_prefix_of_prefix (prefix_of_suits suits course front)
    (prefix_of_suits suits' course' front')

/-! ### What has been taken -/

/-- What has come from the source is what the dispatcher has taken, and each position of it is
with one worker, or waits for its turn, or has had it. -/
structure Accounted (source : Machine ω α) (s : State ω source.State β) : Prop where
  taken : source.Heard s.source s.dispatcher.dispatched
  shared : (s.dispatcher.workers.map Prod.fst ++ s.dispatcher.reorder.parked.map Prod.fst ++
    List.range s.dispatcher.reorder.next).Perm (List.range s.dispatcher.dispatched)

/-- While the dispatcher goes on and its source has not ended, nothing is lost and nothing is there
twice. -/
theorem parallel_accounted (resumable : source.Resumable) (yields : work.Yields result)
    {t : (source.parallel concurrency true work).State} {as : List (Arrival β)}
    (draining : (source.parallel concurrency true work).Draining t as)
    (going : t.1.dispatcher.phase ≠ .stopped) (more : t.1.dispatcher.exhausted = false) :
    Accounted source t.1 := by
  obtain ⟨script, begins⟩ := resumable.script
  obtain ⟨answers, -, ⟨rounds, events, course⟩, -, working⟩ :=
    draining_follows begins yields draining
  refine ⟨(working going).asked more, ?_⟩
  have placed := course.placed
  have known := placed.known going
  rw [placed.counted more] at known
  refine List.Perm.trans ?_ known
  rw [List.append_assoc]
  refine List.Perm.append_left _ (List.perm_append_comm.trans ?_)
  exact (placed.kept course.constant.2).symm

/-- An ordered parallel stage delivers the results of what its source comes to when it is drained
by itself: each element once and at its position. -/
theorem parallel_whole (resumable : source.Resumable) (yields : work.Yields result)
    {t : (source.parallel concurrency true work).State} {as : List (Arrival β)}
    (draining : (source.parallel concurrency true work).Draining t as)
    {u : source.State} {xs : List α} {fault : Option Failure}
    (alone : source.Draining u (xs.map .item ++ [.ending fault])) :
    as <+: (inOrder (resultsOf result xs fault)).map Arrival.ofResult ++ [.ended] := by
  obtain ⟨script, begins⟩ := resumable.script
  have front := draining.unended_dropLast
  obtain ⟨answers, rfl, ⟨rounds, events, course⟩, -, -⟩ := draining_follows begins yields draining
  exact prefix_of_suits (Course.suits_of_whole course.scripted (begins alone)) course front

end Parallel
end PullStream
