import Mathlib.Data.List.Perm.Subperm
import PullStream.Proofs.Parallel.Bounds

/-!
Courses over a given source.

The elements of the source and the results of their workers are given. Then every result that
is got is that of its position (`Course.Gathered.right`). In order, a course is an ordered
dispatcher. Out of order, the feed has accepted what the results that have been got come to,
in the order in which they were got; nothing is got after a failure, and without one all
results have been got before the end.

* `Course.Reaches.ordered` — courses in order.
* `Course.Gathered`, `Course.Reaches.gathered` — courses out of order.
* `Course.Reaches.inTurn` — with one worker at a time, results are got in order.
-/

namespace PullStream.Dispatcher

variable {τ α β : Type} {result : α → Nat → Except Failure (Option β)} {xs : List α}
  {fault : Option Failure} {breaks : Prop}

namespace Surroundings

/-- A worker comes to the result of its position. -/
theorem result_of {n : Nat} {r : Except Failure (Option β)}
    (comes : (Surroundings.of result xs fault breaks).result n r) :
    (resultsOf result xs fault)[n]? = some r := by
  obtain ⟨a, there, rfl⟩ := comes
  exact resultsOf_element result fault there

theorem element_of {n : Nat} (more : (Surroundings.of result xs fault breaks).element n) :
    n < (resultsOf result xs fault).length := by
  rw [length_resultsOf]
  exact Nat.lt_add_right _ more

/-- The failure of the source is the last result. -/
theorem failure_of {n : Nat} {e : Failure}
    (fails : (Surroundings.of result xs fault breaks).failure n e) :
    (resultsOf result xs fault).length = n + 1 ∧
      (resultsOf result xs fault)[n]? = some (.error e) := by
  obtain ⟨rfl, rfl⟩ := fails
  exact ⟨length_resultsOf _ _, resultsOf_fault _ e⟩

theorem finish_of {n : Nat} (ends : (Surroundings.of result xs fault breaks).finish n) :
    (resultsOf result xs fault).length = n := by
  obtain ⟨rfl, rfl⟩ := ends
  exact length_resultsOf _ _

end Surroundings

/-- Whether a dispatcher is in the middle of a release. -/
def Stage.isReleasing : Stage → Bool
  | .releasing => true
  | _ => false

namespace Course

variable {around : Surroundings β} {s s' : Course τ β} {concurrency : Nat} {keepOrder : Bool}
  {expected : List (Except Failure (Option β))}

/-! ### In order -/

theorem Works.ordered (works : Works s s') (a : Afoot s)
    (o : s.dispatcher.Ordered expected s.stage.isReleasing s.answers) :
    s'.dispatcher.Ordered expected s'.stage.isReleasing s'.answers := by
  have poised := a.poised
  cases works with
  | register resting phase =>
    rw [resting] at o
    exact o
  | leave stage _ =>
    rw [stage] at o
    exact o.stopped rfl rfl rfl rfl
  | stay stage _ =>
    rw [stage] at o
    exact o
  | close stage exhausted workers =>
    rw [stage] at o poised
    exact o.close (by simp [poised.attended.1]) exhausted workers
  | select stage _ =>
    rw [stage] at o poised
    exact o.select (by simp [poised.attended.1]) _
  | notice resting phase _ =>
    rw [resting] at o
    dsimp only
    rw [resting]
    exact o.noticedRead (by simp [phase])
  | deliver stage ready goOn =>
    rw [stage] at o
    dsimp only
    rw [stage]
    exact (o.deliver ready).1 goOn
  | stop stage ready stops =>
    rw [stage] at o
    exact (o.deliver ready).2 stops
  | settle stage none =>
    rw [stage] at o
    exact o.settle none

theorem Meets.ordered (meets : Meets (.of result xs fault breaks) s s')
    (o : s.dispatcher.Ordered (resultsOf result xs fault) s.stage.isReleasing s.answers) :
    s'.dispatcher.Ordered (resultsOf result xs fault) s'.stage.isReleasing s'.answers := by
  cases meets with
  | join resting phase member comes =>
    rw [resting] at o
    rw [got_ordered (by exact o.keepOrder)]
    exact o.park_joined phase member (Surroundings.result_of comes)
  | start resting phase more =>
    rw [resting] at o
    dsimp only
    rw [resting]
    exact o.started phase (Surroundings.element_of more) _
  | panic resting phase _ comes =>
    rw [resting] at o
    rw [got_ordered (by exact o.keepOrder)]
    exact o.park_panicked phase (Surroundings.result_of comes)
  | fail resting phase fails =>
    rw [resting] at o
    rw [got_ordered (by exact o.keepOrder)]
    obtain ⟨last, right⟩ := Surroundings.failure_of fails
    exact o.park_failure phase last right
  | finish resting phase ends =>
    rw [resting] at o
    dsimp only
    rw [resting]
    exact o.pulledEnd phase (Surroundings.finish_of ends)
  | broke resting phase _ =>
    rw [resting] at o
    dsimp only
    rw [resting]
    exact o.stopped rfl rfl rfl rfl

theorem Step.ordered (step : Step (.of result xs fault breaks) s s') (a : Afoot s)
    (o : s.dispatcher.Ordered (resultsOf result xs fault) s.stage.isReleasing s.answers) :
    s'.dispatcher.Ordered (resultsOf result xs fault) s'.stage.isReleasing s'.answers := by
  cases step with
  | works works => exact works.ordered a o
  | meets meets => exact meets.ordered o
  | stir same _ => exact o.relabel same _
  | refill => exact o.refill
  | poll present => exact o.poll present
  | drop _ => exact o.drop

theorem Reaches.ordered
    (reached : Reaches (.of result xs fault breaks) concurrency true s) :
    s.dispatcher.Ordered (resultsOf result xs fault) s.stage.isReleasing s.answers := by
  induction reached with
  | start => exact .start _
  | step reached step ih => exact step.ordered reached.afoot ih

/-! ### Out of order -/

/-- The results that the dispatcher has got, in the order in which it got them. -/
def results (s : Course τ β) : List (Except Failure (Option β)) :=
  s.observed.map Prod.snd

/-- An unordered dispatcher over `expected`. -/
structure Gathered (expected : List (Except Failure (Option β))) (s : Course τ β) : Prop where
  sound : Feed.Sound s.dispatcher.feed (inOrder s.results) s.answers
  right : ∀ {i r}, (i, r) ∈ s.observed → expected[i]? = some r
  clean : s.dispatcher.phase ≠ .stopped → ∀ e, .error e ∉ s.results
  last : ∀ e, .error e ∉ s.results.dropLast
  all : s.dispatcher.exhausted = true → s.dispatcher.phase ≠ .stopped →
    s.taken = expected.length
  shut : s.dispatcher.feed.closed = true → (∃ e, .error e ∈ s.results) ∨
    s.results.Perm expected ∧ s.dispatcher.workers = [] ∧ s.dispatcher.detached = []

namespace Gathered

theorem start :
    Gathered expected ({ dispatcher := { concurrency, keepOrder } } : Course τ β) where
  sound := Feed.Sound.start
  right member := absurd member List.not_mem_nil
  clean _ _ := List.not_mem_nil
  last _ := List.not_mem_nil
  all exhausted := absurd exhausted Bool.false_ne_true
  shut closed := absurd closed Bool.false_ne_true

/-- Results that have been got for different positions are some of all results. -/
theorem subperm_of_positions (right : ∀ {i r}, (i, r) ∈ s.observed → expected[i]? = some r)
    (distinct : s.positions.Nodup) : s.results.Subperm expected := by
  have own : s.results.map some = s.positions.map (expected[·]?) := by
    rw [Course.results, Course.positions, List.map_map, List.map_map]
    apply List.map_congr_left
    intro entry member
    exact (right member).symm
  have every : expected.map some = (List.range expected.length).map (expected[·]?) := by
    apply List.ext_getElem?
    intro i
    rcases Nat.lt_or_ge i expected.length with inside | behind
    · simp [inside]
    · simp [behind]
  have inside : s.positions ⊆ List.range expected.length := by
    intro i member
    obtain ⟨entry, known, rfl⟩ := List.mem_map.mp member
    exact List.mem_range.mpr (List.getElem?_eq_some_iff.mp (right known)).1
  obtain ⟨first, same, fewer⟩ := List.subperm_of_subset distinct inside
  refine (List.map_subperm_map_iff fun _ _ => Option.some.inj).mp ?_
  rw [own, every]
  exact ⟨_, same.map _, fewer.map _⟩

/-- Where no result is got and the feed is not closed, only the taken positions and the workers
have to be seen to. -/
theorem moved (g : Gathered expected s) (observed : s'.observed = s.observed)
    (sound : Feed.Sound s'.dispatcher.feed (inOrder s.results) s'.answers)
    (closed : s'.dispatcher.feed.closed = s.dispatcher.feed.closed)
    (idle : s.dispatcher.feed.closed = true → s.dispatcher.workers = [] →
      s.dispatcher.detached = [] → s'.dispatcher.workers = [] ∧ s'.dispatcher.detached = [])
    (running : s'.dispatcher.phase ≠ .stopped → s.dispatcher.phase ≠ .stopped)
    (all : s'.dispatcher.exhausted = true → s'.dispatcher.phase ≠ .stopped →
      s'.taken = expected.length) : Gathered expected s' := by
  have same : s'.results = s.results := by
    rw [Course.results, Course.results, observed]
  constructor
  · rwa [same]
  · rw [observed]
    exact g.right
  · intro going
    rw [same]
    exact g.clean (running going)
  · rw [same]
    exact g.last
  · exact all
  · intro isClosed
    rw [same]
    have wasClosed : s.dispatcher.feed.closed = true := closed ▸ isClosed
    rcases g.shut wasClosed with failed | ⟨whole, workers, detached⟩
    · exact .inl failed
    · exact .inr ⟨whole, idle wasClosed workers detached⟩

/-- A result that has been got goes into the feed. -/
theorem got (g : Gathered expected s) (a : Afoot s) (going : s.dispatcher.phase ≠ .stopped)
    {d : Dispatcher τ β} (feed : d.feed = s.dispatcher.feed) (unordered : d.keepOrder = false)
    {index : Nat} {r : Except Failure (Option β)} {event : Event β}
    (brings : event.result? = some (index, r)) (right : expected[index]? = some r)
    (all : d.exhausted = true → s.taken + event.takes.toNat = expected.length) :
    Gathered expected (s.got d index r event) := by
  have isOpen := a.isOpen going
  have clean := g.clean going
  have put := deliver_deposited isOpen r
  have observed := got_observed s d brings
  have taken := got_taken s d index r event
  have results : (s.got d index r event).results = s.results ++ [r] := by
    rw [Course.results, observed, List.map_append]
    rfl
  have order : inOrder (s.results ++ [r]) = inOrder s.results ++ inOrder [r] :=
    inOrder_append_of_clean (fun e failed => clean e (mem_of_error_mem_inOrder failed)) _
  have last : ∀ e, .error e ∉ (s.results ++ [r]).dropLast := by
    rw [List.dropLast_concat]
    exact clean
  have right : ∀ {i r'}, (i, r') ∈ (s.got d index r event).observed →
      expected[i]? = some r' := by
    intro i r' member
    rw [observed] at member
    rcases List.mem_append.mp member with old | new
    · exact g.right old
    · cases List.mem_singleton.mp new
      exact right
  rw [got_unordered unordered, feed] at results right taken ⊢
  have sound := put.sound g.sound
  rw [← order] at sound
  cases goOn : (Dispatcher.deliver s.dispatcher.feed r).2 with
  | true =>
    rw [goOn] at put results right taken
    refine ⟨?_, right, fun _ => ?_, results ▸ last, fun exhausted _ => taken.trans (all exhausted),
      fun closed => ?_⟩
    · rw [results]
      simpa [next, delivered, feed] using sound
    · intro e failed
      rw [results] at failed
      rcases List.mem_append.mp failed with old | new
      · exact clean e old
      · exact put.clean e (List.mem_singleton.mp new).symm
    · have still : (Dispatcher.deliver s.dispatcher.feed r).1.closed = true := by
        simpa [next, delivered, feed] using closed
      rw [put.isOpen isOpen] at still
      cases still
  | false =>
    rw [goOn] at put results right taken
    obtain ⟨e, rfl, -⟩ := put.failed
    refine ⟨?_, right, fun going => absurd rfl going, results ▸ last,
      fun _ going => absurd rfl going, fun _ => .inl ⟨e, ?_⟩⟩
    · rw [results]
      simpa [next, Dispatcher.stop, delivered, feed] using sound
    · rw [results]
      exact List.mem_append_right _ (List.mem_singleton_self _)

end Gathered

/-- A dispatcher that stops with nobody at work leaves nobody at work. -/
theorem stop_idle {d : Dispatcher τ β} (workers : d.workers = []) (detached : d.detached = []) :
    d.stop.workers = [] ∧ d.stop.detached = [] := by
  simp [Dispatcher.stop, workers, detached]

theorem Works.gathered (works : Works s s') (a : Afoot s) (p : Placed s)
    (attached : s.dispatcher.phase ≠ .stopped → s.dispatcher.detached = [])
    (unordered : s.dispatcher.keepOrder = false) (g : Gathered expected s) :
    Gathered expected s' := by
  have poised := a.poised
  -- Out of order nothing is parked, so nothing is ready.
  have unready : ∀ {r b}, s.dispatcher.reorder.popReady ≠ some (r, b) := by
    intro r b ready
    have member := (Reorder.popReady_some ready).1
    rw [p.free unordered] at member
    exact absurd member List.not_mem_nil
  cases works with
  | register resting phase =>
    exact g.moved rfl g.sound rfl (fun _ => And.intro) id g.all
  | leave stage _ =>
    exact g.moved rfl g.sound rfl (fun _ => stop_idle) (fun going => absurd rfl going)
      (fun _ going => absurd rfl going)
  | stay stage _ =>
    exact g.moved rfl g.sound rfl (fun _ => And.intro) id g.all
  | close stage exhausted workers =>
    rw [stage] at poised
    have going : s.dispatcher.phase ≠ .stopped := by simp [poised.attended.1]
    have known := p.known going
    rw [workers, g.all exhausted going] at known
    refine ⟨g.sound.close, g.right, fun going => absurd rfl going, g.last,
      fun _ going => absurd rfl going, fun _ => .inr ⟨?_, stop_idle workers (attached going)⟩⟩
    have count : s.results.length = expected.length := by
      simpa [results, positions] using known.length_eq
    have all := Gathered.subperm_of_positions g.right p.distinct
    exact all.perm_of_length_le (Nat.le_of_eq count.symm)
  | select stage _ =>
    rw [stage] at poised
    have going : s.dispatcher.phase ≠ .stopped := by simp [poised.attended.1]
    exact g.moved rfl g.sound rfl (fun _ => And.intro) (fun _ => going)
      (fun exhausted _ => g.all exhausted going)
  | notice resting phase _ =>
    have going : s.dispatcher.phase ≠ .stopped := by simp [phase]
    refine g.moved ?_ g.sound rfl (fun _ => And.intro) (fun _ => going) ?_
    · simp [observed, Event.result?]
    · intro exhausted _
      have same : (s.events ++ [Event.read]).countP Event.takes = s.taken := by
        simp [taken, Event.takes]
      exact same.trans (g.all exhausted going)
  | deliver _ ready _ => exact absurd ready unready
  | stop _ ready _ => exact absurd ready unready
  | settle stage _ =>
    rw [stage] at poised
    obtain ⟨mayPull, read, phase⟩ := poised.releasing
    have going : s.dispatcher.phase ≠ .stopped := by simp [phase]
    exact g.moved rfl g.sound rfl (fun _ => And.intro) (fun _ => going)
      (fun exhausted _ => g.all exhausted going)

theorem Meets.gathered (meets : Meets (.of result xs fault breaks) s s') (a : Afoot s)
    (p : Placed s) (unordered : s.dispatcher.keepOrder = false)
    (g : Gathered (resultsOf result xs fault) s) : Gathered (resultsOf result xs fault) s' := by
  cases meets with
  | join resting phase member comes =>
    have going : s.dispatcher.phase ≠ .stopped := by simp [phase]
    exact g.got a going (by rfl) (by exact unordered) rfl (Surroundings.result_of comes)
      fun exhausted => g.all exhausted going
  | start resting phase more =>
    have leave := p.leave resting phase
    refine g.moved ?_ g.sound rfl ?_ (fun _ => by simp [phase]) ?_
    · simp [observed, Event.result?]
    · intro closed
      cases closed.symm.trans (a.isOpen (by simp [phase]))
    · intro exhausted
      cases leave.symm.trans exhausted
  | panic resting phase more comes =>
    have leave := p.leave resting phase
    refine g.got a (by simp [phase]) (by rfl) (by exact unordered) rfl
      (Surroundings.result_of comes) ?_
    intro exhausted
    cases leave.symm.trans exhausted
  | fail resting phase fails =>
    obtain ⟨last, right⟩ := Surroundings.failure_of fails
    have counted := p.counted (p.leave resting phase)
    refine g.got a (by simp [phase]) (by rfl) (by exact unordered) rfl right ?_
    intro _
    rw [last, counted]
    rfl
  | finish resting phase ends =>
    have counted := p.counted (p.leave resting phase)
    refine g.moved ?_ g.sound rfl (fun _ => And.intro) (fun _ => by simp [phase]) ?_
    · simp [observed, Event.result?]
    · intro _ _
      have same : (s.events ++ [Event.ended]).countP Event.takes = s.taken := by
        simp [taken, Event.takes]
      rw [Surroundings.finish_of ends, ← counted]
      exact same
  | broke resting phase _ =>
    exact g.moved rfl g.sound rfl (fun _ _ detached => ⟨rfl, detached⟩)
      (fun going => absurd rfl going) (fun _ going => absurd rfl going)

theorem Step.gathered (step : Step (.of result xs fault breaks) s s') (a : Afoot s)
    (p : Placed s) (attached : s.dispatcher.phase ≠ .stopped → s.dispatcher.detached = [])
    (unordered : s.dispatcher.keepOrder = false)
    (g : Gathered (resultsOf result xs fault) s) : Gathered (resultsOf result xs fault) s' := by
  cases step with
  | works works => exact works.gathered a p attached unordered g
  | meets meets => exact meets.gathered a p unordered g
  | stir same fewer =>
    refine g.moved rfl g.sound rfl (fun _ workers detached => ⟨?_, ?_⟩) id g.all
    · rw [workers] at same
      exact List.map_eq_nil_iff.mp same
    · rw [detached] at fewer
      exact List.sublist_nil.mp fewer
  | refill =>
    exact g.moved rfl g.sound.refill (Feed.refill_untouched _).closed (fun _ => And.intro) id g.all
  | poll present =>
    unfold Dispatcher.poll
    split
    · rename_i idle
      have going : s.dispatcher.phase ≠ .stopped := by simp [idle]
      exact g.moved rfl g.sound.skip rfl (fun _ => And.intro) (fun _ => going)
        (fun exhausted _ => g.all exhausted going)
    · exact g.moved rfl (g.sound.poll present) (Feed.poll_untouched _).closed
        (fun _ => And.intro) id g.all
  | drop _ =>
    unfold Dispatcher.drop
    split
    · exact g.moved rfl g.sound.drop rfl (fun _ => stop_idle) (fun going => absurd rfl going)
        (fun _ going => absurd rfl going)
    · exact g.moved rfl g.sound.drop rfl (fun _ => And.intro) id g.all

theorem Reaches.gathered (positive : 0 < concurrency)
    (reached : Reaches (.of result xs fault breaks) concurrency false s) :
    Gathered (resultsOf result xs fault) s := by
  induction reached with
  | start => exact .start
  | step reached step ih =>
    exact step.gathered reached.afoot reached.placed (reached.paced positive).attached
      reached.constant.2 ih

/-! ### One worker at a time -/

/-- The results that have been got are those of the first positions, in order. -/
def InTurn (s : Course τ β) : Prop :=
  s.positions = List.range s.positions.length

/-- The result that is got is that of the next position. -/
theorem InTurn.got (turn : InTurn s) (d : Dispatcher τ β) {index : Nat}
    {r : Except Failure (Option β)} {event : Event β} (brings : event.result? = some (index, r))
    (next : index = s.positions.length) : InTurn (s.got d index r event) := by
  rw [InTurn, got_positions s d brings, List.length_append, List.length_singleton, next,
    List.range_succ, ← turn]

/-- The only worker has the next position. -/
theorem InTurn.only_worker (turn : InTurn s) (p : Placed s)
    (going : s.dispatcher.phase ≠ .stopped) (one : s.dispatcher.workers.length ≤ 1) {index : Nat}
    (member : index ∈ s.dispatcher.workers.map Prod.fst) : index = s.positions.length := by
  have only : s.dispatcher.workers.map Prod.fst = [index] := by
    have short : (s.dispatcher.workers.map Prod.fst).length ≤ 1 := by simpa using one
    obtain ⟨i, same⟩ := List.length_eq_one_iff.mp
      (Nat.le_antisymm short (List.length_pos_of_mem member))
    rw [same] at member ⊢
    rw [List.mem_singleton.mp member]
  have known := p.known going
  rw [only] at known
  have count := known.length_eq
  simp only [List.length_append, List.length_singleton, List.length_range] at count
  have last : s.positions.length ∈ [index] ++ s.positions :=
    known.mem_iff.mpr (List.mem_range.mpr (by omega))
  rcases List.mem_append.mp last with here | before
  · exact (List.mem_singleton.mp here).symm
  · rw [turn] at before
    simp at before

/-- While nobody works, all that has been taken has been got. -/
theorem InTurn.nobody (p : Placed s) (going : s.dispatcher.phase ≠ .stopped)
    (none : s.dispatcher.workers = []) : s.taken = s.positions.length := by
  have count := (p.known going).length_eq
  simpa [none] using count.symm

theorem Step.inTurn (step : Step around s s') (p : Placed s) (paced : Paced 1 s)
    (turn : InTurn s) : InTurn s' := by
  -- By the leave to take an element nobody works, and the next position is the next to take.
  have next : ∀ {read}, s.stage = .resting → s.dispatcher.phase = .selecting true read →
      s.dispatcher.dispatched = s.positions.length := by
    intro read resting phase
    have going : s.dispatcher.phase ≠ .stopped := by simp [phase]
    have room := (paced.leave resting phase).1
    rw [Dispatcher.inFlight] at room
    have none : s.dispatcher.workers = [] := List.length_eq_zero_iff.mp (by omega)
    rw [← p.counted (p.leave resting phase)]
    exact InTurn.nobody p going none
  cases step with
  | works works =>
    rw [InTurn, positions, works.observed_eq]
    exact turn
  | meets meets =>
    cases meets with
    | join resting phase member comes =>
      have going : s.dispatcher.phase ≠ .stopped := by simp [phase]
      have inFlight := paced.inFlight
      rw [running] at inFlight
      exact turn.got _ rfl (turn.only_worker p going (by omega) member)
    | start resting phase more =>
      have same : (s.events ++ [Event.started s.dispatcher.dispatched]).filterMap
          Event.result? = s.observed := by
        simp [observed, Event.result?]
      rw [InTurn, positions, observed, same]
      exact turn
    | panic resting phase more comes => exact turn.got _ rfl (next resting phase)
    | fail resting phase fails => exact turn.got _ rfl (next resting phase)
    | finish resting phase ends =>
      have same : (s.events ++ [Event.ended]).filterMap Event.result? = s.observed := by
        simp [observed, Event.result?]
      rw [InTurn, positions, observed, same]
      exact turn
    | broke => exact turn
  | stir => exact turn
  | refill => exact turn
  | poll => exact turn
  | drop => exact turn

theorem Reaches.inTurn (reached : Reaches around 1 keepOrder s) : InTurn s := by
  induction reached with
  | start => rfl
  | step reached step ih => exact step.inTurn reached.placed (reached.paced Nat.one_pos) ih

/-- Results that have been got in turn are the first of those that are expected. -/
theorem InTurn.results_eq (turn : InTurn s)
    (right : ∀ {i r}, (i, r) ∈ s.observed → expected[i]? = some r) :
    s.results = expected.take s.results.length := by
  have count : s.positions.length = s.results.length := by
    rw [positions, results, List.length_map, List.length_map]
  apply List.ext_getElem?
  intro i
  rcases Nat.lt_or_ge i s.results.length with inside | behind
  · have bound : i < s.observed.length := by simpa [results] using inside
    have position : s.observed[i].1 = i := by
      have entry : s.positions[i]? = some s.observed[i].1 := by
        simp [positions, bound]
      rw [turn, List.getElem?_range (by omega)] at entry
      exact (Option.some.inj entry).symm
    have there : expected[s.observed[i].1]? = some s.observed[i].2 :=
      right (List.getElem_mem bound)
    rw [position] at there
    rw [List.getElem?_take_of_lt inside, there, results]
    simp [bound]
  · have short : (expected.take s.results.length).length ≤ s.results.length :=
      List.length_take_le _ _
    rw [List.getElem?_eq_none behind, List.getElem?_eq_none (Nat.le_trans short behind)]

end Course
end PullStream.Dispatcher
