import PullStream.Proofs.Parallel.Leaving

/-!
What a dispatcher does behind a failure.

A dispatcher that goes on although it has got a failure keeps results in order, and has the
failure parked behind a worker with a lower position (`Withheld`). Out of order the first
failure stops it, and a failure of the source leaves nothing to ask for. So behind a failure
elements are taken in one case only, and no further than the dispatcher's bound on what is in
flight lets it: the parked failure counts, and so does the worker it waits for.

* `Course.Reaches.withheld` — where the failures are that have been got.
* `Course.Step.asks` — what is pulled or started, the dispatcher has asked for.
* `Course.Reaches.asks_withheld` — when a dispatcher asks its source behind a failure.
* `Course.Leads.dispatched_le` — how many elements it takes behind a failure.
-/

namespace PullStream.Dispatcher

variable {τ β : Type}

/-- Whether an event comes from the source, by a pull. -/
def Event.pulls : Event β → Bool
  | .started _ | .panicked _ _ | .failed _ _ | .ended => true
  | .joined _ _ | .read => false

namespace Course

variable {around : Surroundings β} {s s' t : Course τ β} {concurrency : Nat} {keepOrder : Bool}
  {i : Nat} {e : Failure}

/-- The dispatcher asks its source for an element. -/
def Asks (s : Course τ β) : Prop :=
  s.stage = .resting ∧ ∃ read, s.dispatcher.phase = .selecting true read

/-- What comes later in a course. -/
inductive Leads (around : Surroundings β) (s : Course τ β) : Course τ β → Prop where
  | refl : Leads around s s
  | step {t t' : Course τ β} : Leads around s t → Step around t t' → Leads around s t'

/-! ### Where failures are -/

/-- A dispatcher that goes on has the failures that it has got parked. -/
def Withheld (s : Course τ β) : Prop :=
  s.dispatcher.phase ≠ .stopped → ∀ {i e}, (i, .error e) ∈ s.observed →
    s.dispatcher.keepOrder = true ∧ (i, .error e) ∈ s.dispatcher.reorder.parked

namespace Withheld

/-- Where no result is got or released, the failures stay where they are. -/
theorem moved (held : Withheld s) (observed : s'.observed = s.observed)
    (going : s'.dispatcher.phase ≠ .stopped → s.dispatcher.phase ≠ .stopped)
    (order : s'.dispatcher.keepOrder = s.dispatcher.keepOrder)
    (reorder : s'.dispatcher.reorder = s.dispatcher.reorder) : Withheld s' := by
  intro goesOn i e failed
  rw [observed] at failed
  rw [order, reorder]
  exact held (going goesOn) failed

/-- A dispatcher that has stopped has nothing to withhold. -/
theorem of_stopped (stopped : s.dispatcher.phase = .stopped) : Withheld s :=
  fun goesOn => absurd stopped goesOn

/-- A result has been got: in order it is parked, and out of order a failure stops. -/
theorem got (held : Withheld s) (a : Afoot s) (going : s.dispatcher.phase ≠ .stopped)
    {d : Dispatcher τ β} {index : Nat} {r : Except Failure (Option β)} {event : Event β}
    (brings : event.result? = some (index, r)) (feed : d.feed = s.dispatcher.feed)
    (reorder : d.reorder = s.dispatcher.reorder) (order : d.keepOrder = s.dispatcher.keepOrder)
    (fresh : d.keepOrder = true → index ∉ d.reorder.parked.map Prod.fst) :
    Withheld (s.got d index r event) := by
  have observed := got_observed s d brings
  intro goesOn i e failed
  rw [observed] at failed
  cases ordered : d.keepOrder with
  | true =>
    rw [got_ordered ordered]
    refine ⟨ordered, ?_⟩
    rw [Dispatcher.park, Reorder.insert_fresh (fresh ordered)]
    rcases List.mem_append.mp failed with old | new
    · rw [reorder]
      exact List.mem_cons_of_mem _ (held going old).2
    · exact List.mem_singleton.mp new ▸ List.mem_cons_self
  | false =>
    have unordered : s.dispatcher.keepOrder ≠ true := by simp [← order, ordered]
    have put := deliver_deposited (feed ▸ a.isOpen going) r
    rw [got_unordered ordered] at goesOn
    cases goOn : (Dispatcher.deliver d.feed r).2 with
    | true =>
      rw [goOn] at put
      rcases List.mem_append.mp failed with old | new
      · exact absurd (held going old).1 unordered
      · have same : r = .error e := (Prod.mk.inj (List.mem_singleton.mp new)).2.symm
        exact absurd same (put.clean e)
    | false =>
      rw [goOn] at goesOn
      exact absurd rfl goesOn

end Withheld

theorem Works.withheld (works : Works s s') (a : Afoot s) (p : Placed s) (held : Withheld s) :
    Withheld s' := by
  have going := works.going a
  cases works with
  | register => exact held.moved rfl (fun _ => going) rfl rfl
  | leave => exact .of_stopped rfl
  | stay => exact held.moved rfl (fun _ => going) rfl rfl
  | close => exact .of_stopped rfl
  | select => exact held.moved rfl (fun _ => going) rfl rfl
  | notice => exact held.moved (by simp [observed, Event.result?]) (fun _ => going) rfl rfl
  | @deliver r b _ ready goOn =>
    have put := deliver_deposited (a.isOpen going) r
    rw [goOn] at put
    obtain ⟨next, -, rest⟩ := Reorder.popReady_some ready
    intro _ i e failed
    obtain ⟨ordered, parked⟩ := held going failed
    refine ⟨ordered, ?_⟩
    have distinct := List.Nodup.of_append_right (p.kept_nodup ordered)
    -- What is released is no failure, so the failure is not at its position.
    have apart : i ≠ s.dispatcher.reorder.next := by
      rintro rfl
      have same := List.inj_on_of_nodup_map distinct next parked rfl
      exact put.clean e (Prod.mk.inj same).2
    change _ ∈ b.parked
    rw [rest]
    exact List.mem_filter.mpr ⟨parked, by simpa using apart⟩
  | stop => exact .of_stopped rfl
  | settle => exact held.moved rfl (fun _ => going) rfl rfl

theorem Meets.withheld (meets : Meets around s s') (a : Afoot s) (p : Placed s)
    (p' : Placed s') (held : Withheld s) : Withheld s' := by
  have going := meets.going
  cases meets with
  | join =>
    refine held.got a going rfl rfl rfl rfl fun ordered => ?_
    exact (p.got_fresh p' ordered (got_observed _ _ rfl)).2
  | start => exact held.moved (by simp [observed, Event.result?]) (fun _ => going) rfl rfl
  | panic =>
    refine held.got a going rfl rfl rfl rfl fun ordered => ?_
    exact (p.got_fresh p' ordered (got_observed _ _ rfl)).2
  | fail =>
    refine held.got a going rfl rfl rfl rfl fun ordered => ?_
    exact (p.got_fresh p' ordered (got_observed _ _ rfl)).2
  | finish => exact held.moved (by simp [observed, Event.result?]) (fun _ => going) rfl rfl
  | broke => exact .of_stopped rfl

theorem Step.withheld (step : Step around s s') (a : Afoot s) (p : Placed s) (p' : Placed s')
    (held : Withheld s) : Withheld s' := by
  cases step with
  | works works => exact works.withheld a p held
  | meets meets => exact meets.withheld a p p' held
  | stir => exact held.moved rfl id rfl rfl
  | refill => exact held.moved rfl id rfl rfl
  | poll _ =>
    unfold Dispatcher.poll
    split
    · rename_i idle
      exact held.moved rfl (fun _ => by simp [idle]) rfl rfl
    · exact held.moved rfl id rfl rfl
  | drop _ =>
    unfold Dispatcher.drop
    split
    · exact .of_stopped rfl
    · exact held.moved rfl id rfl rfl

theorem Reaches.withheld (reached : Reaches around concurrency keepOrder s) : Withheld s := by
  induction reached with
  | start => exact fun _ _ _ failed => absurd failed List.not_mem_nil
  | step reached step ih =>
    exact step.withheld reached.afoot reached.placed (reached.step step).placed ih

/-! ### A source that has failed -/

theorem got_exhausted (s : Course τ β) (d : Dispatcher τ β) (index : Nat)
    (r : Except Failure (Option β)) (event : Event β) :
    (s.got d index r event).dispatcher.exhausted = d.exhausted := by
  cases ordered : d.keepOrder with
  | true =>
    rw [got_ordered ordered]
    rfl
  | false =>
    rw [got_unordered ordered]
    cases (Dispatcher.deliver d.feed r).2 <;> rfl

/-- A source that has failed is not asked again. -/
def Spent (s : Course τ β) : Prop :=
  ∀ i e, Event.failed i e ∈ s.events → s.dispatcher.exhausted = true

namespace Spent

theorem moved (spent : Spent s) (events : s'.events = s.events)
    (exhausted : s'.dispatcher.exhausted = s.dispatcher.exhausted) : Spent s' := by
  intro i e failed
  rw [exhausted]
  exact spent i e (events ▸ failed)

/-- An event that is not a failure of the source changes nothing about it. -/
theorem happened (spent : Spent s) (event : Event β) (events : s'.events = s.events ++ [event])
    (other : ∀ i e, event ≠ .failed i e)
    (exhausted : s.dispatcher.exhausted = true → s'.dispatcher.exhausted = true) : Spent s' := by
  intro i e failed
  rw [events] at failed
  rcases List.mem_append.mp failed with old | new
  · exact exhausted (spent i e old)
  · exact absurd (List.mem_singleton.mp new).symm (other i e)

end Spent

theorem Works.spent (works : Works s s') (spent : Spent s) : Spent s' := by
  cases works with
  | notice => exact spent.happened .read rfl (by simp) id
  | _ => exact spent.moved rfl rfl

theorem Meets.spent (meets : Meets around s s') (spent : Spent s) : Spent s' := by
  cases meets with
  | join =>
    refine spent.happened (.joined _ _) (got_events _ _ _ _ _) (by simp) fun isOver => ?_
    rw [got_exhausted]
    exact isOver
  | start => exact spent.happened (.started _) rfl (by simp) id
  | panic =>
    refine spent.happened (.panicked _ _) (got_events _ _ _ _ _) (by simp) fun isOver => ?_
    rw [got_exhausted]
    exact isOver
  | fail =>
    intro i e _
    rw [got_exhausted]
  | finish => exact spent.happened .ended rfl (by simp) fun _ => rfl
  | broke => exact spent.moved rfl rfl

theorem Step.spent (step : Step around s s') (spent : Spent s) : Spent s' := by
  cases step with
  | works works => exact works.spent spent
  | meets meets => exact meets.spent spent
  | stir => exact spent.moved rfl rfl
  | refill => exact spent.moved rfl rfl
  | poll _ =>
    unfold Dispatcher.poll
    split <;> exact spent.moved rfl rfl
  | drop _ =>
    unfold Dispatcher.drop
    split <;> exact spent.moved rfl rfl

theorem Reaches.spent (reached : Reaches around concurrency keepOrder s) : Spent s := by
  induction reached with
  | start => exact fun _ _ failed => absurd failed List.not_mem_nil
  | step _ step ih => exact step.spent ih

/-! ### Asking behind a failure -/

/-- What the source has answered, the dispatcher has asked for. -/
theorem Step.asks (step : Step around s s') {event : Event β}
    (events : s'.events = s.events ++ [event]) (pulls : event.pulls = true) : s.Asks := by
  have other : ∀ {event'}, s'.events = s.events ++ [event'] → event' = event := by
    intro event' same
    simpa using same.symm.trans events
  have some : s'.events ≠ s.events := by
    intro same
    simp [events] at same
  cases step with
  | works works =>
    cases works with
    | notice =>
      cases other rfl
      cases pulls
    | _ => exact absurd rfl some
  | meets meets =>
    cases meets with
    | join =>
      cases other (got_events _ _ _ _ _)
      cases pulls
    | start resting phase _ => exact ⟨resting, _, phase⟩
    | panic resting phase _ _ => exact ⟨resting, _, phase⟩
    | fail resting phase _ => exact ⟨resting, _, phase⟩
    | finish resting phase _ => exact ⟨resting, _, phase⟩
    | broke => exact absurd rfl some
  | stir => exact absurd rfl some
  | refill => exact absurd rfl some
  | poll => exact absurd rfl some
  | drop => exact absurd rfl some

/-- A dispatcher that asks its source behind a failure keeps order, its source has not failed,
and the failure is parked behind a worker. -/
theorem Reaches.asks_withheld (positive : 0 < concurrency)
    (reached : Reaches around concurrency keepOrder s) (failed : (i, .error e) ∈ s.observed)
    (asks : s.Asks) :
    keepOrder = true ∧ (∀ j e', .failed j e' ∉ s.events) ∧ s.dispatcher.feed.closed = false ∧
      (i, .error e) ∈ s.dispatcher.reorder.parked ∧
      s.dispatcher.reorder.next ∈ s.dispatcher.workers.map Prod.fst ∧
      s.dispatcher.reorder.next < i ∧ s.dispatcher.dispatched + 1 < i + concurrency := by
  obtain ⟨resting, read, phase⟩ := asks
  have going : s.dispatcher.phase ≠ .stopped := by simp [phase]
  have placed := reached.placed
  obtain ⟨ordered, parked⟩ := reached.withheld going failed
  obtain ⟨running, later⟩ := placed.next_running ordered going (by simp [resting])
    (List.ne_nil_of_mem parked)
  have behind := later i (List.mem_map_of_mem parked)
  have ahead := (reached.paced positive).leave_ahead placed ordered resting phase
  refine ⟨reached.constant.2 ▸ ordered, ?_, reached.afoot.isOpen going, parked, running, behind,
    by omega⟩
  intro j e' sourceFailed
  cases (placed.leave resting phase).symm.trans (reached.spent j e' sourceFailed)

/-! ### Later -/

theorem Step.observed_subset (step : Step around s s') : s.observed ⊆ s'.observed := by
  have more : ∀ {t : Course τ β} {event}, t.events = s.events ++ [event] →
      s.observed ⊆ t.observed := by
    intro t event events
    rw [observed, observed, events, List.filterMap_append]
    exact List.subset_append_left _ _
  cases step with
  | works works => exact (works.observed_eq).symm ▸ List.Subset.refl _
  | meets meets =>
    cases meets with
    | join => exact more (got_events _ _ _ _ _)
    | start => exact more rfl
    | panic => exact more (got_events _ _ _ _ _)
    | fail => exact more (got_events _ _ _ _ _)
    | finish => exact more rfl
    | broke => exact List.Subset.refl _
  | _ => exact List.Subset.refl _

/-- An element is taken by a dispatcher that asks for it, and one at a time. -/
theorem Step.dispatched_le (step : Step around s s') :
    s'.dispatcher.dispatched ≤ s.dispatcher.dispatched ∨
      s.Asks ∧ s'.dispatcher.dispatched = s.dispatcher.dispatched + 1 := by
  cases step with
  | works works => exact .inl (Nat.le_of_eq works.next_le.2)
  | meets meets =>
    cases meets with
    | join => exact .inl (Nat.le_of_eq (got_next _ _ _ _ _).2)
    | start resting phase _ => exact .inr ⟨⟨resting, _, phase⟩, rfl⟩
    | panic resting phase _ _ => exact .inr ⟨⟨resting, _, phase⟩, (got_next _ _ _ _ _).2⟩
    | fail => exact .inl (Nat.le_of_eq (got_next _ _ _ _ _).2)
    | finish => exact .inl (Nat.le_refl _)
    | broke => exact .inl (Nat.le_refl _)
  | poll _ =>
    unfold Dispatcher.poll
    split <;> exact .inl (Nat.le_refl _)
  | drop _ =>
    unfold Dispatcher.drop
    split <;> exact .inl (Nat.le_refl _)
  | _ => exact .inl (Nat.le_refl _)

namespace Leads

theorem reaches (leads : Leads around s t) (reached : Reaches around concurrency keepOrder s) :
    Reaches around concurrency keepOrder t := by
  induction leads with
  | refl => exact reached
  | step _ step ih => exact ih.step step

theorem observed_subset (leads : Leads around s t) : s.observed ⊆ t.observed := by
  induction leads with
  | refl => exact List.Subset.refl _
  | step _ step ih => exact List.Subset.trans ih step.observed_subset

/-- Behind a failure elements are taken up to its position and the room that is left by it and
the worker that it waits for. -/
theorem dispatched_le (leads : Leads around s t) (positive : 0 < concurrency)
    (reached : Reaches around concurrency keepOrder s) (failed : (i, .error e) ∈ s.observed) :
    t.dispatcher.dispatched ≤ max s.dispatcher.dispatched (i + concurrency - 1) := by
  induction leads with
  | refl => exact Nat.le_max_left _ _
  | @step t t' leads step ih =>
    rcases step.dispatched_le with same | ⟨asks, one⟩
    · exact Nat.le_trans same ih
    · have room := ((leads.reaches reached).asks_withheld positive
        (leads.observed_subset failed) asks).2.2.2.2.2.2
      omega

end Leads
end Course
end PullStream.Dispatcher
