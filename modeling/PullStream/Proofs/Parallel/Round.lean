import PullStream.Parallel
import PullStream.Proofs.Feed.Backlog
import PullStream.Proofs.Machine.Reach
import PullStream.Proofs.Parallel.Reorder

/-!
What the rounds of a dispatcher leave alone.

A dispatcher only produces into its feed, and never goes back to where nothing has
been asked of it. A parallel stage moves by one call of its dispatcher, or by one of
its workers: whatever both keep, its background work keeps.
-/

namespace PullStream

namespace Dispatcher

variable {τ β : Type}

/-- What a round of a started dispatcher leaves alone. -/
structure Goes (d d' : Dispatcher τ β) : Prop where
  started : d'.phase ≠ .idle
  feed : Feed.Produced d.feed d'.feed
  concurrency : d'.concurrency = d.concurrency
  keepOrder : d'.keepOrder = d.keepOrder

theorem deliver_produced (f : Feed β) (r : Except Failure (Option β)) :
    Feed.Produced f (deliver f r).1 := by
  unfold deliver
  split
  · split
    · rename_i h
      exact (Feed.feed_ok h).2.2.2
    · exact .refl f
  · exact .refl f
  · split
    · rename_i h
      exact (Feed.throw_ok h).2.2.2
    · exact .refl f

theorem release_none {b : Reorder (Except Failure (Option β))} (f : Feed β)
    (h : b.popReady = none) : release b f = (b, f, true) := by
  rw [release]
  split
  · rfl
  · rename_i r b' ready
    rw [h] at ready
    cases ready

theorem release_some {b b' : Reorder (Except Failure (Option β))} (f : Feed β)
    {r : Except Failure (Option β)} (h : b.popReady = some (r, b')) :
    release b f =
      if (deliver f r).2 then release b' (deliver f r).1 else (b', (deliver f r).1, false) := by
  rw [release]
  split
  · rename_i none
    rw [h] at none
    cases none
  · rename_i r' b'' ready
    rw [h] at ready
    cases ready
    split
    · rename_i f' same
      rw [same]
      rfl
    · rename_i f' same
      rw [same]
      rfl

/-- Releasing is by what is ready: nothing, or one result and then the rest. -/
theorem release_induct {motive : Reorder (Except Failure (Option β)) → Feed β → Prop}
    (none : ∀ b f, b.popReady = none → motive b f)
    (some : ∀ b f r b', b.popReady = some (r, b') →
      ((deliver f r).2 = true → motive b' (deliver f r).1) → motive b f)
    (b : Reorder (Except Failure (Option β))) (f : Feed β) : motive b f := by
  induction b using Reorder.popReady_induct generalizing f with
  | none b h => exact none b f h
  | some b r b' h ih => exact some b f r b' h fun _ => ih _

theorem release_produced (b : Reorder (Except Failure (Option β))) (f : Feed β) :
    Feed.Produced f (release b f).2.1 := by
  induction b, f using release_induct with
  | none b f h =>
    rw [release_none f h]
    exact .refl f
  | some b f r b' h ih =>
    rw [release_some f h]
    split
    · rename_i goOn
      exact (deliver_produced f r).trans (ih goOn)
    · exact deliver_produced f r

/-! ### What goes on -/

theorem next_goes (d : Dispatcher τ β) (goOn : Bool) : Goes d (d.next goOn) := by
  unfold next
  split
  · exact ⟨by simp, .refl _, rfl, rfl⟩
  · exact ⟨by simp [stop], .refl _, rfl, rfl⟩

theorem complete_goes (d : Dispatcher τ β) (index : Nat) (r : Except Failure (Option β)) :
    Goes d (d.complete index r) := by
  unfold complete
  split
  · obtain ⟨started, feed, concurrency, keepOrder⟩ := next_goes
      { d with
        reorder := (release (d.reorder.insert index r) d.feed).1
        feed := (release (d.reorder.insert index r) d.feed).2.1 }
      (release (d.reorder.insert index r) d.feed).2.2
    exact ⟨started, (release_produced _ _).trans feed, concurrency, keepOrder⟩
  · obtain ⟨started, feed, concurrency, keepOrder⟩ := next_goes
      { d with feed := (deliver d.feed r).1 } (deliver d.feed r).2
    exact ⟨started, (deliver_produced _ _).trans feed, concurrency, keepOrder⟩

theorem survey_goes (d : Dispatcher τ β) : Goes d d.survey := by
  unfold survey
  split
  · exact ⟨by simp [stop], .refl _, rfl, rfl⟩
  · split
    · exact ⟨by simp [stop], Feed.close_produced _, rfl, rfl⟩
    · exact ⟨by simp, .refl _, rfl, rfl⟩

theorem joined_goes (d : Dispatcher τ β) (index : Nat) (outcome : Outcome β) :
    Goes d (d.joined index outcome) := by
  obtain ⟨started, feed, concurrency, keepOrder⟩ := complete_goes
    { d with workers := d.workers.filter (·.1 != index) } index (outcome.result index)
  exact ⟨started, feed, concurrency, keepOrder⟩

theorem pulled_goes (d : Dispatcher τ β) (launch : Launch τ) : Goes d (d.pulled launch) := by
  cases launch with
  | started worker => exact ⟨by simp [pulled, next], .refl _, rfl, rfl⟩
  | panicked payload =>
    obtain ⟨started, feed, concurrency, keepOrder⟩ := complete_goes
      { d with dispatched := d.dispatched + 1 } d.dispatched
      ((Outcome.panicked payload).result d.dispatched)
    exact ⟨started, feed, concurrency, keepOrder⟩

theorem pulledFailure_goes (d : Dispatcher τ β) (e : Failure) : Goes d (d.pulledFailure e) := by
  obtain ⟨started, feed, concurrency, keepOrder⟩ := complete_goes
    { d with exhausted := true } d.dispatched (.error e)
  exact ⟨started, feed, concurrency, keepOrder⟩

theorem pulledEnd_goes (d : Dispatcher τ β) : Goes d d.pulledEnd := by
  obtain ⟨started, feed, concurrency, keepOrder⟩ := next_goes { d with exhausted := true } true
  exact ⟨started, feed, concurrency, keepOrder⟩

theorem noticedRead_goes (d : Dispatcher τ β) : Goes d d.noticedRead :=
  next_goes d true

/-- A dispatcher that its consumer has left has started, or never starts. -/
theorem drop_started (d : Dispatcher τ β) : d.drop.phase ≠ .idle := by
  unfold drop
  split
  · simp [stop]
  · rename_i started
    exact started

/-! ### What stays -/

/-- What the end of a round leaves alone: it takes no element, and only a dispatcher that
stops parts with workers. -/
structure Stays (d d' : Dispatcher τ β) : Prop where
  workers : d'.workers ⊆ d.workers
  held : d'.phase ≠ .stopped → d'.workers = d.workers
  dispatched : d'.dispatched = d.dispatched
  exhausted : d'.exhausted = d.exhausted

theorem stop_stays (d : Dispatcher τ β) : Stays d d.stop where
  workers := List.nil_subset _
  held running := absurd rfl running
  dispatched := rfl
  exhausted := rfl

theorem next_stays (d : Dispatcher τ β) (goOn : Bool) : Stays d (d.next goOn) := by
  unfold next
  split
  · exact ⟨List.Subset.refl _, fun _ => rfl, rfl, rfl⟩
  · exact stop_stays d

theorem complete_stays (d : Dispatcher τ β) (index : Nat) (r : Except Failure (Option β)) :
    Stays d (d.complete index r) := by
  unfold complete
  split
  · obtain ⟨workers, held, dispatched, exhausted⟩ := next_stays
      { d with
        reorder := (release (d.reorder.insert index r) d.feed).1
        feed := (release (d.reorder.insert index r) d.feed).2.1 }
      (release (d.reorder.insert index r) d.feed).2.2
    exact ⟨workers, held, dispatched, exhausted⟩
  · obtain ⟨workers, held, dispatched, exhausted⟩ := next_stays
      { d with feed := (deliver d.feed r).1 } (deliver d.feed r).2
    exact ⟨workers, held, dispatched, exhausted⟩

theorem survey_stays (d : Dispatcher τ β) : Stays d d.survey := by
  unfold survey
  split
  · exact stop_stays d
  · split
    · obtain ⟨workers, held, dispatched, exhausted⟩ := stop_stays d
      exact ⟨workers, held, dispatched, exhausted⟩
    · exact ⟨List.Subset.refl _, fun _ => rfl, rfl, rfl⟩

theorem poll_stays (d : Dispatcher τ β) : Stays d d.poll.2 := by
  unfold poll
  split
  · exact ⟨List.Subset.refl _, fun _ => rfl, rfl, rfl⟩
  · exact ⟨List.Subset.refl _, fun _ => rfl, rfl, rfl⟩

theorem poll_abandoned (d : Dispatcher τ β) : d.poll.2.feed.abandoned = d.feed.abandoned := by
  unfold poll
  split
  · rfl
  · exact d.feed.poll_untouched.abandoned

/-- The consumer does not start a dispatcher that has stopped. -/
theorem poll_stopped {d : Dispatcher τ β} (stopped : d.phase = .stopped) :
    d.poll.2.phase = .stopped := by
  rw [poll, if_neg (by simp [stopped])]
  exact stopped

theorem drop_stays (d : Dispatcher τ β) : Stays d d.drop := by
  unfold drop
  split
  · obtain ⟨workers, held, dispatched, exhausted⟩ := stop_stays d
    exact ⟨workers, held, dispatched, exhausted⟩
  · exact ⟨List.Subset.refl _, fun _ => rfl, rfl, rfl⟩

/-- Taking an element counts it, and adds its worker if that has been started. -/
theorem pulled_dispatched (d : Dispatcher τ β) (launch : Launch τ) :
    (d.pulled launch).dispatched = d.dispatched + 1 := by
  cases launch with
  | started worker => rfl
  | panicked payload => exact (complete_stays _ _ _).dispatched

theorem mem_workers_pulled {d : Dispatcher τ β} {launch : Launch τ} {i : Nat} {worker : τ}
    (member : (i, worker) ∈ (d.pulled launch).workers) :
    (i, worker) ∈ d.workers ∨ i = d.dispatched ∧ launch = .started worker := by
  cases launch with
  | started started =>
    rcases List.mem_append.mp member with old | new
    · exact .inl old
    · cases List.mem_singleton.mp new
      exact .inr ⟨rfl, rfl⟩
  | panicked payload =>
    have stays := complete_stays { d with dispatched := d.dispatched + 1 } d.dispatched
      ((Outcome.panicked payload).result d.dispatched)
    exact .inl (stays.workers member)

end Dispatcher
end PullStream
