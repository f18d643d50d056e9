import PullStream.Fanout
import PullStream.Proofs.Feed.Backlog
import PullStream.Proofs.Machine.Reach

/-!
How a fan-out moves, and that each of its outputs ends for good.

A step of the pump is one of a few calls, by what its source answers (`Advanced`). Each
only produces into the feeds, and none goes back to where the pump has not started. An
output is a sequence of its own: while it is pulled, anything may happen to the others.
-/

namespace PullStream

namespace Fanout

variable {ω α : Type} {source : Machine ω α}

/-- A step of the pump, by what happens. -/
inductive Advanced (source : Machine ω α) (s : source.State × Fanout α) (now : Time) (w : ω) :
    source.State × Fanout α → Prop where
  | still : Advanced source s now w s
  | checked {k} : s.2.phase = .checking k →
      Advanced source s now w (settle source s.1 s.2 (s.2.check k))
  | noticed {k read} : s.2.phase = .waiting k read → (s.2.feeds[k]?).all read.resolved = true →
      Advanced source s now w (settle source s.1 s.2 (s.2.noticedRead k))
  | pulled {a r w'} : s.2.phase = .pulling → source.poll s.1 now w = (.item a, r, w') →
      Advanced source s now w (settle source r s.2 (s.2.pulled a))
  | failed {e r w'} : s.2.phase = .pulling → source.poll s.1 now w = (.fail e, r, w') →
      Advanced source s now w (settle source r s.2 (s.2.pulledFailure e))
  | ended {r w'} : s.2.phase = .pulling → source.poll s.1 now w = (.done, r, w') →
      Advanced source s now w (settle source r s.2 s.2.pulledEnd)
  | broke {message r w'} : s.2.phase = .pulling →
      source.poll s.1 now w = (.crash message, r, w') →
      Advanced source s now w (settle source r s.2 { s.2 with phase := .stopped })
  | asked {g r w'} : s.2.phase = .pulling → source.poll s.1 now w = (.signal g, r, w') →
      (∀ e, g ≠ .fail e) → g ≠ .done → Advanced source s now w (r, s.2)

theorem advance_cases (source : Machine ω α) (s : source.State × Fanout α) (now : Time)
    (w : ω) : Advanced source s now w (advance source s now w).2.1 := by
  obtain ⟨below, p⟩ := s
  unfold advance
  dsimp only
  cases phase : p.phase with
  | idle => exact .still
  | stopped => exact .still
  | checking k => exact .checked phase
  | waiting k read =>
    dsimp only
    split
    · rename_i resolved
      exact .noticed phase resolved
    · exact .still
  | pulling =>
    rcases asked : source.poll below now w with ⟨a | g, r, w'⟩
    · exact .pulled phase asked
    · cases g with
      | fail e => exact .failed phase asked
      | done => exact .ended phase asked
      | skip => exact .asked phase asked (by simp) (by simp)
      | pause => exact .asked phase asked (by simp) (by simp)
      | wait => exact .asked phase asked (by simp) (by simp)
      | crash message => exact .broke phase asked

/-! ### What the pump leaves alone -/

theorem offer_produced (a : α) (f : Feed α) : Feed.Produced f (offer a f) := by
  unfold offer
  split
  · exact .refl f
  · split
    · rename_i h
      exact (Feed.feed_ok h).2.2.2
    · exact .refl f

theorem throwInto_produced (e : Failure) (f : Feed α) : Feed.Produced f (throwInto e f) := by
  unfold throwInto
  split
  · rename_i h
    exact (Feed.throw_ok h).2.2.2
  · exact .refl f

/-- What the pump leaves alone when it has started. -/
structure Goes (p p' : Fanout α) : Prop where
  started : p'.phase ≠ .idle
  feeds : ∃ produce : Feed α → Feed α, (∀ f, Feed.Produced f (produce f)) ∧
    p'.feeds = p.feeds.map produce

theorem goes_of_feeds {p p' : Fanout α} (started : p'.phase ≠ .idle) (same : p'.feeds = p.feeds) :
    Goes p p' :=
  ⟨started, id, .refl, by simp [same]⟩

theorem check_goes (p : Fanout α) (k : Nat) : Goes p (p.check k) := by
  unfold check
  split
  · split <;> exact goes_of_feeds (by simp) rfl
  · refine goes_of_feeds ?_ rfl
    split <;> simp

theorem advance_goes (source : Machine ω α) {s : source.State × Fanout α}
    (started : s.2.phase ≠ .idle) (now : Time) (w : ω) :
    Goes s.2 (advance source s now w).2.1.2 := by
  have step := advance_cases source s now w
  generalize (advance source s now w).2.1 = s' at step
  cases step with
  | still => exact goes_of_feeds started rfl
  | checked => exact check_goes _ _
  | noticed => exact goes_of_feeds (by simp [settle, noticedRead]) rfl
  | pulled => exact ⟨by simp [settle, Fanout.pulled], _, offer_produced _, rfl⟩
  | failed => exact ⟨by simp [settle, pulledFailure], _, throwInto_produced _, rfl⟩
  | ended => exact ⟨by simp [settle, pulledEnd], _, Feed.close_produced, rfl⟩
  | broke => exact goes_of_feeds (by simp [settle]) rfl
  | asked => exact goes_of_feeds started rfl

end Fanout

/-! ### One output among others -/

/-- What the world brings to an output of a hub while it waits: a step of the work
behind, or something that happens at another output. -/
inductive Hub.Beside where
  | work
  | poll (output : Nat)
  | drop (output : Nat)

/-- An output of a hub as a machine. -/
def Hub.output {ω α : Type} (hub : Hub ω α) (k : Nat) : Machine (ω × Hub.Beside) α where
  State := hub.State
  start := hub.start
  poll s now w :=
    let (a, s, v) := hub.poll k s now w.1
    (a, s, v, w.2)
  tick s now w :=
    match w.2 with
    | .work =>
      let (moved, s, v) := hub.tick s now w.1
      (moved, s, v, w.2)
    | .poll j =>
      if j = k then (false, s, w)
      else
        let (_, s, v) := hub.poll j s now w.1
        (true, s, v, w.2)
    | .drop j => if j = k then (false, s, w) else (true, hub.drop j s, w)
  alarms s := hub.alarms s
  drop s := hub.drop k s

namespace Fanout

variable {ω α : Type} {k : Nat} {p : Fanout α}

/-- The output of number `k` has ended for its consumer, or is not there. -/
def Over (k : Nat) (p : Fanout α) : Prop :=
  p.feeds[k]? = none ∨ p.phase ≠ .idle ∧ ∃ f, p.feeds[k]? = some f ∧ f.finished = true

theorem Over.goes {p' : Fanout α} (isOver : Over k p) (goes : Goes p p') : Over k p' := by
  obtain ⟨started, produce, produced, feeds⟩ := goes
  rcases isOver with none | ⟨-, f, there, finished⟩
  · exact .inl (by simp [feeds, none])
  · exact .inr ⟨started, produce f, by simp [feeds, there], (produced f).finished.trans finished⟩

theorem Over.advance (source : Machine ω α) {s : source.State × Fanout α} (isOver : Over k s.2)
    (now : Time) (w : ω) : Over k (advance source s now w).2.1.2 := by
  by_cases started : s.2.phase = .idle
  · have still : (Fanout.advance source s now w).2.1 = s := by simp [Fanout.advance, started]
    rwa [still]
  · exact isOver.goes (advance_goes source started now w)

/-- What happens at another output is of no concern. -/
theorem Over.congr {p' : Fanout α} (isOver : Over k p) (same : p'.feeds[k]? = p.feeds[k]?)
    (started : p.phase ≠ .idle → p'.phase ≠ .idle) : Over k p' := by
  rcases isOver with none | ⟨going, f, there, finished⟩
  · exact .inl (same.trans none)
  · exact .inr ⟨started going, f, same.trans there, finished⟩

theorem Over.poll {j : Nat} (isOver : Over k p) (apart : j ≠ k) : Over k (p.poll j).2 := by
  unfold Fanout.poll
  split
  · exact isOver
  · split
    · rename_i fresh
      exact isOver.congr rfl (by simp)
    · exact isOver.congr (by simp [apart]) id

theorem Over.drop {j : Nat} (isOver : Over k p) (apart : j ≠ k) : Over k (p.drop j) := by
  unfold Fanout.drop
  dsimp only
  split
  · exact isOver.congr (by simp [apart]) (by simp)
  · exact isOver.congr (by simp [apart]) id

/-- The end of an output is told by a feed that is finished. -/
theorem over_of_poll_done (h : (p.poll k).1 = .done) : Over k (p.poll k).2 := by
  unfold Fanout.poll at h ⊢
  split
  · rename_i none
    exact .inl none
  · rename_i f there
    simp only [there] at h
    split
    · rename_i fresh
      simp [fresh] at h
    · rename_i started
      rw [if_neg started] at h
      have bound := (List.getElem?_eq_some_iff.mp there).1
      exact .inr ⟨started, _, by simp [bound], Feed.finished_of_poll_done h⟩

theorem Over.poll_done (isOver : Over k p) : (p.poll k).1 = .done := by
  rcases isOver with none | ⟨started, f, there, finished⟩
  · simp [Fanout.poll, none]
  · simp [Fanout.poll, there, started, Feed.poll_of_finished finished]

end Fanout

/-- Every output of a fan-out ends for good, whatever happens at the others. -/
theorem Machine.fanout_output_permanent {ω α : Type} (source : Machine ω α)
    (count buffer k : Nat) : ((source.fanout count buffer).output k).Permanent := by
  refine @permanent_of_over _ _ ((source.fanout count buffer).output k)
    (fun s => Fanout.Over k s.1.2) (fun s now w done => Fanout.over_of_poll_done done)
    (fun s now w isOver => isOver.poll_done) fun s now w isOver => ?_
  obtain ⟨v, beside⟩ := w
  cases beside with
  | work =>
    simp only [Hub.output, fanout]
    exact Turn.step_preserves (fun s : source.State × Fanout α => Fanout.Over k s.2)
      (fun s w h => h) (fun s w h => h.advance source now w) s.2 s.1 v isOver
  | poll j =>
    by_cases same : j = k
    · simpa [Hub.output, same] using isOver
    · simpa [Hub.output, fanout, same] using isOver.poll same
  | drop j =>
    by_cases same : j = k
    · simpa [Hub.output, same] using isOver
    · simpa [Hub.output, fanout, Fanout.settle, same] using isOver.drop same

end PullStream
