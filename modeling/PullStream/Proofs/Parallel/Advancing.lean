import PullStream.Proofs.Parallel.Round

/-!
How a parallel stage moves.

A step of a parallel stage is a step of its dispatcher (`Dispatched`, one case for
each way a round can go), a worker that finishes, or both. What these keep, a step
keeps, whoever's turn it is (`advance_preserves`).
-/

namespace PullStream.Parallel

variable {ω α β : Type} {source : Machine ω α} {work : Worker ω α β}

/-- A step of the dispatcher over its source, by how the round goes. -/
inductive Dispatched (source : Machine ω α) (work : Worker ω α β)
    (s : State ω source.State β) (now : Time) (w : ω) : State ω source.State β → Prop where
  | idle : Dispatched source work s now w s
  | surveyed : s.dispatcher.phase = .surveying →
      Dispatched source work s now w
        (settle source s.source s.outcomes s.dispatcher s.dispatcher.survey)
  | joined {mayPull read index outcome rest} :
      s.dispatcher.phase = .selecting mayPull read → s.outcomes = (index, outcome) :: rest →
      Dispatched source work s now w
        (settle source s.source rest s.dispatcher (s.dispatcher.joined index outcome))
  | pulled {read a r w'} : s.dispatcher.phase = .selecting true read → s.outcomes = [] →
      source.poll s.source now w = (.item a, r, w') →
      Dispatched source work s now w
        (settle source r [] s.dispatcher
          (s.dispatcher.pulled (launched now (work a s.dispatcher.dispatched now w').1)))
  | failed {read e r w'} : s.dispatcher.phase = .selecting true read → s.outcomes = [] →
      source.poll s.source now w = (.fail e, r, w') →
      Dispatched source work s now w
        (settle source r [] s.dispatcher (s.dispatcher.pulledFailure e))
  | ended {read r w'} : s.dispatcher.phase = .selecting true read → s.outcomes = [] →
      source.poll s.source now w = (.done, r, w') →
      Dispatched source work s now w (settle source r [] s.dispatcher s.dispatcher.pulledEnd)
  | broke {read message r w'} : s.dispatcher.phase = .selecting true read → s.outcomes = [] →
      source.poll s.source now w = (.crash message, r, w') →
      Dispatched source work s now w
        (settle source r [] s.dispatcher { s.dispatcher with phase := .stopped, workers := [] })
  | asked {read g r w'} : s.dispatcher.phase = .selecting true read →
      source.poll s.source now w = (.signal g, r, w') → (∀ e, g ≠ .fail e) → g ≠ .done →
      Dispatched source work s now w { s with source := r }
  | noticed {mayPull read r} : s.dispatcher.phase = .selecting mayPull read →
      s.outcomes = [] → read.resolved s.dispatcher.feed = true →
      (r = s.source ∨ ∃ w', source.poll s.source now w = (.wait, r, w')) →
      Dispatched source work s now w (settle source r [] s.dispatcher s.dispatcher.noticedRead)

theorem dispatch_cases (source : Machine ω α) (work : Worker ω α β)
    (s : State ω source.State β) (now : Time) (w : ω) :
    Dispatched source work s now w (dispatch source work s now w).2.1 := by
  obtain ⟨below, dispatcher, outcomes, waited⟩ := s
  unfold dispatch
  dsimp only
  cases phase : dispatcher.phase with
  | idle => exact .idle
  | stopped => exact .idle
  | surveying => exact .surveyed phase
  | selecting mayPull read =>
    cases outcomes with
    | cons first rest => exact .joined phase rfl
    | nil =>
      dsimp only
      cases mayPull with
      | false =>
        simp only [Bool.false_eq_true, if_false]
        split
        · rename_i resolved
          exact .noticed phase rfl resolved (.inl rfl)
        · exact .idle
      | true =>
        simp only [if_true]
        rcases asked : source.poll below now w with ⟨a | g, r, w'⟩
        · exact .pulled phase rfl asked
        · cases g with
          | fail e => exact .failed phase rfl asked
          | done => exact .ended phase rfl asked
          | skip => exact .asked phase asked (by simp) (by simp)
          | pause => exact .asked phase asked (by simp) (by simp)
          | wait =>
            dsimp only
            split
            · rename_i resolved
              exact .noticed phase rfl resolved (.inr ⟨w', asked⟩)
            · exact .asked phase asked (by simp) (by simp)
          | crash message => exact .broke phase rfl asked

/-- A started dispatcher goes on, whatever its source answers. -/
theorem dispatch_goes (work : Worker ω α β) {s : State ω source.State β}
    (started : s.dispatcher.phase ≠ .idle) (now : Time) (w : ω) :
    Dispatcher.Goes s.dispatcher (dispatch source work s now w).2.1.dispatcher := by
  have step := dispatch_cases source work s now w
  generalize (dispatch source work s now w).2.1 = s' at step
  cases step with
  | idle => exact ⟨started, .refl _, rfl, rfl⟩
  | surveyed => exact Dispatcher.survey_goes _
  | joined => exact Dispatcher.joined_goes _ _ _
  | pulled => exact Dispatcher.pulled_goes _ _
  | failed => exact Dispatcher.pulledFailure_goes _ _
  | ended => exact Dispatcher.pulledEnd_goes _
  | broke => exact ⟨by simp [settle], .refl _, rfl, rfl⟩
  | asked => exact ⟨started, .refl _, rfl, rfl⟩
  | noticed => exact Dispatcher.noticedRead_goes _

/-- The workers, with one of them marked as finished. -/
def marked (index : Nat) (workers : List (Nat × Running ω β)) : List (Nat × Running ω β) :=
  workers.map fun x => if x.1 == index then (index, .finished) else x

/-- Marking a worker as finished keeps its element. -/
theorem map_fst_marked (index : Nat) (workers : List (Nat × Running ω β)) :
    (marked index workers).map Prod.fst = workers.map Prod.fst := by
  rw [marked, List.map_map]
  apply List.map_congr_left
  intro x _
  by_cases same : x.1 = index
  · simp [same]
  · simp [same]

/-- The others are left as they are. -/
theorem filter_marked (index : Nat) (workers : List (Nat × Running ω β)) :
    (marked index workers).filter (·.1 != index) = workers.filter (·.1 != index) := by
  induction workers with
  | nil => rfl
  | cons x rest ih =>
    rw [marked] at ih ⊢
    by_cases same : x.1 = index
    · simpa [same] using ih
    · simpa [same] using ih

/-- The worker that finishes was on the clock. -/
theorem finishOne_some {workers workers' : List (Nat × Running ω β)} {now : Time} {w w' : ω}
    {index : Nat} {outcome : Outcome β}
    (h : finishOne workers now w = some (index, outcome, workers', w')) :
    ∃ p, (index, .onClock p) ∈ workers ∧ outcome = (p.finish now w).1 ∧
      workers' = marked index workers := by
  unfold finishOne at h
  split at h
  · cases h
  · split at h
    · cases h
    · split at h
      · rename_i i p found
        cases h
        exact ⟨p, List.mem_of_find?_eq_some found, rfl, rfl⟩
      · cases h

/-- The finish of a worker, by whether anybody will join it. -/
inductive Finished {σ : Type} (s : State ω σ β) (now : Time) (w : ω) : State ω σ β → Prop where
  | nobody : Finished s now w s
  | joinable {index p} : (index, .onClock p) ∈ s.dispatcher.workers →
      Finished s now w { s with
        dispatcher := { s.dispatcher with workers := marked index s.dispatcher.workers }
        outcomes := s.outcomes ++ [(index, (p.finish now w).1)] }
  | detached {left} : List.Sublist left s.dispatcher.detached →
      Finished s now w { s with dispatcher := { s.dispatcher with detached := left } }

theorem finishWorker_cases {σ : Type} (s : State ω σ β) (now : Time) (w : ω) :
    Finished s now w (finishWorker s now w).2.1 := by
  unfold finishWorker
  dsimp only
  split
  · rename_i index outcome workers w' h
    obtain ⟨p, member, rfl, rfl⟩ := finishOne_some h
    exact .joinable member
  · split
    · rename_i index outcome detached w' h
      obtain ⟨p, member, rfl, rfl⟩ := finishOne_some h
      rw [filter_marked]
      exact .detached List.filter_sublist
    · exact .nobody

/-- A step keeps what its dispatcher and its workers keep. -/
theorem advance_preserves (kept : State ω source.State β → Prop) {now : Time}
    (dispatched : ∀ s w, kept s → kept (dispatch source work s now w).2.1)
    (finished : ∀ s w, kept s → kept (finishWorker s now w).2.1)
    (turned : ∀ s b, kept s → kept { s with waited := b }) (s : State ω source.State β) (w : ω)
    (h : kept s) : kept (advance source work s now w).2.1 := by
  have afterwards_kept : ∀ s w, kept s → kept (afterwards s now w).2.1 := by
    intro s w h
    have next := finished s w h
    unfold afterwards
    split
    · rename_i s' w' same
      rw [same] at next
      exact turned _ true next
    · rename_i s' w' same
      rw [same] at next
      exact turned _ false next
  have next := dispatched s w h
  unfold advance
  split
  · exact afterwards_kept s w h
  · split
    · rename_i s' w' same
      rwa [same] at next
    · rename_i s' w' same
      rw [same] at next
      exact turned _ true next
    · rename_i s' w' same
      rw [same] at next
      exact afterwards_kept s' w' next

/-- A background step of a parallel stage keeps what its source, its dispatcher and its
workers keep. -/
theorem tick_preserves {concurrency : Nat} {keepOrder : Bool}
    (kept : State ω source.State β → Prop) {now : Time}
    (below : ∀ s w, kept s → kept { s with source := (source.tick s.source now w).2.1 })
    (dispatched : ∀ s w, kept s → kept (dispatch source work s now w).2.1)
    (finished : ∀ s w, kept s → kept (finishWorker s now w).2.1)
    (turned : ∀ s b, kept s → kept { s with waited := b })
    (s : (source.parallel concurrency keepOrder work).State) (w : ω) (h : kept s.1) :
    kept ((source.parallel concurrency keepOrder work).tick s now w).2.1.1 :=
  Turn.step_preserves kept below (advance_preserves kept dispatched finished turned) s.2 s.1 w h

end PullStream.Parallel
