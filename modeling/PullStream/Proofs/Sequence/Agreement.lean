import PullStream.Proofs.Parallel.Clocked
import PullStream.Proofs.Parallel.Schedule
import PullStream.Proofs.Stage.Delivering
import PullStream.Sequence

/-!
Ordered parallel stages agree with sequential ones.

The results of the elements, in order and up to the first failure, are what both deliver:
the sequential stage because it answers one element after the other, the parallel one
whatever its workers take their time for.

* `RiskyStep.worker_yields` — a step function that runs as a worker.
* `parallel_delivers` — what the parallel stage delivers.
* `ordered_parallel_sequential` — the agreement, under every schedule and on every
  sequence.
-/

namespace PullStream.Sequence

open Dispatcher (Course)

variable {ω α β ρ : Type} {xs : List α} {fault : Option Failure} {s : Sequence ω α}
  {result : α → Nat → Except Failure (Option β)}

/-! ### Step functions as workers -/

/-- A step function that runs as a worker and comes, after some time, to a result that
depends on the element and its index only. -/
def RiskyStep.Gives (f : RiskyStep ω α ρ) (g : α → Nat → Except Failure ρ) : Prop :=
  ∀ a i now w, ∃ d, (f a i now w).1 = .started d ∧ ∀ now w, (d.finish now w).1 = .ok (g a i)

/-- Its worker yields what the outcome of the step function's result is. -/
theorem RiskyStep.worker_yields {f : RiskyStep ω α ρ} {g : α → Nat → Except Failure ρ}
    (gives : f.Gives g) {outcome : α → ρ → Outcome β}
    (done : ∀ a i r, g a i = .ok r → (outcome a r).result i = result a i)
    (failed : ∀ a i e, g a i = .error e → .error e = result a i) :
    (RiskyStep.worker f outcome).Yields result := by
  intro a i now w
  obtain ⟨d, started, finishes⟩ := gives a i now w
  obtain ⟨launch, w', asked⟩ : ∃ launch w', f a i now w = (launch, w') := ⟨_, _, rfl⟩
  rw [asked] at started
  have started : launch = .started d := started
  subst started
  rw [RiskyStep.worker, asked]
  intro now w
  have finished := finishes now w
  obtain ⟨r, w', same⟩ : ∃ r w', d.finish now w = (r, w') := ⟨_, _, rfl⟩
  rw [same] at finished
  have finished : r = .ok (g a i) := finished
  subst finished
  dsimp only
  rw [same]
  cases h : g a i with
  | ok r => exact done a i r h
  | error e => exact failed a i e h

/-! ### Deliveries -/

/-- An ordered parallel stage delivers the results in order, up to the first failure. -/
theorem parallel_delivers (delivers : s.machine.Delivers (sourceOf xs fault))
    {work : Worker ω α β} (yields : work.Yields result) {concurrency : Nat}
    (positive : 0 < concurrency) :
    ∃ p, s.parallel concurrency true work = .ok p ∧
      p.machine.Delivers (inOrder (resultsOf result xs fault)) := by
  have some : concurrency ≠ 0 := Nat.pos_iff_ne_zero.mp positive
  exact ⟨_, if_neg some, Parallel.guarded_delivers_inOrder
    (Parallel.parallel_delivers delivers yields concurrency)⟩

/-! ### The agreement -/

/-- An ordered dispatcher delivers, under every schedule and for every concurrency, the
results of its elements up to the first failure, and hands each element to a worker once at
most, with its position. Therefore the ordered parallel stages deliver what the sequential
ones do. -/
theorem ordered_parallel_sequential (xs : List α) (fault : Option Failure) {concurrency : Nat}
    (positive : 0 < concurrency) :
    (∀ (τ : Type) (fate : Fate α β) (s : Schedule τ α β), s.Reaches fate xs fault concurrency →
      let reference := inOrder (resultsOf fate.result xs fault)
      outputs s.answers <+: reference ∧
      (.done ∈ s.answers → outputs s.answers = reference) ∧
      -- a failure is delivered once, as the last of the reference
      (∀ before e after, s.answers = before ++ .fail e :: after →
        outputs before ++ [.error e] = reference ∧ outputs after = []) ∧
      (.done ∈ s.answers ∨ (∃ e, .fail e ∈ s.answers) → s.dispatcher.poll.1 = .done) ∧
      s.handed <+: xs.zipIdx) ∧
    ∀ s : Sequence ω α, s.machine.Delivers (sourceOf xs fault) →
      (∀ (work : Worker ω α β) result, work.Yields result →
        ∃ p, s.parallel concurrency true work = .ok p ∧
          p.machine.Delivers (inOrder (resultsOf result xs fault))) ∧
      (∀ (step : Step ω α β) (risky : RiskyStep ω α β) f, step.Gives f → risky.Gives f →
        ∃ p, s.parallelMap concurrency true risky = .ok p ∧
          p.machine.Delivers (inOrder (resultsOf (mapped f) xs fault)) ∧
          (s.map step).machine.Delivers (inOrder (resultsOf (mapped f) xs fault))) ∧
      (∀ (step : Step ω α Bool) (risky : RiskyStep ω α Bool) f, step.Gives f → risky.Gives f →
        ∃ p, s.parallelFilter concurrency true risky = .ok p ∧
          p.machine.Delivers (inOrder (resultsOf (chosen f) xs fault)) ∧
          (s.filter step).machine.Delivers (inOrder (resultsOf (chosen f) xs fault))) ∧
      (∀ (step : Step ω α Unit) (risky : RiskyStep ω α Unit) f, step.Gives f → risky.Gives f →
        ∃ p, s.parallelIntercept concurrency true risky = .ok p ∧
          p.machine.Delivers (inOrder (resultsOf (inspected f) xs fault)) ∧
          (s.intercept step).machine.Delivers (inOrder (resultsOf (inspected f) xs fault))) := by
  constructor
  · intro τ fate s reached reference
    have ordered := reached.course.ordered
    refine ⟨ordered.outputs_prefix, ordered.outputs_of_done, ?_, reached.course.afoot.poll_done,
      reached.valid.handed_prefix⟩
    intro before e after same
    exact ordered.outputs_of_failed same
  · intro s delivers
    refine ⟨?_, ?_, ?_, ?_⟩
    · intro work result yields
      exact parallel_delivers delivers yields positive
    · intro step risky f sequential parallel
      have yields : (RiskyStep.worker risky fun _ b => .value b).Yields (mapped f) := by
        apply RiskyStep.worker_yields parallel
        · intro a i b given
          rw [mapped, given]
          rfl
        · intro a i e given
          rw [mapped, given]
          rfl
      obtain ⟨p, built, same⟩ := parallel_delivers delivers yields positive
      exact ⟨p, built, same, (Transducer.map_elementwise sequential).guarded_delivers delivers⟩
    · intro step risky f sequential parallel
      have yields : (RiskyStep.worker risky decided).Yields (chosen f) := by
        apply RiskyStep.worker_yields parallel
        · intro a i yes given
          rw [chosen, given]
          cases yes <;> rfl
        · intro a i e given
          rw [chosen, given]
          rfl
      obtain ⟨p, built, same⟩ := parallel_delivers delivers yields positive
      exact ⟨p, built, same, (Transducer.filter_elementwise sequential).guarded_delivers delivers⟩
    · intro step risky f sequential parallel
      have yields : (RiskyStep.worker risky fun a _ => .value a).Yields (inspected f) := by
        apply RiskyStep.worker_yields parallel
        · intro a i u given
          rw [inspected, given]
          rfl
        · intro a i e given
          rw [inspected, given]
          rfl
      obtain ⟨p, built, same⟩ := parallel_delivers delivers yields positive
      exact ⟨p, built, same,
        (Transducer.intercept_elementwise sequential).guarded_delivers delivers⟩

/-- Two workers of which the second ends first, and a mapping that fails on the second of
three elements. -/
theorem ordered_parallel_sequential_swapped :
    let fate : Fate Nat Nat := fun a _ => .started (.value (10 * a))
    let f : Nat → Nat → Except Failure Nat := fun a i =>
      if a = 2 then .error .zeroRate else .ok (10 * a + i)
    let risky : RiskyStep Unit Nat Nat := fun a i _ w =>
      (.started { delay := 3 - a, finish := fun _ w => (.ok (f a i), w) }, w)
    let numbers : Sequence Unit Nat := ofList [1, 2, 3]
    0 < 2 ∧
    (∃ s : Schedule Unit Nat Nat, s.Reaches fate [1, 2] none 2 ∧
      s.answers = [.skip, .wait, .item 10, .item 20, .done] ∧
      outputs s.answers = inOrder (resultsOf fate.result [1, 2] none)) ∧
    ∃ p, numbers.parallelMap 2 true risky = .ok p ∧
      p.machine.Delivers [.ok 10, .error .zeroRate] ∧
      (numbers.map (Step.pure f)).machine.Delivers [.ok 10, .error .zeroRate] := by
  intro fate f risky numbers
  refine ⟨by decide, ?_, ?_⟩
  · have fresh : Schedule.Reaches (τ := Unit) fate [1, 2] none 2 _ := .start
    have first : Schedule.Reaches fate [1, 2] none 2
        { dispatcher :=
            { concurrency := 2, keepOrder := true, phase := .surveying
              workers := [(0, ())], dispatched := 1 }
          rounds := 1, events := [.started 0]
          rest := [2], handed := [(1, 0)], answers := [.skip] } :=
      ((((fresh.step (.goes (.poll rfl) rfl)).works (.register rfl rfl)).works
        (.stay rfl rfl)).works (.select rfl (by decide))).step
        (.hands (.meets (.start rfl rfl ⟨rfl, by simp⟩)) rfl rfl)
    have second : Schedule.Reaches fate [1, 2] none 2
        { dispatcher :=
            { concurrency := 2, keepOrder := true, phase := .surveying
              workers := [(0, ()), (1, ())], dispatched := 2 }
          rounds := 2, events := [.started 0, .started 1]
          rest := [], handed := [(1, 0), (2, 1)], answers := [.skip] } :=
      (((first.works (.register rfl rfl)).works (.stay rfl rfl)).works
        (.select rfl (by decide))).step (.hands (.meets (.start rfl rfl ⟨rfl, by simp⟩)) rfl rfl)
    have both : Schedule.Reaches fate [1, 2] none 2
        { dispatcher :=
            { concurrency := 2, keepOrder := true, phase := .selecting false ⟨.read, 0⟩
              workers := [(0, ()), (1, ())], dispatched := 2, feed := { parked := true } }
          rounds := 3, events := [.started 0, .started 1]
          rest := [], handed := [(1, 0), (2, 1)], answers := [.skip, .wait] } :=
      (((second.works (.register rfl rfl)).works (.stay rfl rfl)).works
        (.select rfl (by decide))).step (.goes (.poll rfl) rfl)
    -- The second worker ends first, and its result is parked.
    have parked : Schedule.Reaches fate [1, 2] none 2
        { dispatcher :=
            { concurrency := 2, keepOrder := true, phase := .selecting false ⟨.read, 0⟩
              workers := [(0, ())], dispatched := 2
              reorder := { parked := [(1, .ok (some 20))] }, feed := { parked := true } }
          rounds := 4, events := [.started 0, .started 1, .joined 1 (.value 20)]
          rest := [], handed := [(1, 0), (2, 1)], answers := [.skip, .wait] } :=
      ((((both.step (.goes (.meets (@Course.Meets.join _ _ _ _ false ⟨.read, 0⟩ 1 (.value 20)
        rfl rfl (by simp) ⟨2, .inl (by simp), rfl⟩)) rfl)).works (.settle rfl rfl)).works
        (.register rfl rfl)).works (.stay rfl rfl)).works (.select rfl (by decide))
    have released : Schedule.Reaches fate [1, 2] none 2
        { dispatcher :=
            { concurrency := 2, keepOrder := true, phase := .surveying
              dispatched := 2, reorder := { next := 2 }
              feed := { shared := [.item 10, .item 20], pending := 2 } }
          rounds := 4
          events := [.started 0, .started 1, .joined 1 (.value 20), .joined 0 (.value 10)]
          rest := [], handed := [(1, 0), (2, 1)], answers := [.skip, .wait] } :=
      (((parked.step (.goes (.meets (@Course.Meets.join _ _ _ _ false ⟨.read, 0⟩ 0 (.value 10) rfl
        rfl (by simp) ⟨1, .inl (by simp), rfl⟩)) rfl)).works (.deliver rfl rfl rfl)).works
        (.deliver rfl rfl rfl)).works (.settle rfl rfl)
    have handedOut : Schedule.Reaches fate [1, 2] none 2
        { dispatcher :=
            { concurrency := 2, keepOrder := true, phase := .selecting true ⟨.read, 2⟩
              dispatched := 2, reorder := { next := 2 }, feed := { reads := 2, empties := 1 } }
          rounds := 5
          events := [.started 0, .started 1, .joined 1 (.value 20), .joined 0 (.value 10)]
          rest := [], handed := [(1, 0), (2, 1)]
          answers := [.skip, .wait, .item 10, .item 20] } :=
      ((((released.step (.goes (.poll rfl) rfl)).step (.goes (.poll rfl) rfl)).works
        (.register rfl rfl)).works (.stay rfl rfl)).works (.select rfl (by decide))
    have isOver : Schedule.Reaches fate [1, 2] none 2
        { dispatcher :=
            { concurrency := 2, keepOrder := true, phase := .stopped, exhausted := true
              dispatched := 2, reorder := { next := 2 }
              feed := { reads := 2, empties := 1, closed := true, finished := true } }
          rounds := 6
          events :=
            [.started 0, .started 1, .joined 1 (.value 20), .joined 0 (.value 10), .ended]
          rest := [], handed := [(1, 0), (2, 1)]
          answers := [.skip, .wait, .item 10, .item 20, .done] } :=
      ((((handedOut.step (.goes (.meets (.finish rfl rfl ⟨rfl, rfl, rfl⟩)) rfl)).works
        (.register rfl rfl)).works (.stay rfl rfl)).works (.close rfl rfl rfl)).step
        (.goes (.poll rfl) rfl)
    refine ⟨_, isOver, rfl, ?_⟩
    have agreed := (ordered_parallel_sequential (ω := Unit) (β := Nat) [1, 2] none
      (show 0 < 2 by decide)).1
    exact (agreed Unit fate _ isOver).2.1 (by decide)
  · have agreed := (ordered_parallel_sequential (β := Nat) [1, 2, 3] none
      (show 0 < 2 by decide)).2 numbers (Machine.ofResults_delivers _)
    exact agreed.2.1 (Step.pure f) risky f (fun _ _ _ _ => rfl)
      fun _ _ _ _ => ⟨_, rfl, fun _ _ => rfl⟩

end PullStream.Sequence
