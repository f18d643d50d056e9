import PullStream.Proofs.Parallel.Leaving
import PullStream.Proofs.Parallel.Rounds

/-!
A dispatcher goes on, and comes to an end.

Every step that a dispatcher takes by itself, and everything it meets with, brings it nearer to
its end, and nobody else takes it back (`burden`). Until it has left its loop there is such a
step, or there is an item for its consumer, so that it is the consumer's turn.

* `Course.Works.burden_lt`, `Course.Meets.burden_lt`, `Course.Step.burden_le` — the measure.
* `Course.Reaches.progress` — it goes on, or its consumer can.
-/

namespace PullStream.Dispatcher.Course

variable {τ α β : Type} {around : Surroundings β} {s s' : Course τ β} {concurrency total : Nat}
  {keepOrder : Bool}

/-! ### The measure -/

/-- How far a dispatcher is within its round. -/
def Stage.rank : Stage → Phase → Nat
  | .registered _, _ => 3
  | .attended _, _ => 2
  | .releasing, _ => 1
  | .resting, .selecting _ _ => 1
  | .resting, .idle => 1
  | .resting, _ => 0

/-- What a dispatcher over `total` elements has left to do. An element that is taken, a worker
that is joined and a result that is released are a step each with the round behind it; every
step but the first of a round is nearer to the round's end. -/
def burden (total : Nat) (s : Course τ β) : Nat :=
  4 * (3 * total + 3 - s.rounds) + 5 * (total - s.dispatcher.dispatched) +
    5 * (!s.dispatcher.exhausted).toNat + 3 * s.dispatcher.workers.length +
    2 * s.dispatcher.parked + Stage.rank s.stage s.dispatcher.phase

theorem Works.burden_lt (works : Works s s') (a : Afoot s) (t' : Tally total s') :
    burden total s' < burden total s := by
  have poised := a.poised
  have bound := t'.rounds_le
  cases works with
  | register resting phase =>
    simp only [burden, resting, phase, Stage.rank] at bound ⊢
    omega
  | leave stage _ =>
    simp only [burden, stage, Stage.rank, Dispatcher.stop, parked, List.length_nil]
    omega
  | stay stage _ =>
    simp only [burden, stage, Stage.rank]
    omega
  | close stage _ _ =>
    simp only [burden, stage, Stage.rank, Dispatcher.stop, parked, List.length_nil]
    omega
  | select stage _ =>
    simp only [burden, stage, Stage.rank, parked]
    omega
  | notice resting phase _ =>
    simp only [burden, resting, phase, Stage.rank, noticedRead, next, if_true, parked]
    omega
  | deliver stage ready _ =>
    have smaller := Reorder.size_lt_of_popReady ready
    simp only [burden, stage, Stage.rank, delivered, parked]
    omega
  | stop stage ready _ =>
    have smaller := Reorder.size_lt_of_popReady ready
    simp only [burden, stage, Stage.rank, Dispatcher.stop, delivered, parked, List.length_nil]
    omega
  | settle stage _ =>
    simp only [burden, stage, Stage.rank, next, if_true, parked]
    omega

/-- A result that has been got ends the round, or has its release before it. -/
theorem got_burden_le (s : Course τ β) (resting : s.stage = .resting) (d : Dispatcher τ β)
    (index : Nat) (r : Except Failure (Option β)) (event : Event β) :
    burden total (s.got d index r event) ≤
      4 * (3 * total + 3 - s.rounds) + 5 * (total - d.dispatched) + 5 * (!d.exhausted).toNat +
        3 * d.workers.length + 2 * d.parked + 3 := by
  cases ordered : d.keepOrder with
  | true =>
    have size := insert_size_le d.reorder index r
    rw [got_ordered ordered]
    simp only [burden, Stage.rank, park, parked]
    omega
  | false =>
    rw [got_unordered ordered]
    cases (Dispatcher.deliver d.feed r).2 with
    | true =>
      simp only [burden, resting, Stage.rank, next, if_true, delivered, parked]
      omega
    | false =>
      simp only [burden, resting, Stage.rank, next, Bool.false_eq_true, if_false,
        Dispatcher.stop, delivered, parked, List.length_nil]
      omega

theorem Meets.burden_lt (meets : Meets around s s') (bounded : ∀ n, around.element n → n < total)
    (p : Placed s) : burden total s' < burden total s := by
  cases meets with
  | @join mayPull read index outcome resting phase member _ =>
    have fewer := length_filter_ne_lt member
    refine Nat.lt_of_le_of_lt (got_burden_le s resting _ _ _ _) ?_
    simp only [burden, resting, phase, Stage.rank, parked]
    omega
  | start resting phase more =>
    have less := bounded _ more
    simp only [burden, resting, phase, Stage.rank, pulled, next, if_true, parked,
      List.length_append, List.length_singleton]
    omega
  | panic resting phase more _ =>
    have less := bounded _ more
    refine Nat.lt_of_le_of_lt (got_burden_le s resting _ _ _ _) ?_
    simp only [burden, resting, phase, Stage.rank, parked]
    omega
  | fail resting phase _ =>
    have leave := p.leave resting phase
    refine Nat.lt_of_le_of_lt (got_burden_le s resting _ _ _ _) ?_
    simp only [burden, resting, phase, Stage.rank, parked, leave, Bool.not_true, Bool.not_false,
      Bool.toNat_true, Bool.toNat_false]
    omega
  | finish resting phase _ =>
    have leave := p.leave resting phase
    simp only [burden, resting, phase, Stage.rank, pulledEnd, next, if_true, parked, leave,
      Bool.not_true, Bool.not_false, Bool.toNat_true, Bool.toNat_false]
    omega
  | broke resting phase _ =>
    simp only [burden, resting, phase, Stage.rank, parked, List.length_nil]
    omega

/-- Nobody else takes a dispatcher back. -/
theorem Step.burden_le (step : Step around s s') (bounded : ∀ n, around.element n → n < total)
    (a : Afoot s) (p : Placed s) (t : Tally total s) : burden total s' ≤ burden total s := by
  have poised := a.poised
  cases step with
  | works works => exact Nat.le_of_lt (works.burden_lt a (works.tally a t))
  | meets meets => exact Nat.le_of_lt (meets.burden_lt bounded p)
  | @stir workers detached same _ =>
    have length : workers.length = s.dispatcher.workers.length := by
      simpa using congrArg List.length same
    simp only [burden, length, parked]
    omega
  | refill => exact Nat.le_refl _
  | poll =>
    unfold Dispatcher.poll
    split
    · rename_i idle
      rw [idle] at poised
      simp only [burden, poised.resting_of_idle, idle, Stage.rank, parked]
      omega
    · exact Nat.le_refl _
  | drop =>
    unfold Dispatcher.drop
    split
    · rename_i idle
      rw [idle] at poised
      simp only [burden, poised.resting_of_idle, idle, Stage.rank, Dispatcher.stop, parked,
        List.length_nil]
      omega
    · exact Nat.le_refl _

/-! ### Going on -/

/-- Every result is that of some outcome. -/
theorem exists_outcome (i : Nat) (r : Except Failure (Option β)) :
    ∃ outcome : Outcome β, outcome.result i = r := by
  rcases r with e | _ | b
  · exact ⟨.failed e, rfl⟩
  · exact ⟨.nothing, rfl⟩
  · exact ⟨.value b, rfl⟩

/-- A dispatcher within its loop goes on by itself, or meets with something: only while it
waits for a read it may be its consumer who is to go on, and finds an item. -/
theorem Reaches.progress [Nonempty τ] {result : α → Nat → Except Failure (Option β)}
    {xs : List α} {fault : Option Failure} {breaks : Prop} (positive : 0 < concurrency)
    (reached : Reaches (.of result xs fault breaks) concurrency keepOrder s)
    (started : s.dispatcher.phase ≠ .idle) (going : s.dispatcher.phase ≠ .stopped)
    (present : s.dispatcher.feed.abandoned = false) :
    (∃ s', Works s s' ∨ Meets (.of result xs fault breaks) s s') ∨
      ∃ b, s.dispatcher.poll.1 = .item b := by
  have afoot := reached.afoot
  have poised := afoot.poised
  have tally : Tally xs.length s := reached.tally fun _ more => more
  cases stage : s.stage with
  | registered read => exact .inl ⟨_, .inl (.stay stage present)⟩
  | attended read =>
    by_cases isOver : s.dispatcher.exhausted = true ∧ s.dispatcher.workers = []
    · exact .inl ⟨_, .inl (.close stage isOver.1 isOver.2)⟩
    · exact .inl ⟨_, .inl (.select stage isOver)⟩
  | releasing =>
    cases ready : s.dispatcher.reorder.popReady with
    | none => exact .inl ⟨_, .inl (.settle stage ready)⟩
    | some entry =>
      obtain ⟨r, b⟩ := entry
      cases goOn : (Dispatcher.deliver s.dispatcher.feed r).2 with
      | true => exact .inl ⟨_, .inl (.deliver stage ready goOn)⟩
      | false => exact .inl ⟨_, .inl (.stop stage ready goOn)⟩
  | resting =>
    cases phase : s.dispatcher.phase with
    | idle => exact absurd phase started
    | stopped => exact absurd phase going
    | surveying => exact .inl ⟨_, .inl (.register stage phase)⟩
    | selecting mayPull read =>
      cases woken : read.resolved s.dispatcher.feed with
      | true => exact .inl ⟨_, .inl (.notice stage phase woken)⟩
      | false =>
        rcases reached.waits positive stage phase woken with busy | rfl | full
        · -- Some worker may end, with the result of its element.
          obtain ⟨worker, rest, same⟩ := List.exists_cons_of_ne_nil busy
          have member : worker.1 ∈ s.dispatcher.workers.map Prod.fst := by
            rw [same]
            exact List.mem_cons_self
          have inside := Nat.lt_of_lt_of_le (reached.manned _ member) tally.within
          obtain ⟨outcome, comes⟩ := exists_outcome worker.1 (result xs[worker.1] worker.1)
          have ends : (Surroundings.of result xs fault breaks).result worker.1
              (outcome.result worker.1) := ⟨_, List.getElem?_eq_getElem inside, comes.symm⟩
          exact .inl ⟨_, .inr (.join stage phase member ends)⟩
        · rcases Nat.lt_or_eq_of_le tally.within with more | all
          · obtain ⟨worker⟩ := ‹Nonempty τ›
            exact .inl ⟨_, .inr (@Meets.start _ _ _ s _ worker stage phase more)⟩
          · cases fault with
            | none => exact .inl ⟨_, .inr (.finish stage phase ⟨all, rfl⟩)⟩
            | some e => exact .inl ⟨_, .inr (.fail stage phase ⟨all, rfl⟩)⟩
        · obtain ⟨accepted, sound⟩ := afoot.books
          have some : 0 < s.dispatcher.feed.pending := Nat.lt_of_lt_of_le positive full
          obtain ⟨b, item⟩ := Feed.poll_item afoot.counted sound present (afoot.isOpen going) some
          rw [Dispatcher.poll, if_neg started]
          exact .inr ⟨b, item⟩

/-- The consumer waits only as long as the dispatcher has something to do. -/
theorem Reaches.busy_of_wait [Nonempty τ] {result : α → Nat → Except Failure (Option β)}
    {xs : List α} {fault : Option Failure} {breaks : Prop} (positive : 0 < concurrency)
    (sturdy : ¬ breaks)
    (reached : Reaches (.of result xs fault breaks) concurrency keepOrder s)
    (present : s.dispatcher.feed.abandoned = false) (waits : s.dispatcher.poll.1 = .wait) :
    ∃ s', Works s s' ∨ Meets (.of result xs fault breaks) s s' := by
  have started : s.dispatcher.phase ≠ .idle := by
    intro idle
    rw [Dispatcher.poll, if_pos idle] at waits
    cases waits
  by_cases stopped : s.dispatcher.phase = .stopped
  · rcases reached.shut sturdy stopped with closed | gone
    · -- A closed feed lets nobody wait.
      rw [Dispatcher.poll, if_neg started] at waits
      have spec := s.dispatcher.feed.poll_spec
      rw [waits] at spec
      cases spec with
      | waiting _ _ isOpen => cases isOpen.symm.trans closed
    · cases present.symm.trans gone
  · rcases reached.progress positive started stopped present with step | ⟨b, item⟩
    · exact step
    · cases waits.symm.trans item

end PullStream.Dispatcher.Course
