import Mathlib.Algebra.Order.BigOperators.Group.Finset
import PullStream.Proofs.Sequence.Waiting
import PullStream.Proofs.Stage.Retried

/-!
Retrying yields each element at most once, as the predicate has it.

The operation and the predicate may reply as they like, and the world may change in between as it
likes. Both forms of retrying, the one whose step functions reply at once and the one in which
they take a while, tell one story about each element after the other, and put out what these
stories come to. They get to the end if each element is retried finitely often only.

* `Retries` — what it means for a stage.
* `retry_follows_predicate` — both forms.
-/

namespace PullStream.Sequence

open Dialogue Transducer

variable {ω α β : Type}

/-- A stage that retries the elements of its source. `below` is the source in a state of the
stage. -/
structure Retries (failing : Bool) (view : ω → List (Dialogue.retry α β failing).Utterance)
    (source : Machine ω α) (stage : Machine ω β) (below : stage.State → source.State) : Prop where
  /-- What has been said and put out is told by the stories of the elements that have been taken,
  of which the source may be asked for more unless the end has been reported. -/
  told : ∀ {s log answers}, stage.Uses view [] s log answers →
    ∃ asked status xs fault stories begun, (∃ r, source.Reach r asked) ∧
      Recounted { source := outputs asked, log, outs := outputs answers, status }
        xs fault stories begun ∧
      (.done ∈ answers → (∃ e, .error e ∈ outputs answers) ∨ status = .idle ∧ .done ∈ asked)
  /-- With no more than `k i` attempts on the element `i`, a poll waits, or has the source do
  nothing, or is one of finitely many for what has been taken. -/
  ends : ∀ {s log answers} {k : Nat → Nat}, stage.Uses view [] s log answers →
    (∀ i, (attempts log).count i ≤ k i) → .done ∉ answers →
    ∃ asked, source.Reach (below s) asked ∧
      busyPolls answers ≤ (outputs asked).length +
        4 * ∑ i ∈ Finset.range (outputs asked).length, k i + idlePolls asked
  /-- It waits for its source, or for a reply that is due later. -/
  wait : ∀ {s answers now w}, stage.Uses view [] s (view w) answers →
    (stage.poll s now w).1 = .wait →
    (source.poll (below s) now w).1 = .wait ∨ ∃ due ∈ stage.alarms s, now < due

/-- A stage that holds the dialogue of retrying. -/
theorem retries_of_converses {failing : Bool}
    {view : ω → List (Dialogue.retry α β failing).Utterance} {source : Machine ω α}
    {t : Transducer ω α β} {fits : t.Memory → (Dialogue.retry α β failing).Config → Prop}
    (steady : source.Steady) (keeps : source.Keeps view)
    (converses : Converses t (Dialogue.retry α β failing) view fits) :
    Retries failing view source (source.via t).guarded fun s => s.1.1 where
  told := by
    intro s log answers used
    obtain ⟨c, asked, there⟩ := converses.uses keeps used
    obtain ⟨r, below, -⟩ := there.position
    obtain ⟨xs, fault, stories, begun, recounted⟩ := there.reached.recounted
    refine ⟨asked, c.status, xs, fault, stories, begun, ⟨r, below⟩, ?_, fun done => ?_⟩
    · rw [← there.taken, ← there.log, ← there.outs]
      exact recounted
    · rw [← there.outs]
      simpa [Config.Clean] using there.ended done steady
  ends := by
    intro s log answers k used few unfinished
    obtain ⟨c, asked, there⟩ := converses.uses keeps used
    obtain ⟨r, below, atSource⟩ := there.position
    obtain ⟨xs, fault, stories, begun, recounted⟩ := there.reached.recounted
    have holds : t.holds s.1.2 = true := by
      cases left : t.holds s.1.2 with
      | true => rfl
      | false => exact absurd (there.left left) unfinished
    cases atSource holds
    have size : xs.length ≤ (outputs asked).length := by
      rw [← there.taken, recounted.source, sourceOf, List.length_append, List.length_map]
      exact Nat.le_add_right _ _
    have said : c.log.length ≤ 4 * ∑ i ∈ Finset.range (outputs asked).length, k i :=
      calc c.log.length ≤ 4 * ∑ i ∈ Finset.range xs.length, (attempts c.log).count i :=
            recounted.length_log_le
        _ ≤ 4 * ∑ i ∈ Finset.range xs.length, k i :=
            Nat.mul_le_mul_left 4 (Finset.sum_le_sum fun i _ => there.log ▸ few i)
        _ ≤ 4 * ∑ i ∈ Finset.range (outputs asked).length, k i :=
            Nat.mul_le_mul_left 4 (Finset.sum_le_sum_of_subset (Finset.range_mono size))
    have bound := there.bounded unfinished
    rw [Config.size, there.taken] at bound
    refine ⟨asked, below, ?_⟩
    omega
  wait := by
    intro s answers now w used waits
    obtain ⟨c, asked, there⟩ := converses.uses keeps used
    exact converses.wait keeps there waits

/-- Both forms of retrying. -/
theorem retry_follows_predicate (s : Sequence ω α) (steady : s.machine.Steady) (failing : Bool)
    (view : ω → List (Dialogue.retry α β failing).Utterance) (keeps : s.machine.Keeps view) :
    (∀ (judge : Judge ω α) (f : Step ω α β),
      (∀ a i, Noted (D := Dialogue.retry α β failing) view (.operation a i) (f a i)) →
      (∀ e a i, Noted (D := Dialogue.retry α β failing) view (.judgment e a i) (judge e a i)) →
      Retries failing view s.machine (s.retry failing judge f).machine fun st =>
        st.1.1) ∧
    (∀ (judge : SlowJudge ω α) (f : SlowStep ω α β),
      (∀ a i, NotedLater (D := Dialogue.retry α β failing) view (.operation a i) (f a i)) →
      (∀ e a i, NotedLater (D := Dialogue.retry α β failing) view (.judgment e a i)
        (judge e a i)) →
      Retries failing view s.machine (s.retryAsync failing judge f).machine fun st =>
        st.1.1) := by
  constructor
  · intro judge f attempts judges
    exact retries_of_converses steady keeps (retry_converses attempts judges)
  · intro judge f attempts judges
    exact retries_of_converses steady keeps (retryAsync_converses attempts judges)

/-- A number on which the first attempt fails and is repeated, and a failure behind it. -/
theorem retry_follows_predicate_repeated :
    let numbers : Sequence (List (Dialogue.retry Nat Nat false).Utterance) Nat :=
      .ofResults (sourceOf [1] (some .zeroBatch))
    let reply : List (Dialogue.retry Nat Nat false).Utterance → Except Failure Nat :=
      fun log => if log.isEmpty then .error .zeroRate else .ok 10
    let f : Step _ Nat Nat := fun a i now log =>
      noting (D := Dialogue.retry Nat Nat false) (.operation a i) (reply log) now log
    let judge : Judge _ Nat := fun e a i =>
      noting (D := Dialogue.retry Nat Nat false) (.judgment e a i) Decision.retry
    let f' : SlowStep _ Nat Nat := fun a i now log =>
      notingLater (D := Dialogue.retry Nat Nat false) 5 (.operation a i) (reply log) now log
    let judge' : SlowJudge _ Nat := fun e a i =>
      notingLater (D := Dialogue.retry Nat Nat false) 0 (.judgment e a i) Decision.retry
    let said : List (Dialogue.retry Nat Nat false).Utterance :=
      records [1] [⟨[.zeroRate], Outcome.succeeded 10⟩]
    let begun : List (Dialogue.retry Nat Nat false).Utterance := repeats 1 0 [.zeroRate]
    let retried := numbers.retry false judge f
    let retriedLater := numbers.retryAsync false judge' f'
    numbers.machine.Steady ∧ numbers.machine.Keeps id ∧
    Retries false id numbers.machine retried.machine (fun st => st.1.1) ∧
    Retries false id numbers.machine retriedLater.machine (fun st => st.1.1) ∧
    (∃ s, retried.machine.Uses id [] s said
      [.skip, .skip, .item 10, .fail .zeroBatch, .done]) ∧
    ∃ s, retriedLater.machine.Uses id [] s begun [.skip, .skip, .wait, .skip, .skip] := by
  intro numbers reply f judge f' judge' said begun retried retriedLater
  have steady : numbers.machine.Steady :=
    (Machine.guarded_delivers (Machine.ofResults_delivers _)).steady
  have keeps : numbers.machine.Keeps id := by
    constructor
    · rintro ⟨_ | ⟨_ | _, _⟩, _ | _⟩ now w <;> rfl
    · intro s now w
      rfl
  obtain ⟨retries, retries'⟩ := retry_follows_predicate numbers steady false id keeps
  refine ⟨steady, keeps, retries judge f ?_ ?_, retries' judge' f' ?_ ?_, ?_, ?_⟩
  · exact fun _ _ _ _ => rfl
  · exact fun _ _ _ _ _ => rfl
  · exact fun _ _ _ _ => ⟨rfl, fun _ _ => rfl⟩
  · exact fun _ _ _ _ _ => ⟨rfl, fun _ _ => rfl⟩
  · exact ⟨_, ((((Machine.Uses.start.poll 0 _ rfl).poll 0 _ rfl).poll 0 _ rfl).poll 0 _ rfl).poll
      0 _ rfl⟩
  · exact ⟨_, ((((Machine.Uses.start.poll 0 _ rfl).poll 0 _ rfl).poll 3 _ rfl).poll 5 _ rfl).poll
      5 _ rfl⟩

end PullStream.Sequence
