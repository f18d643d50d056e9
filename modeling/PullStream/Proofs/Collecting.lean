import PullStream.Proofs.Finishing
import PullStream.Scenario.Stage

/-!
Emptying a sequence into a list.

Whoever empties a sequence pulls it to its end or to its first failure. Background work goes on
meanwhile, that of the sequence and that of others. If the sequence has ended, what is left is a
list of what has arrived, to be walked without waiting; if it has failed, so has the conversion.

* `Collecting` — what has been collected of what has arrived.
* `Scenario.Emptied`, `Scenario.empty_emptied` — what becomes of emptying a sequence.
* `Sequence.emptiedInto_answers` — the list that is left.
-/

namespace PullStream

variable {ω α : Type}

open Consumer (Folding toList)

/-! ### Collecting -/

/-- What has been collected of what has arrived. -/
inductive Collecting : Folding (List α) (List α) → List (Arrival α) → Prop where
  | running {taken i} : Collecting (.running taken i) (taken.reverse.map .item)
  | ended {xs} : Collecting (.finished (.ok xs)) (xs.map .item ++ [.ended])
  | failed {xs : List α} {e} : Collecting (.finished (.error e)) (xs.map .item ++ [.failure e])

/-- Whoever collects pulls until the first failure or the end. -/
theorem Collecting.unended {memory : Folding (List α) (List α)} {as : List (Arrival α)}
    (collecting : Collecting memory as) (wants : (toList (ω := ω)).want memory = .pull) :
    Unended as := by
  cases collecting with
  | running =>
    intro a member
    obtain ⟨x, -, rfl⟩ := List.mem_map.mp member
    rfl
  | ended => cases wants
  | failed => cases wants

theorem Collecting.hear {memory : Folding (List α) (List α)} {as : List (Arrival α)}
    (collecting : Collecting memory as) (wants : (toList (ω := ω)).want memory = .pull)
    (a : Answer α) (now : Time) (w : ω) :
    Collecting (toList.hear memory a now w).1 (as ++ a.arrival?.toList) := by
  cases collecting with
  | ended => cases wants
  | failed => cases wants
  | @running taken i =>
    cases a with
    | item x =>
      have next : Collecting (.running (x :: taken) (i + 1)) _ := .running
      rw [List.reverse_cons, List.map_append] at next
      exact next
    | signal g =>
      cases g with
      | fail e => exact .failed
      | done => exact .ended
      | _ => exact (List.append_nil (taken.reverse.map Arrival.item)).symm ▸ .running

namespace Scenario

/-! ### Emptying -/

variable {company : Machine Log Element}

/-- A sequence is drained by whoever collects it; work beside it is no concern of theirs. -/
theorem alongside_collects (m company : Machine Log Element) :
    Uphold (alongside m company) toList fun memory state _ =>
      ∃ as, m.Draining state.1 as ∧ Collecting memory as where
  pull := by
    rintro memory ⟨s, t⟩ w now ⟨as, draining, collecting⟩ wants
    exact ⟨_, draining.poll (collecting.unended wants) now w, collecting.hear wants _ _ _⟩
  wake := by
    rintro memory s w due now ⟨as, draining, collecting⟩ wants -
    cases collecting <;> cases wants
  tick := by
    rintro memory ⟨s, t⟩ w now ⟨as, draining, collecting⟩
    refine ⟨as, ?_, collecting⟩
    have ticked := draining.tick now w
    simp only [alongside]
    split
    · rename_i s' w' h
      rwa [h] at ticked
    · rename_i s' w' h
      rwa [h] at ticked

/-- What becomes of emptying a sequence that is left in `state`, when so much has arrived. -/
inductive Emptied (s : Sequence Log Element) (state : s.machine.State) :
    List (Arrival Element) → Outcome company → Prop where
  | succeeded {xs : List Element} {making} : Emptied s state (xs.map .item ++ [.ended])
      ⟨s.emptiedInto state xs, none, making⟩
  | failed {xs : List Element} {e making} : Emptied s state (xs.map .item ++ [.failure e])
      ⟨s.emptiedInto state [], some (.failed e), making⟩
  /-- It has broken down, or goes on for ever. -/
  | unfinished {xs : List Element} {refusal making} :
      refusal = .endless ∨ (∃ message, refusal = .crashed message) →
      Emptied s state (xs.map .item) ⟨s.emptiedInto state [], some refusal, making⟩

/-- To empty a sequence is to drain it to its end or its first failure. -/
theorem empty_emptied (s : Sequence Log Element) (m : Making company) :
    ∃ state as, s.machine.Draining state as ∧ Emptied s state as (empty s m) := by
  let c : Consumer Log Element (Consumer.Result (List Element)) := toList
  let setting : Setting Log Element (alongside s.machine company).hub :=
    { now := m.now, world := m.log, state := (s.machine.start, m.state) }
  have told := Setting.run_told (s := setting) (alongside_collects s.machine company) none
    Setting.patience { output := 0, memory := c.start } ⟨[], .start, .running⟩ fun _ _ => nofun
  dsimp only [empty, Setting.consume]
  generalize Setting.run none Setting.patience _ _ = ran at told ⊢
  obtain ⟨ending, left⟩ := ran
  obtain ⟨memory, ⟨as, draining, collecting⟩, told⟩ := told
  refine ⟨left.state.1, as, draining, ?_⟩
  -- Whoever has no result yet has had items only.
  have unfinished (pending : ∀ result, c.want memory ≠ .finish result) {refusal : Refusal}
      (why : refusal = .endless ∨ ∃ message, refusal = .crashed message)
      (making : Making company) :
      Emptied s left.state.1 as ⟨s.emptiedInto left.state.1 [], some refusal, making⟩ := by
    cases collecting with
    | running => exact .unfinished why
    | ended => exact absurd rfl (pending _)
    | failed => exact absurd rfl (pending _)
  cases ending with
  | finished results =>
    obtain ⟨result, wants, rfl⟩ := told
    cases collecting with
    | running => cases wants
    | ended =>
      cases wants
      exact .succeeded
    | failed =>
      cases wants
      exact .failed
  | crashed message => exact unfinished told (.inr ⟨message, rfl⟩) _
  | _ => exact unfinished told (.inl rfl) _

/-! ### Sequences that wind down -/

/-- A machine without background work, which the clock does not concern. -/
structure Idle (company : Machine Log Element) : Prop where
  tick : ∀ t now w, (company.tick t now w).1 = false
  alarms : ∀ t, company.alarms t = []

/-- Beside idle company a machine winds down as it does alone. -/
theorem alongside_windsDown {m : Machine Log Element} {going : m.State → Prop}
    {left : m.State → Time → Nat} (winds : m.WindsDown going left) (idle : Idle company) :
    (alongside m company).WindsDown (fun s => going s.1) fun s => left s.1 where
  poll {s} goes now w := by
    have nearer := winds.poll goes now w
    change Machine.Nearer (alongside m company) _ _ s now ((m.poll s.1 now w).1,
      ((m.poll s.1 now w).2.1, s.2), (m.poll s.1 now w).2.2)
    generalize m.poll s.1 now w = answer at nearer ⊢
    cases nearer with
    | last last => exact .last last
    | moves moves sound goes less => exact .moves moves sound goes less
    | @waits s' w' goes less wakes =>
      refine .waits goes less ?_
      simp only [alongside, idle.alarms, List.append_nil]
      generalize m.tick s' now w' = ticked at wakes ⊢
      obtain ⟨_ | _, s'', w''⟩ := ticked
      · exact .inr (wakes.resolve_left nofun)
      · exact .inl rfl
  tick {s} goes now w := by
    have next := winds.tick goes now w
    simp only [alongside]
    generalize m.tick s.1 now w = ticked at next ⊢
    obtain ⟨_ | _, s', w'⟩ := ticked
    · simpa only [idle.tick] using next
    · exact next
  clock {s now due} goes alarm late := by
    simp only [alongside, idle.alarms, List.append_nil] at alarm
    exact winds.clock goes alarm late

/-- To empty a sequence that winds down comes to its end or its first failure. -/
theorem empty_finishes (s : Sequence Log Element) (m : Making company)
    {going : (alongside s.machine company).State → Prop}
    {left : (alongside s.machine company).State → Time → Nat}
    (winds : (alongside s.machine company).WindsDown going left)
    (goes : going (s.machine.start, m.state))
    (enough : left (s.machine.start, m.state) m.now < Setting.patience) :
    (empty s m).refusal = none ∨ ∃ e, (empty s m).refusal = some (.failed e) := by
  let setting : Setting Log Element (alongside s.machine company).hub :=
    { now := m.now, world := m.log, state := (s.machine.start, m.state) }
  have attentive : (toList : Consumer Log Element _).Attentive := by
    unfold toList Consumer.reduce
    exact Consumer.fold_attentive _ _ _
  obtain ⟨result, after, same⟩ :=
    Setting.consume_finishes (s := setting) attentive winds rfl 0 goes enough
  simp only [setting] at same
  simp only [empty, same]
  cases result with
  | ok xs => exact .inl rfl
  | error e => exact .inr ⟨e, rfl⟩

end Scenario

/-! ### What is left -/

/-- The first `n` answers of a list: its items, and then the end. -/
def listed (xs : List α) (n : Nat) : List (Answer α) :=
  (xs.take n).map .item ++ List.replicate (n - xs.length) .done

theorem listed_of_lt {xs : List α} {n : Nat} (inside : n < xs.length) :
    listed xs (n + 1) = listed xs n ++ [.item xs[n]] := by
  rw [listed, listed, Nat.sub_eq_zero_of_le inside, Nat.sub_eq_zero_of_le (Nat.le_of_lt inside),
    List.take_succ_eq_append_getElem inside, List.map_append]
  simp only [List.replicate_zero, List.append_nil, List.map_cons, List.map_nil]

theorem listed_of_le {xs : List α} {n : Nat} (beyond : xs.length ≤ n) :
    listed xs (n + 1) = listed xs n ++ [.done] := by
  rw [listed, listed, List.take_of_length_le beyond,
    List.take_of_length_le (Nat.le_succ_of_le beyond), Nat.succ_sub beyond, List.replicate_succ',
    List.append_assoc]

/-- The list that a sequence has been emptied into hands out its items and then reports the end. It
never waits. -/
theorem Sequence.emptiedInto_answers (s : Sequence ω α) (state : s.machine.State) (xs : List α)
    {t : (s.emptiedInto state xs).machine.State} {answers : List (Answer α)}
    (reached : (s.emptiedInto state xs).machine.Reach t answers) :
    ∃ n, t.1 = xs.drop n ∧ answers = listed xs n := by
  induction reached with
  | start => exact ⟨0, rfl, by simp [listed]⟩
  | tick _ now w ih => exact ih
  | @poll t answers _ now w ih =>
    obtain ⟨rest, r⟩ := t
    obtain ⟨n, rfl, rfl⟩ := ih
    refine ⟨n + 1, ?_⟩
    rcases Nat.lt_or_ge n xs.length with inside | beyond
    · rw [listed_of_lt inside, List.drop_eq_getElem_cons inside]
      exact ⟨rfl, rfl⟩
    · rw [listed_of_le beyond, List.drop_eq_nil_of_le beyond,
        List.drop_eq_nil_of_le (Nat.le_succ_of_le beyond)]
      exact ⟨rfl, rfl⟩

end PullStream
