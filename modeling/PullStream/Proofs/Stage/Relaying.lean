import PullStream.Proofs.Machine.Pulls
import PullStream.Proofs.Stage.Via
import PullStream.Stage.Pacing

/-!
Stages that hand on what their source has, and nothing else.

Such a stage may take its time before it asks its source: it waits, lets other work go first, or
makes progress of its own. Once it has asked, it goes on asking until something arrives, and that it
hands on there and then. So nothing is held back, lost or added, and each pull of the stage is one
pull of the source.

* `Relayed` — what the answers of such a stage have to do with those of its source.
* `Passes`, `Passes.relays` — the reactions of such a stage, and every use of it.
* `throttle_passes`, `interruptEvery_passes`, `interruptPerSecond_passes`.
-/

namespace PullStream

variable {ω α : Type}

/-! ### Answers -/

/-- The answers of a stage and those of its source. Before the stage asks, it may wait, and give two
answers of its own in each pull, at most; `k` counts those of the pull that is under way. -/
inductive Relayed : Nat → List (Answer α) → List (Answer α) → Prop where
  | start : Relayed 0 [] []
  | wait {k answers asked} : Relayed k answers asked →
      pullsBegun asked = (arrivals asked).length → Relayed k (answers ++ [.wait]) asked
  | own {k answers asked g} : Relayed k answers asked →
      pullsBegun asked = (arrivals asked).length → g = .skip ∨ g = .pause → k < 2 →
      Relayed (k + 1) (answers ++ [.signal g]) asked
  | quiet {k answers asked a} : Relayed k answers asked → a.arrival? = none →
      Relayed k (answers ++ [a]) (asked ++ [a])
  | arrives {k answers asked a b} : Relayed k answers asked → a.arrival? = some b →
      Relayed 0 (answers ++ [a]) (asked ++ [a])

/-- A signal for the time being brings nothing. -/
theorem arrival?_own {g : Signal} (own : g = .skip ∨ g = .pause) :
    (Answer.signal g : Answer α).arrival? = none := by
  rcases own with rfl | rfl <;> rfl

namespace Relayed

variable {k : Nat} {answers asked : List (Answer α)}

theorem arrivals_eq (relayed : Relayed k answers asked) : arrivals asked = arrivals answers := by
  induction relayed with
  | start => rfl
  | wait _ _ ih => rw [ih, arrivals_quiet _ rfl]
  | own _ _ own _ ih => rw [ih, arrivals_quiet _ (arrival?_own own)]
  | quiet _ _ ih => rw [arrivals_concat, arrivals_concat, ih]
  | arrives _ _ ih => rw [arrivals_concat, arrivals_concat, ih]

/-- The source is pulled in the pulls of the stage only. -/
theorem pullsBegun_le (relayed : Relayed k answers asked) :
    pullsBegun asked ≤ pullsBegun answers := by
  have bound (a : Answer α) {answers : List (Answer α)} (same : arrivals asked = arrivals answers) :
      pullsBegun asked ≤ pullsBegun (answers ++ [a]) := by
    rw [pullsBegun_concat, ← same]
    exact (length_arrivals_le asked).2
  cases relayed with
  | start => exact Nat.le_refl _
  | wait relayed => exact bound .wait relayed.arrivals_eq
  | own relayed => exact bound _ relayed.arrivals_eq
  | quiet relayed =>
    refine Nat.le_of_eq ?_
    rw [pullsBegun_concat, pullsBegun_concat, relayed.arrivals_eq]
  | arrives relayed =>
    refine Nat.le_of_eq ?_
    rw [pullsBegun_concat, pullsBegun_concat, relayed.arrivals_eq]

/-- When something has just arrived, each pull of the stage has been one of the source. -/
theorem pullsBegun_eq (relayed : Relayed k answers asked) {before : List (Answer α)} {a : Answer α}
    {b : Arrival α} (last : answers = before ++ [a]) (arrives : a.arrival? = some b) :
    pullsBegun asked = pullsBegun answers := by
  have counts := (length_arrivals_le asked).1
  rw [relayed.arrivals_eq, last, ← pullsBegun_of_arrival before arrives, ← last] at counts
  exact Nat.le_antisymm relayed.pullsBegun_le counts

/-- Nothing breaks down but the source. -/
theorem crash_mem (relayed : Relayed k answers asked) {message : String}
    (broken : .crash message ∈ answers) : .crash message ∈ asked := by
  induction relayed with
  | start => exact absurd broken List.not_mem_nil
  | wait _ _ ih => exact ih (by simpa using broken)
  | own _ _ own _ ih => rcases own with rfl | rfl <;> exact ih (by simpa using broken)
  | quiet _ _ ih =>
    rcases List.mem_append.mp broken with old | new
    · exact List.mem_append_left _ (ih old)
    · exact List.mem_append_right _ new
  | arrives _ _ ih =>
    rcases List.mem_append.mp broken with old | new
    · exact List.mem_append_left _ (ih old)
    · exact List.mem_append_right _ new

/-- In each pull there are two more polls than the source has, at most, that do not wait. -/
theorem busyPolls_le (relayed : Relayed k answers asked) :
    k ≤ 2 ∧ busyPolls answers ≤ busyPolls asked + 2 * (arrivals answers).length + k := by
  induction relayed with
  | start => exact ⟨Nat.zero_le _, Nat.le_refl _⟩
  | wait _ _ ih => simpa [busyPolls_concat, length_arrivals_concat, Answer.isWait, Answer.arrival?]
  | own _ _ own less ih =>
    rw [busyPolls_concat, length_arrivals_concat, arrival?_own own]
    refine ⟨less, ?_⟩
    have bound := ih.2
    split <;> simp only [Option.isSome_none, Bool.false_eq_true, if_false] <;> omega
  | quiet _ nothing ih =>
    rw [busyPolls_concat, busyPolls_concat, length_arrivals_concat, nothing]
    refine ⟨ih.1, ?_⟩
    have bound := ih.2
    simp only [Option.isSome_none, Bool.false_eq_true, if_false]
    omega
  | arrives _ some ih =>
    rw [busyPolls_concat, busyPolls_concat, length_arrivals_concat, some]
    refine ⟨Nat.zero_le _, ?_⟩
    obtain ⟨less, bound⟩ := ih
    simp only [Option.isSome_some, if_true]
    omega

end Relayed

/-- Everything that the source answers is handed on. -/
theorem relayed_self (answers : List (Answer α)) : ∃ k, Relayed k answers answers := by
  induction answers using List.reverseRecOn with
  | nil => exact ⟨0, .start⟩
  | append_singleton answers a ih =>
    obtain ⟨k, relayed⟩ := ih
    cases arrives : a.arrival? with
    | none => exact ⟨k, relayed.quiet arrives⟩
    | some b => exact ⟨0, relayed.arrives arrives⟩

/-! ### Reactions -/

namespace Transducer

variable {source : Machine ω α} {t : Transducer ω α α} {going : Nat → t.Memory → Prop}

/-- A stage that hands on what its source has. `going k m` says where its memory may be after `k`
answers of its own in the pull that is under way. -/
structure Passes (t : Transducer ω α α) (going : Nat → t.Memory → Prop) : Prop where
  start : going 0 t.start
  own : ∀ {k m now w r}, going k m → t.before m now w = some r →
    r.1 = .wait ∧ going k r.2.1 ∧ (∃ due ∈ t.alarms m, now < due) ∨
      (∃ g, r.1 = .signal g ∧ (g = .skip ∨ g = .pause)) ∧ k < 2 ∧ going (k + 1) r.2.1
  /-- Once it has asked its source it goes on asking. -/
  asks : ∀ {k m now w}, going k m → t.before m now w = none →
    ∀ now' w', t.before m now' w' = none
  item : ∀ {k m} a now w, going k m →
    (t.item m a now w).1 = .item a ∧ going 0 (t.item m a now w).2.1
  fail : ∀ m e now w, (t.fail m e now w).1 = .fail e
  done : ∀ m now w, (t.done m now w).1 = .done
  holds : ∀ {k m}, going k m → t.holds m = true

/-- Up to the first failure or end such a stage relays what its source answers. -/
theorem Passes.relays (passes : Passes t going) {s : (source.via t).State}
    {answers : List (Answer α)} (reached : (source.via t).Reach s answers)
    (front : Unended (arrivals answers.dropLast)) :
    ∃ k asked r, source.Reach r asked ∧ Relayed k answers asked ∧
      (Unended (arrivals answers) → r = s.1 ∧ going k s.2 ∧
        (pullsBegun asked = (arrivals asked).length ∨ ∀ now w, t.before s.2 now w = none)) := by
  induction reached with
  | start => exact ⟨0, [], _, .start, .start, fun _ => ⟨rfl, passes.start, .inl rfl⟩⟩
  | @tick s answers _ now w ih =>
    obtain ⟨k, asked, r, below, relayed, more⟩ := ih front
    by_cases unended : Unended (arrivals answers)
    · obtain ⟨rfl, there⟩ := more unended
      exact ⟨k, asked, _, below.tick now w, relayed, fun _ => ⟨rfl, there⟩⟩
    · exact ⟨k, asked, r, below, relayed, fun h => absurd h unended⟩
  | @poll s answers _ now w ih =>
    rw [List.dropLast_concat] at front
    obtain ⟨k, asked, r, below, relayed, more⟩ := ih front.arrivals_dropLast
    obtain ⟨rfl, there, way⟩ := more front
    have polled := Machine.via_poll source t s now w
    generalize (source.via t).poll s now w = answer at polled
    have next := below.poll now w
    cases polled with
    | before own =>
      -- Its source has not been asked in this pull, or else it would be asked again.
      have idle := way.resolve_right fun none => by cases (none now w).symm.trans own
      rcases passes.own there own with ⟨waits, goes, -⟩ | ⟨⟨g, same, own⟩, less, goes⟩
      · simp only [Machine.react, waits]
        refine ⟨k, asked, _, below, relayed.wait idle, fun _ => ⟨?_, goes, .inl idle⟩⟩
        exact (Machine.release_held s.1 (passes.holds goes)).symm
      · simp only [Machine.react, same]
        refine ⟨k + 1, asked, _, below, relayed.own idle own less, fun _ =>
          ⟨?_, goes, .inl idle⟩⟩
        exact (Machine.release_held s.1 (passes.holds goes)).symm
    | @item a p own answered =>
      obtain ⟨same, goes⟩ := passes.item a now p.2 there
      rw [answered] at next
      simp only [Machine.react, same]
      refine ⟨0, _, _, next, relayed.arrives rfl, fun _ => ⟨?_, goes, ?_⟩⟩
      · exact (Machine.release_held p.1 (passes.holds goes)).symm
      · exact .inl (pullsBegun_of_arrival asked rfl)
    | @fail e p own answered =>
      rw [answered] at next
      simp only [Machine.react, passes.fail]
      refine ⟨0, _, _, next, relayed.arrives rfl, fun unended => ?_⟩
      cases unended (.failure e) (by simp [arrivals_concat, Answer.arrival?])
    | done own answered =>
      rw [answered] at next
      simp only [Machine.react, passes.done]
      refine ⟨0, _, _, next, relayed.arrives rfl, fun unended => ?_⟩
      cases unended .ended (by simp [arrivals_concat, Answer.arrival?])
    | pass own answered notFail notDone =>
      rw [answered] at next
      exact ⟨k, _, _, next, relayed.quiet (Answer.arrival?_signal notFail notDone), fun _ =>
        ⟨rfl, there, .inr (passes.asks there own)⟩⟩

/-- A poll that waits, waits for the source, or until it is due. -/
theorem Passes.waits (passes : Passes t going) {s : (source.via t).State} {k : Nat}
    (there : going k s.2) {now : Time} {w : ω}
    (waits : ((source.via t).poll s now w).1 = .wait) :
    (source.poll s.1 now w).1 = .wait ∨ ∃ due ∈ (source.via t).alarms s, now < due := by
  have polled := Machine.via_poll source t s now w
  generalize (source.via t).poll s now w = answer at polled waits
  cases polled with
  | before own =>
    rcases passes.own there own with ⟨-, -, due, alarm, early⟩ | ⟨⟨g, same, own⟩, -⟩
    · exact .inr ⟨due, List.mem_append_left _ alarm, early⟩
    · cases same.symm.trans waits
      rcases own with own | own <;> cases own
  | @item a p own answered => cases (passes.item a now p.2 there).1.symm.trans waits
  | fail => cases (passes.fail _ _ _ _).symm.trans waits
  | done => cases (passes.done _ _ _).symm.trans waits
  | pass own answered _ _ =>
    rw [answered]
    exact .inl (congrArg Answer.signal (Answer.signal.inj waits))

/-! ### The stages -/

/-- Where a throttled sequence may be: at the start of a pull, in a wait, or behind one. -/
inductive ThrottlingAfter : Nat → Throttling → Prop where
  | first : ThrottlingAfter 0 .first
  | between : ThrottlingAfter 0 .between
  | waiting {due} : ThrottlingAfter 1 (.waiting due)
  | asking : ThrottlingAfter 2 .asking

theorem throttle_passes (pause : Pause ω) :
    Passes (throttle pause : Transducer ω α α) ThrottlingAfter where
  start := .first
  own {k m now w r} there own := by
    cases there with
    | first => cases own
    | asking => cases own
    | between =>
      cases own
      exact .inr ⟨⟨.skip, rfl, .inl rfl⟩, Nat.zero_lt_two, .waiting⟩
    | @waiting due =>
      simp only [throttle] at own
      split at own
      · rename_i early
        cases own
        exact .inl ⟨rfl, .waiting, due, List.mem_singleton_self due, early⟩
      · cases own
        exact .inr ⟨⟨.skip, rfl, .inl rfl⟩, Nat.one_lt_two, .asking⟩
  asks {k m now w} there asks now' w' := by
    cases there with
    | first => rfl
    | between => cases asks
    | waiting =>
      simp only [throttle] at asks
      split at asks <;> cases asks
    | asking => rfl
  item _ _ _ _ := ⟨rfl, .between⟩
  fail _ _ _ _ := rfl
  done _ _ _ := rfl
  holds there := by cases there <;> rfl

theorem interruptEvery_passes (count : Nat) :
    Passes (interruptEvery count : Transducer ω α α) fun k m =>
      m.spent = false ∧ (m.gaveWay = false → k = 0) ∧ k ≤ 1 where
  start := ⟨rfl, fun _ => rfl, Nat.zero_le 1⟩
  own {k m now w r} there own := by
    obtain ⟨going, fresh, -⟩ := there
    simp only [interruptEvery, going, Bool.false_eq_true, if_false] at own
    split at own
    · rename_i due
      cases own
      obtain rfl := fresh due.2.2
      exact .inr ⟨⟨.pause, rfl, .inr rfl⟩, Nat.zero_lt_two, rfl, nofun, Nat.le_refl 1⟩
    · cases own
  asks {k m now w} there asks now' w' := by
    simp only [interruptEvery, there.1, Bool.false_eq_true, if_false] at asks ⊢
    split at asks
    · cases asks
    · rename_i notDue
      exact if_neg notDue
  item _ _ _ there := ⟨rfl, there.1, fun _ => rfl, Nat.zero_le 1⟩
  fail _ _ _ _ := rfl
  done _ _ _ := rfl
  holds there := by simp [interruptEvery, there.1]

theorem interruptPerSecond_passes (times : Nat) (created : Time) :
    Passes (interruptPerSecond times created : Transducer ω α α) fun k m =>
      m.spent = false ∧ (m.looked = false → k = 0) ∧ k ≤ 1 where
  start := ⟨rfl, fun _ => rfl, Nat.zero_le 1⟩
  own {k m now w r} there own := by
    obtain ⟨going, fresh, -⟩ := there
    simp only [interruptPerSecond, going, Bool.false_eq_true, if_false] at own
    split at own
    · cases own
    · rename_i notYet
      obtain rfl := fresh (eq_false_of_ne_true notYet)
      split at own <;> cases own
      · exact .inr ⟨⟨.pause, rfl, .inr rfl⟩, Nat.zero_lt_two, rfl, nofun, Nat.le_refl 1⟩
      · exact .inr ⟨⟨.skip, rfl, .inl rfl⟩, Nat.zero_lt_two, rfl, nofun, Nat.le_refl 1⟩
  asks {k m now w} there asks now' w' := by
    simp only [interruptPerSecond, there.1, Bool.false_eq_true, if_false] at asks ⊢
    split at asks
    · rename_i looked
      exact if_pos looked
    · split at asks <;> cases asks
  item _ _ _ there := ⟨rfl, there.1, fun _ => rfl, Nat.zero_le 1⟩
  fail _ _ _ _ := rfl
  done _ _ _ := rfl
  holds there := by simp [interruptPerSecond, there.1]

end Transducer
end PullStream
