import PullStream.Proofs.Stage.Ending
import PullStream.Stage.Collecting
import PullStream.Stage.Elementwise
import PullStream.Stage.Pacing
import PullStream.Stage.Waiting

/-!
Which stages settle, which relay and which break.

Stages that only look at elements rest behind their input and relay its end. Stages
with something to remember at the end are shut by it: sorting, batching, filling an
empty sequence, and the lasting forms of taking and flattening. The pacing stages and
the waiting form of retrying let their input go at the end and keep nothing to answer
with.
-/

namespace PullStream.Transducer

variable {ω α β : Type}

theorem ofExcept_ne_done (r : Except Failure α) : Answer.ofExcept r ≠ .done := by
  cases r <;> simp [Answer.ofExcept]

theorem ofDecision_ne_done (a : α) (r : Except Failure Bool) : Answer.ofDecision a r ≠ .done := by
  rcases r with e | _ | _ <;> simp [Answer.ofDecision]

theorem givenUp_ne_done (failing : Bool) (e : Failure) :
    (givenUp failing e : Answer β) ≠ .done := by
  cases failing <;> simp [givenUp]

/-! ### Stages that rest -/

/-- The ending of a stage that has nothing of its own to answer while it rests. -/
def restingIn (t : Transducer ω α β) (rest valid : t.Memory → Prop) : t.Ending where
  valid := valid
  shut _ := False
  rest := rest

/-- The same, where every memory is valid. -/
abbrev resting (t : Transducer ω α β) (rest : t.Memory → Prop) : t.Ending :=
  t.restingIn rest fun _ => True

/-- A stage that always asks its input, and ends with it. -/
theorem settles_plain {t : Transducer ω α β} (before : ∀ m now w, t.before m now w = none)
    (holds : ∀ m, t.holds m = true) (item : ∀ m a now w, (t.item m a now w).1 ≠ .done)
    (fail : ∀ m e now w, (t.fail m e now w).1 ≠ .done)
    (done : ∀ m now w, (t.done m now w).1 = .done) : (resting t fun _ => True).Settles where
  start := trivial
  before _ own := by simp [before] at own
  item _ _ _ _ _ := ⟨trivial, fun h => absurd h (item _ _ _ _)⟩
  fail _ _ _ _ _ := ⟨trivial, fun h => absurd h (fail _ _ _ _)⟩
  done _ _ _ _ := ⟨trivial, fun _ => .inr trivial⟩
  shut _ _ := False.elim
  resting _ own := by simp [before] at own
  rested _ _ := done _ _ _
  held _ _ := holds _

theorem map_settles (f : Step ω α β) : (resting (map f) fun _ => True).Settles :=
  settles_plain (fun _ _ _ => rfl) (fun _ => rfl) (fun _ _ _ _ => ofExcept_ne_done _)
    (fun _ _ _ _ => by simp [map]) fun _ _ _ => rfl

theorem filter_settles (p : Step ω α Bool) : (resting (filter p) fun _ => True).Settles :=
  settles_plain (fun _ _ _ => rfl) (fun _ => rfl) (fun _ _ _ _ => ofDecision_ne_done _ _)
    (fun _ _ _ _ => by simp [filter]) fun _ _ _ => rfl

theorem distinct_settles {κ : Type} [DecidableEq κ] (key : α → κ) :
    (resting (distinct (ω := ω) key) fun _ => True).Settles :=
  settles_plain (fun _ _ _ => rfl) (fun _ => rfl)
    (fun _ _ _ _ => by simp only [distinct]; split <;> simp)
    (fun _ _ _ _ => by simp [distinct]) fun _ _ _ => rfl

theorem pairwise_settles : (resting (pairwise (ω := ω) (α := α)) fun _ => True).Settles :=
  settles_plain (fun _ _ _ => rfl) (fun _ => rfl)
    (fun _ _ _ _ => by simp only [pairwise]; split <;> simp)
    (fun _ _ _ _ => by simp [pairwise]) fun _ _ _ => rfl

theorem skipFirst_settles (count : Nat) :
    (resting (skipFirst (ω := ω) (α := α) count) fun _ => True).Settles :=
  settles_plain (fun _ _ _ => rfl) (fun _ => rfl)
    (fun _ _ _ _ => by simp only [skipFirst]; split <;> simp)
    (fun _ _ _ _ => by simp [skipFirst]) fun _ _ _ => rfl

/-- An operation is repeated between two questions to the input. -/
theorem retry_settles (failing : Bool) (judge : Judge ω α) (operation : Step ω α β) :
    (resting (retry failing judge operation) fun m => m.current = none).Settles where
  start := trivial
  before {m now w r} _ own := by
    refine ⟨⟨trivial, fun h => ?_⟩, fun h => by simp [retry] at h⟩
    cases current : m.current with
    | none => simp [retry, current] at own
    | some x =>
      simp only [retry, current, Option.map_some] at own
      cases Option.some.inj own
      split at h
      · cases h
      · split at h
        · cases h
        · exact absurd h (givenUp_ne_done _ _)
  item _ _ _ _ _ := ⟨trivial, fun h => by simp [retry] at h⟩
  fail _ _ _ _ _ := ⟨trivial, fun h => by simp [retry] at h⟩
  done {m _} _ _ _ own := by
    have idle : m.current = none := by simpa [retry] using own
    exact ⟨trivial, fun _ => .inr idle⟩
  shut _ _ := False.elim
  resting rest own := by simp [retry, show _ = none from rest] at own
  rested _ _ := rfl
  held _ _ := rfl

/-- A result under way is not the end. -/
theorem deferring_settles {f : α → Nat → Time → ω → Deferred ω (Answer β) × ω}
    (proper : ∀ a i now w now' w', ((f a i now w).1.finish now' w').1 ≠ .done) :
    (restingIn (deferring f) (fun m => m.pending = none)
      fun m => ∀ p ∈ m.pending, ∀ now w, (p.finish now w).1 ≠ .done).Settles where
  start := by simp [restingIn, deferring]
  before {m now w r} valid own := by
    refine ⟨?_, fun h => by simp [deferring] at h⟩
    cases under : m.pending with
    | none => simp [deferring, under] at own
    | some p =>
      simp only [deferring, under, Option.map_some] at own
      cases Option.some.inj own
      split
      · exact ⟨valid, fun h => by simp at h⟩
      · exact ⟨by simp [restingIn], fun h => absurd h (valid p under now w)⟩
  item {m w} a now w' _ _ := by
    refine ⟨fun p under now'' w'' => ?_, fun h => by simp [deferring] at h⟩
    cases Option.mem_some_iff.mp under
    exact proper a m.index now w' now'' w''
  fail _ _ _ valid _ := ⟨valid, fun h => by simp [deferring] at h⟩
  done {m _} _ _ valid own := by
    have idle : m.pending = none := by simpa [deferring] using own
    exact ⟨valid, fun _ => .inr idle⟩
  shut _ _ := False.elim
  resting rest own := by simp [deferring, show _ = none from rest] at own
  rested _ _ := rfl
  held _ _ := rfl

theorem mapAsync_proper (f : SlowStep ω α β) (a : α) (i : Nat) (now : Time) (w : ω) (now' : Time)
    (w' : ω) : ((deferredAnswer Answer.ofExcept (f a i now w).1).finish now' w').1 ≠ .done :=
  ofExcept_ne_done _

theorem filterAsync_proper (p : SlowStep ω α Bool) (a : α) (i : Nat) (now : Time) (w : ω)
    (now' : Time) (w' : ω) :
    ((deferredAnswer (Answer.ofDecision a) (p a i now w).1).finish now' w').1 ≠ .done :=
  ofDecision_ne_done _ _

/-- An item or a failure on its way is not the end. -/
theorem arriving_settles (delay : Nat → Time) :
    (restingIn (arriving (ω := ω) (α := α) delay) (fun m => m.pending = none)
      fun m => ∀ p ∈ m.pending, p.2 ≠ .done).Settles where
  start := by simp [restingIn, arriving]
  before {m now w r} valid own := by
    refine ⟨?_, fun h => by simp [arriving] at h⟩
    cases under : m.pending with
    | none => simp [arriving, under] at own
    | some p =>
      simp only [arriving, under, Option.map_some] at own
      cases Option.some.inj own
      split
      · exact ⟨valid, fun h => by simp at h⟩
      · exact ⟨by simp [restingIn], fun h => absurd h (valid p under)⟩
  item _ _ _ _ _ := ⟨by simp [restingIn, arriving], fun h => by simp [arriving] at h⟩
  fail _ _ _ _ _ := ⟨by simp [restingIn, arriving], fun h => by simp [arriving] at h⟩
  done {m _} _ _ valid own := by
    have idle : m.pending = none := by simpa [arriving] using own
    exact ⟨valid, fun _ => .inr idle⟩
  shut _ _ := False.elim
  resting rest own := by simp [arriving, show _ = none from rest] at own
  rested _ _ := rfl
  held _ _ := rfl

/-! ### Stages that relay -/

/-- A stage that rests relays if it passes failures on and always holds its input. -/
theorem relays_of_resting {t : Transducer ω α β} {rest valid : t.Memory → Prop}
    (settles : (restingIn t rest valid).Settles)
    (fail : ∀ m e now w, (t.fail m e now w).1 = .fail e) (holds : ∀ m, t.holds m = true) :
    (restingIn t rest valid).Relays where
  settles := settles
  unshut _ := id
  fail := fail
  holds _ := holds _

theorem map_relays (f : Step ω α β) : (resting (map f) fun _ => True).Relays :=
  relays_of_resting (map_settles f) (fun _ _ _ _ => rfl) fun _ => rfl

theorem filter_relays (p : Step ω α Bool) : (resting (filter p) fun _ => True).Relays :=
  relays_of_resting (filter_settles p) (fun _ _ _ _ => rfl) fun _ => rfl

theorem distinct_relays {κ : Type} [DecidableEq κ] (key : α → κ) :
    (resting (distinct (ω := ω) key) fun _ => True).Relays :=
  relays_of_resting (distinct_settles key) (fun _ _ _ _ => rfl) fun _ => rfl

theorem pairwise_relays : (resting (pairwise (ω := ω) (α := α)) fun _ => True).Relays :=
  relays_of_resting pairwise_settles (fun _ _ _ _ => rfl) fun _ => rfl

theorem skipFirst_relays (count : Nat) :
    (resting (skipFirst (ω := ω) (α := α) count) fun _ => True).Relays :=
  relays_of_resting (skipFirst_settles count) (fun _ _ _ _ => rfl) fun _ => rfl

theorem retry_relays (failing : Bool) (judge : Judge ω α) (operation : Step ω α β) :
    (resting (retry failing judge operation) fun m => m.current = none).Relays :=
  relays_of_resting (retry_settles failing judge operation) (fun _ _ _ _ => rfl) fun _ => rfl

theorem deferring_relays {f : α → Nat → Time → ω → Deferred ω (Answer β) × ω}
    (proper : ∀ a i now w now' w', ((f a i now w).1.finish now' w').1 ≠ .done) :
    (restingIn (deferring f) (fun m => m.pending = none)
      fun m => ∀ p ∈ m.pending, ∀ now w, (p.finish now w).1 ≠ .done).Relays :=
  relays_of_resting (deferring_settles proper) (fun _ _ _ _ => rfl) fun _ => rfl

/-! ### Stages that shut -/

/-- Taking is shut when there is nothing left to take; the plain form rests too. -/
def takeFirstEnding (lasting : Bool) (count : Nat) :
    (takeFirst (ω := ω) (α := α) lasting count).Ending where
  shut left := left = (0 : Nat)
  rest _ := lasting = false

theorem takeFirst_settles (lasting : Bool) (count : Nat) :
    (takeFirstEnding (ω := ω) (α := α) lasting count).Settles where
  start := trivial
  before {m now w r} _ own := by
    simp only [takeFirst] at own
    split at own
    · cases own
      exact ⟨⟨trivial, fun _ => rfl⟩, fun h => by simp [takeFirst] at h⟩
    · cases own
  item _ _ _ _ _ := ⟨trivial, fun h => by simp [takeFirst] at h⟩
  fail _ _ _ _ _ := ⟨trivial, fun h => by simp [takeFirst] at h⟩
  done _ _ _ _ := ⟨trivial, fun _ => by cases lasting <;> simp [takeFirst, takeFirstEnding]⟩
  shut {m} now w isOver := ⟨m, w, by
    subst isOver
    rfl⟩
  resting {m now w r} _ own := by
    simp only [takeFirst] at own
    split at own <;> cases own
    rfl
  rested _ _ := rfl
  held _ _ := rfl

/-- The lasting form of taking while is shut by an element, and rests at the end. -/
def takeWhileEnding (p : Step ω α Bool) : (takeWhile true p).Ending where
  shut m := m.ended = true
  rest _ := True

theorem takeWhile_settles (p : Step ω α Bool) : (takeWhileEnding p).Settles where
  start := trivial
  before {m now w r} _ own := by
    simp only [takeWhile] at own
    split at own
    · rename_i ended
      cases own
      exact ⟨⟨trivial, fun _ => ended⟩, fun h => by simp [takeWhile] at h⟩
    · cases own
  item {m w} a now w' _ _ := by
    refine ⟨trivial, fun h => ?_⟩
    simp only [takeWhile, takeWhileEnding] at h ⊢
    rcases decided : (p a m.index now w').1 with e | _ | _ <;> simp [decided, taken] at h ⊢
  fail _ _ _ _ _ := ⟨trivial, fun h => by simp [takeWhile] at h⟩
  done _ _ _ _ := ⟨trivial, fun _ => .inr trivial⟩
  shut {m} now w isOver := ⟨m, w, if_pos isOver⟩
  resting {m now w r} _ own := by
    simp only [takeWhile] at own
    split at own <;> cases own
    rfl
  rested _ _ := rfl
  held _ _ := rfl

/-- Flattening is shut behind an input that is used up for good, which the plain form never
takes it to be. -/
def flatMapEnding (lasting : Bool) (f : Step ω α (List β)) : (flatMap lasting f).Ending where
  valid m := lasting = false → m.ended = false
  shut m := m.rest = [] ∧ m.ended = true
  rest m := m.rest = [] ∧ lasting = false

theorem flatMap_settles (lasting : Bool) (f : Step ω α (List β)) :
    (flatMapEnding lasting f).Settles where
  start _ := rfl
  before {m now w r} valid own := by
    simp only [flatMap] at own
    split at own
    · cases own
      exact ⟨⟨valid, fun h => by simp at h⟩, fun h => h⟩
    · rename_i empty
      split at own
      · rename_i ended
        cases own
        exact ⟨⟨valid, fun _ => ⟨empty, ended⟩⟩, fun h => h⟩
      · cases own
  item {m w} a now w' valid _ := by
    simp only [flatMap, Ending.Allows]
    split
    · exact ⟨valid, fun h => by simp at h⟩
    · exact ⟨valid, fun h => by simp at h⟩
  fail _ _ _ valid _ := ⟨valid, fun h => by simp [flatMap] at h⟩
  done {m w} now w' _ own := by
    have empty : m.rest = [] := by
      simp only [flatMap] at own
      split at own
      · cases own
      · assumption
    refine ⟨fun plain => plain, fun _ => ?_⟩
    cases lasting with
    | true => exact .inl ⟨empty, rfl⟩
    | false => exact .inr ⟨empty, rfl⟩
  shut {m} now w isOver := ⟨m, w, by simp [flatMap, isOver.1, isOver.2]⟩
  resting {m now w r} rest own := by
    simp only [flatMap, rest.1] at own
    split at own <;> cases own
    rfl
  rested _ _ := rfl
  held {m now w} _ own := by
    simp only [flatMap] at own ⊢
    split at own
    · cases own
    · split at own
      · cases own
      · simp_all

theorem flatMap_relays (f : Step ω α (List β)) : (flatMapEnding false f).Relays where
  settles := flatMap_settles false f
  unshut {m} valid shut := absurd ((valid rfl).symm.trans shut.2) Bool.false_ne_true
  fail _ _ _ _ := rfl
  holds {m} valid := by
    have going : m.ended = false := valid rfl
    simp [flatMap, going]

/-- The ending of a stage that asks its input no more once it has ended. -/
def shutting (t : Transducer ω α β) (shut : t.Memory → Prop) : t.Ending where
  shut := shut
  rest _ := False

theorem defaultIfEmpty_settles (value : α) :
    (shutting (defaultIfEmpty (ω := ω) value) fun m => m = Filling.ended).Settles where
  start := trivial
  before {m now w r} _ own := by
    simp only [defaultIfEmpty] at own
    split at own
    · rename_i ended
      cases own
      exact ⟨⟨trivial, fun _ => ended⟩, fun h => h⟩
    · cases own
  item _ _ _ _ _ := ⟨trivial, fun h => by simp [defaultIfEmpty] at h⟩
  fail _ _ _ _ _ := ⟨trivial, fun h => by simp [defaultIfEmpty] at h⟩
  done _ _ _ _ := ⟨trivial, fun _ => .inl rfl⟩
  shut {m} now w isOver := ⟨m, w, if_pos isOver⟩
  resting := False.elim
  rested := False.elim
  held {m now w} _ own := by
    simp only [defaultIfEmpty] at own ⊢
    split at own
    · cases own
    · rename_i unended
      cases m with
      | empty => rfl
      | filled => rfl
      | ended => exact absurd rfl unended

theorem sort_settles (notAfter : α → α → Bool) :
    (shutting (sort (ω := ω) notAfter) fun m => m = Sorting.handing []).Settles where
  start := trivial
  before {m now w r} _ own := by
    simp only [sort] at own
    split at own
    · cases own
    · cases own
      exact ⟨⟨trivial, fun _ => rfl⟩, fun h => h⟩
    · cases own
      exact ⟨⟨trivial, fun h => by simp at h⟩, fun h => h⟩
  item {m w} a now w' _ _ := by
    refine ⟨trivial, fun h => ?_⟩
    simp only [sort] at h
    split at h <;> cases h
  fail _ _ _ _ _ := ⟨trivial, fun h => by simp [sort] at h⟩
  done {m w} now w' _ _ := by
    refine ⟨trivial, fun h => ?_⟩
    simp only [sort] at h
    split at h <;> cases h
  shut {m} now w isOver := ⟨m, w, by simp [sort, show m = Sorting.handing [] from isOver]⟩
  resting := False.elim
  rested := False.elim
  held {m now w} _ own := by
    cases m with
    | collecting taken => rfl
    | handing rest => cases rest <;> simp [sort] at own

theorem batch_settles (size width : Nat) :
    (shutting (batch (ω := ω) (α := α) size width) fun m => m.ended = true).Settles where
  start := trivial
  before {m now w r} _ own := by
    simp only [batch] at own
    split at own
    · rename_i ended
      cases own
      exact ⟨⟨trivial, fun _ => ended⟩, fun h => h⟩
    · split at own
      · cases own
      · split at own <;> cases own <;> exact ⟨⟨trivial, fun h => by simp at h⟩, fun h => h⟩
  item {m w} a now w' _ _ := by
    refine ⟨trivial, fun h => ?_⟩
    simp only [batch] at h
    split at h <;> cases h
  fail _ _ _ _ _ := ⟨trivial, fun h => by simp [batch] at h⟩
  done _ _ _ _ := ⟨trivial, fun _ => .inl rfl⟩
  shut {m} now w isOver := ⟨m, w, if_pos isOver⟩
  resting := False.elim
  rested := False.elim
  held _ _ := rfl

/-! ### Stages that break -/

theorem throttle_breaks (pause : Pause ω) :
    (throttle (α := α) pause).Breaks fun m => m = Throttling.spent where
  before {m now w r} own := by
    simp only [throttle] at own
    split at own
    · cases own
    · cases own
      simp
    · split at own <;> cases own <;> simp
    · cases own
    · cases own
      simp [Answer.spent]
  item := by simp [throttle]
  fail := by simp [throttle]
  done _ := rfl
  spent {m} now w isOver := by
    subst isOver
    rfl

theorem interruptEvery_breaks (count : Nat) :
    (interruptEvery (ω := ω) (α := α) count).Breaks fun m => m.spent = true where
  before {m now w r} own := by
    simp only [interruptEvery] at own
    split at own
    · cases own
      simp [Answer.spent]
    · split at own <;> cases own
      simp
  item := by simp [interruptEvery]
  fail := by simp [interruptEvery]
  done _ := rfl
  spent _ _ isOver := if_pos isOver

theorem interruptPerSecond_breaks (times : Nat) (created : Time) :
    (interruptPerSecond (ω := ω) (α := α) times created).Breaks fun m => m.spent = true where
  before {m now w r} own := by
    simp only [interruptPerSecond] at own
    split at own
    · cases own
      simp [Answer.spent]
    · split at own
      · cases own
      · split at own <;> cases own <;> simp
  item := by simp [interruptPerSecond]
  fail := by simp [interruptPerSecond]
  done _ := rfl
  spent _ _ isOver := if_pos isOver

theorem retryAsync_breaks (failing : Bool) (judge : SlowJudge ω α) (operation : SlowStep ω α β) :
    (retryAsync failing judge operation).Breaks fun m => m.attempt = Attempt.spent where
  before {m now w r} own := by
    simp only [retryAsync] at own
    split at own
    · cases own
    · cases own
      simp
    · split at own
      · cases own
        simp
      · split at own <;> cases own <;> simp
    · split at own
      · cases own
        simp
      · split at own <;> cases own
        · simp
        · exact givenUp_ne_done _ _
    · cases own
      simp [Answer.spent]
  item := by simp [retryAsync]
  fail := by simp [retryAsync]
  done _ := rfl
  spent {m} now w isOver := by simp [retryAsync, show m.attempt = _ from isOver]

end PullStream.Transducer
