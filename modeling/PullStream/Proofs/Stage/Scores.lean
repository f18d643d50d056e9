import PullStream.Proofs.Stage.Rendering
import PullStream.Stage.Collecting
import PullStream.Stage.Elementwise
import PullStream.Stage.Pacing
import PullStream.Stage.Waiting

/-!
The scores of the stages.

The stages whose step functions answer at once look neither at the clock nor at the world, if the
results depend on the element and its index only. What a stage that waits has to wait for, and
since when, is in its memory but not in its score: a stage that paces its source makes nothing of
it at all, and a stage whose step function takes a while holds back what the result is going to
be.

* `map_timeless` to `interruptEvery_timeless` — the stages without a clock.
* `throttle_renders` to `retryAsync_renders` — the stages with one.
-/

namespace PullStream

variable {ω α β κ : Type}

/-! ### Step functions -/

theorem Step.Gives.eq {f : Step ω α β} {g : α → Nat → Except Failure β} (gives : f.Gives g) (a : α)
    (i : Nat) (now : Time) (w : ω) : f a i now w = (g a i, (f a i now w).2) :=
  Prod.ext (gives a i now w) rfl

/-- A step function whose results take a while, and depend on the element and its index only. -/
def SlowStep.Gives (f : SlowStep ω α β) (g : α → Nat → Except Failure β) : Prop :=
  ∀ a i now w now' w', ((f a i now w).1.finish now' w').1 = g a i

/-- A judge whose decision depends on the failure, the element and its index only. -/
def Judge.Gives (judge : Judge ω α) (d : Failure → α → Nat → Decision) : Prop :=
  ∀ e a i now w, (judge e a i now w).1 = d e a i

/-- A judge whose decision takes a while, and depends on the failure, the element and its index
only. -/
def SlowJudge.Gives (judge : SlowJudge ω α) (d : Failure → α → Nat → Decision) : Prop :=
  ∀ e a i now w now' w', ((judge e a i now w).1.finish now' w').1 = d e a i

namespace Transducer

/-! ### Stages without a clock -/

/-- A stage that has nothing to say by itself and passes on failures and the end. -/
theorem timeless_of_item {t : Transducer ω α β} (before : ∀ m now w, t.before m now w = none)
    (item : ∀ m a now w now' w', t.outcome (t.item m a now w) = t.outcome (t.item m a now' w'))
    (fail : ∀ m e now w, t.fail m e now w = (.fail e, m, w))
    (done : ∀ m now w, t.done m now w = (.done, m, w)) (holds : ∀ m, t.holds m = true) :
    Timeless t fun _ => False where
  before := by simp [before]
  item := item
  fail := by simp [fail, outcome]
  done := by simp [done, outcome]
  holds _ := holds _
  closes m now w := .inl ⟨.ended, by rw [done]; rfl, rfl⟩
  goesOn := False.elim

theorem map_timeless {f : Step ω α β} {g : α → Nat → Except Failure β} (gives : f.Gives g) :
    Timeless (map f) fun _ => False := by
  refine timeless_of_item (fun _ _ _ => rfl) ?_ (fun _ _ _ _ => rfl) (fun _ _ _ => rfl)
    fun _ => rfl
  intro (i : Nat) a now w now' w'
  simp only [map, outcome]
  rw [gives.eq a i now w, gives.eq a i now' w']

theorem intercept_timeless {f : Step ω α Unit} {g : α → Nat → Except Failure Unit}
    (gives : f.Gives g) : Timeless (intercept f) fun _ => False := by
  have returns : (f.map fun a _ => a).Gives fun a i => (g a i).map fun _ => a := by
    intro a i now w
    exact congrArg (Except.map fun _ => a) (gives a i now w)
  exact map_timeless returns

theorem assert_timeless {p : Step ω α Bool} {g : α → Nat → Except Failure Bool}
    (gives : p.Gives g) : Timeless (assert p) fun _ => False := by
  have asserts : Step.Gives
      (fun a i now w => (asserted a i (p a i now w).1, (p a i now w).2) : Step ω α α)
      fun a i => asserted a i (g a i) := by
    intro a i now w
    exact congrArg (asserted a i) (gives a i now w)
  exact map_timeless asserts

theorem filter_timeless {p : Step ω α Bool} {g : α → Nat → Except Failure Bool}
    (gives : p.Gives g) : Timeless (filter p) fun _ => False := by
  refine timeless_of_item (fun _ _ _ => rfl) ?_ (fun _ _ _ _ => rfl) (fun _ _ _ => rfl)
    fun _ => rfl
  intro (i : Nat) a now w now' w'
  simp only [filter, outcome]
  rw [gives.eq a i now w, gives.eq a i now' w']

theorem distinct_timeless [DecidableEq κ] (key : α → κ) :
    Timeless (distinct key : Transducer ω α α) fun _ => False := by
  refine timeless_of_item (fun _ _ _ => rfl) ?_ (fun _ _ _ _ => rfl) (fun _ _ _ => rfl)
    fun _ => rfl
  intro (seen : List κ) a now w now' w'
  by_cases known : key a ∈ seen
  · simp [distinct, outcome, known]
  · simp [distinct, outcome, known]

theorem pairwise_timeless : Timeless (pairwise : Transducer ω α (α × α)) fun _ => False := by
  refine timeless_of_item (fun _ _ _ => rfl) ?_ (fun _ _ _ _ => rfl) (fun _ _ _ => rfl)
    fun _ => rfl
  intro (previous : Option α) a now w now' w'
  cases previous <;> rfl

theorem skipFirst_timeless (count : Nat) :
    Timeless (skipFirst count : Transducer ω α α) fun _ => False := by
  refine timeless_of_item (fun _ _ _ => rfl) ?_ (fun _ _ _ _ => rfl) (fun _ _ _ => rfl)
    fun _ => rfl
  intro (remaining : Nat) a now w now' w'
  cases remaining <;> rfl

theorem takeFirst_timeless (lasting : Bool) (count : Nat) :
    Timeless (takeFirst lasting count : Transducer ω α α) fun _ => False where
  before (remaining : Nat) now w now' w' := by
    cases remaining <;> rfl
  item _ _ _ _ _ _ := rfl
  fail _ _ _ _ _ _ := ⟨rfl, rfl⟩
  done _ _ _ _ _ := rfl
  holds _ := rfl
  closes _ _ _ := .inl ⟨.ended, rfl, rfl⟩
  goesOn := False.elim

theorem takeWhile_timeless (lasting : Bool) {p : Step ω α Bool} {g : α → Nat → Except Failure Bool}
    (gives : p.Gives g) : Timeless (takeWhile lasting p) fun _ => False where
  before (m : Taking) now w now' w' := by
    cases ended : m.ended <;> simp [takeWhile, outcome, ended]
  item (m : Taking) a now w now' w' := by
    simp only [takeWhile, outcome]
    rw [gives.eq a m.index now w, gives.eq a m.index now' w']
  fail _ _ _ _ _ _ := ⟨rfl, rfl⟩
  done _ _ _ _ _ := rfl
  holds _ := rfl
  closes _ _ _ := .inl ⟨.ended, rfl, rfl⟩
  goesOn := False.elim

/-- A collection that has been begun is handed out; only an input that has ended for good is not
asked again. -/
theorem flatMap_timeless (lasting : Bool) {f : Step ω α (List β)}
    {g : α → Nat → Except Failure (List β)} (gives : f.Gives g) :
    Timeless (flatMap lasting f) fun m => m.ended = true where
  before (m : Flattening β) now w now' w' := by
    obtain ⟨index, rest, ended⟩ := m
    cases rest with
    | nil => cases ended <;> rfl
    | cons b rest => rfl
  item (m : Flattening β) a now w now' w' := by
    simp only [flatMap, outcome]
    rw [gives.eq a m.index now w, gives.eq a m.index now' w']
    cases g a m.index <;> rfl
  fail _ _ _ _ _ _ := ⟨rfl, rfl⟩
  done _ _ _ _ _ := rfl
  holds {m} goesOn := by simpa [flatMap] using goesOn
  closes _ _ _ := .inl ⟨.ended, rfl, rfl⟩
  goesOn {m} ended now w := by
    obtain ⟨index, rest, _⟩ := m
    cases ended
    cases rest with
    | nil => exact ⟨_, rfl, .inl ⟨.ended, rfl, rfl⟩⟩
    | cons b rest => exact ⟨_, rfl, .inr rfl⟩

theorem defaultIfEmpty_timeless (value : α) :
    Timeless (defaultIfEmpty value : Transducer ω α α) fun m => m = .ended where
  before (m : Filling) now w now' w' := by
    cases m <;> rfl
  item _ _ _ _ _ _ := rfl
  fail _ _ _ _ _ _ := ⟨rfl, rfl⟩
  done _ _ _ _ _ := rfl
  holds goesOn := bne_iff_ne.mpr goesOn
  closes _ _ _ := .inr rfl
  goesOn := by
    rintro _ rfl now w
    exact ⟨_, rfl, .inl ⟨.ended, rfl, rfl⟩⟩

/-- A sorting stage has seen the whole input before it hands anything out. -/
theorem sort_timeless (notAfter : α → α → Bool) :
    Timeless (sort notAfter : Transducer ω α α) fun m => ∃ rest, m = .handing rest where
  before (m : Sorting α) now w now' w' := by
    rcases m with taken | (_ | ⟨a, rest⟩) <;> rfl
  item (m : Sorting α) a now w now' w' := by
    cases m <;> rfl
  fail _ _ _ _ _ _ := ⟨rfl, rfl⟩
  done (m : Sorting α) now w now' w' := by
    cases m <;> rfl
  holds {m} goesOn := by
    cases m with
    | collecting taken => rfl
    | handing rest => exact absurd ⟨rest, rfl⟩ goesOn
  closes (m : Sorting α) now w := by
    cases m <;> exact .inr ⟨_, rfl⟩
  goesOn := by
    rintro _ ⟨_ | ⟨a, rest⟩, rfl⟩ now w
    · exact ⟨_, rfl, .inl ⟨.ended, rfl, rfl⟩⟩
    · exact ⟨_, rfl, .inr ⟨rest, rfl⟩⟩

/-- The batch in the making is in the memory, and so is the leave to make one. -/
theorem batch_timeless (size width : Nat) :
    Timeless (batch size width : Transducer ω α (List α)) fun m => m.ended = true where
  before (m : Batching α) now w now' w' := by
    obtain ⟨taken, count, reserved, ended⟩ := m
    by_cases room : size ≤ roomFor width
    · cases ended <;> cases reserved <;> simp [batch, outcome, room]
    · cases ended <;> cases reserved <;> simp [batch, outcome, room]
  item (m : Batching α) a now w now' w' := by
    by_cases more : m.count + 1 < size
    · simp [batch, outcome, more]
    · simp [batch, outcome, more]
  fail _ _ _ _ _ _ := ⟨rfl, rfl⟩
  done _ _ _ _ _ := rfl
  holds _ := rfl
  closes _ _ _ := .inr rfl
  goesOn {m} ended now w := by
    refine ⟨(.done, m, w), if_pos ended, .inl ⟨.ended, rfl, rfl⟩⟩

/-- The element that is being worked on is in the memory. -/
theorem retry_timeless (failing : Bool) {judge : Judge ω α} {operation : Step ω α β}
    {g : α → Nat → Except Failure β} {d : Failure → α → Nat → Decision}
    (operates : operation.Gives g) (judges : judge.Gives d) :
    Timeless (retry failing judge operation) fun _ => False where
  before (m : Retrying α) now w now' w' := by
    obtain ⟨index, _ | ⟨a, i⟩⟩ := m
    · rfl
    · -- One attempt, and after a failed one the question what becomes of the element.
      obtain ⟨r, same⟩ : ∃ r, ∀ now w,
          ((retry failing judge operation).before ⟨index, some (a, i)⟩ now w).map
            (retry failing judge operation).outcome = some r := by
        cases result : g a i with
        | ok b =>
          refine ⟨(some (.item b), ⟨index, none⟩), fun now w => ?_⟩
          simp only [retry, outcome, Option.map_some]
          rw [operates.eq a i now w, result]
          rfl
        | error e =>
          cases decided : d e a i with
          | retry =>
            refine ⟨(none, ⟨index, some (a, i)⟩), fun now w => ?_⟩
            have judged := judges e a i now (operation a i now w).2
            rcases asked : judge e a i now (operation a i now w).2 with ⟨_ | _, w'⟩
            · simp only [retry, outcome, Option.map_some]
              rw [operates.eq a i now w, result]
              simp only [asked]
              rfl
            · rw [asked, decided] at judged
              cases judged
          | giveUp =>
            refine ⟨((givenUp failing e : Answer β).arrival?, ⟨index, none⟩), fun now w => ?_⟩
            have judged := judges e a i now (operation a i now w).2
            rcases asked : judge e a i now (operation a i now w).2 with ⟨_ | _, w'⟩
            · rw [asked, decided] at judged
              cases judged
            · simp only [retry, outcome, Option.map_some]
              rw [operates.eq a i now w, result]
              simp only [asked]
      rw [same, same]
  item _ _ _ _ _ _ := rfl
  fail _ _ _ _ _ _ := ⟨rfl, rfl⟩
  done _ _ _ _ _ := rfl
  holds _ := rfl
  closes _ _ _ := .inl ⟨.ended, rfl, rfl⟩
  goesOn := False.elim

theorem interruptEvery_timeless (count : Nat) :
    Timeless (interruptEvery count : Transducer ω α α) fun m => m.spent = true where
  before (m : Counting) now w now' w' := by
    obtain ⟨yielded, gaveWay, spent⟩ := m
    by_cases due : 0 < yielded ∧ yielded % count = 0 ∧ gaveWay = false
    · cases spent <;> simp [interruptEvery, outcome, due]
    · cases spent <;> simp [interruptEvery, outcome, due]
  item _ _ _ _ _ _ := rfl
  fail _ _ _ _ _ _ := ⟨rfl, rfl⟩
  done _ _ _ _ _ := rfl
  holds {m} goesOn := by simpa [interruptEvery] using goesOn
  closes _ _ _ := .inl ⟨.ended, rfl, rfl⟩
  goesOn {m} spent now w := ⟨(.spent, m, w), if_pos spent, .inr spent⟩

/-! ### Stages that pace their source -/

/-- Everything is passed on as it comes. -/
def passing : Score α α where
  Mind := Unit
  start := ()
  hear _ a := (some a, ())

theorem passing_closes (v : Unit) (a : Arrival α) (last : a.isLast = true) :
    EndsWith (passing.hear v a).1 ∨ False :=
  .inl ⟨a, rfl, last⟩

/-- A wait that is under way is in the memory. -/
theorem throttle_renders (pause : Pause ω) :
    Renders (throttle pause : Transducer ω α α) passing (fun m _ => m ≠ .spent)
      fun _ => False where
  start := nofun
  holds fit _ := bne_iff_ne.mpr fit
  asks _ _ := rfl
  own {m _ now w r} fit own := by
    left
    cases m with
    | first => cases own
    | asking => cases own
    | spent => exact absurd rfl fit
    | between =>
      cases own
      exact ⟨rfl, nofun⟩
    | waiting due =>
      simp only [throttle] at own
      split at own
      · cases own
        exact ⟨rfl, nofun⟩
      · cases own
        exact ⟨rfl, nofun⟩
  hears {m _} a now w _ _ := by
    cases a with
    | item a => exact ⟨rfl, fun _ => nofun⟩
    | failure e => exact ⟨rfl, fun _ => nofun⟩
    | ended => exact ⟨rfl, fun goesOn => absurd ⟨.ended, rfl, rfl⟩ goesOn⟩
  closes := passing_closes
  goesOn := False.elim

theorem interruptPerSecond_renders (times : Nat) (created : Time) :
    Renders (interruptPerSecond times created : Transducer ω α α) passing
      (fun m _ => m.spent = false) fun _ => False where
  start := rfl
  holds {m _} fit _ := by simpa [interruptPerSecond] using fit
  asks _ _ := rfl
  own {m _ now w r} fit own := by
    left
    simp only [interruptPerSecond, fit, Bool.false_eq_true, if_false] at own
    split at own
    · cases own
    · split at own
      · cases own
        exact ⟨rfl, rfl⟩
      · cases own
        exact ⟨rfl, rfl⟩
  hears {m _} a now w fit _ := by
    cases a with
    | item a => exact ⟨rfl, fun _ => fit⟩
    | failure e => exact ⟨rfl, fun _ => fit⟩
    | ended => exact ⟨rfl, fun goesOn => absurd ⟨.ended, rfl, rfl⟩ goesOn⟩
  closes := passing_closes
  goesOn := False.elim

/-! ### Stages that hold one thing back -/

/-- What comes of an element is held back, and said before the next one is asked for. The mind is
the index of the next element and what is held back. -/
def holding (result : α → Nat → Option (Arrival β)) : Score α β where
  Mind := Nat × Option (Option (Arrival β))
  start := (0, none)
  own v := v.2.map fun held => (held, (v.1, none))
  hear v
    | .item a => (none, (v.1 + 1, some (result a v.1)))
    | .failure e => (some (.failure e), v)
    | .ended => (some .ended, v)

/-- The pending result is the one that is held back. -/
inductive Awaited : Awaiting ω (Answer β) → Nat × Option (Option (Arrival β)) → Prop where
  | idle {n} : Awaited ⟨n, none⟩ (n, none)
  | held {n p held} : (∀ now w, (p.finish now w).1.arrival? = held) →
      Awaited ⟨n, some p⟩ (n, some held)

theorem deferring_renders {f : α → Nat → Time → ω → Deferred ω (Answer β) × ω}
    {result : α → Nat → Option (Arrival β)}
    (gives : ∀ a i now w now' w', ((f a i now w).1.finish now' w').1.arrival? = result a i) :
    Renders (deferring f) (holding result) Awaited fun _ => False where
  start := .idle
  holds _ _ := rfl
  asks fit asks := by
    cases fit with
    | idle => rfl
    | held => cases asks
  own {m v now w r} fit own := by
    cases fit with
    | idle => cases own
    | @held n p held finishes =>
      simp only [deferring, Option.map_some] at own
      split at own
      · cases own
        exact .inl ⟨rfl, .held finishes⟩
      · cases own
        right
        refine ⟨(n, none), ?_, fun _ => .idle⟩
        rw [finishes]
        rfl
  hears a now w fit asks := by
    cases fit with
    | held => cases asks
    | @idle n =>
      cases a with
      | item a => exact ⟨rfl, fun _ => .held fun now' w' => gives a n now w now' w'⟩
      | failure e => exact ⟨rfl, fun _ => .idle⟩
      | ended => exact ⟨rfl, fun _ => .idle⟩
  closes v a last := by
    cases a with
    | item a => cases last
    | failure e => exact .inl ⟨_, rfl, rfl⟩
    | ended => exact .inl ⟨_, rfl, rfl⟩
  goesOn := False.elim

theorem mapAsync_renders {f : SlowStep ω α β} {g : α → Nat → Except Failure β}
    (gives : f.Gives g) :
    Renders (mapAsync f) (holding fun a i => (Answer.ofExcept (g a i)).arrival?) Awaited
      fun _ => False := by
  apply deferring_renders
  intro a i now w now' w'
  exact congrArg (fun r => (Answer.ofExcept r).arrival?) (gives a i now w now' w')

theorem filterAsync_renders {p : SlowStep ω α Bool} {g : α → Nat → Except Failure Bool}
    (gives : p.Gives g) :
    Renders (filterAsync p) (holding fun a i => (Answer.ofDecision a (g a i)).arrival?) Awaited
      fun _ => False := by
  apply deferring_renders
  intro a i now w now' w'
  exact congrArg (fun r => (Answer.ofDecision a r).arrival?) (gives a i now w now' w')

theorem interceptAsync_renders {f : SlowStep ω α Unit} {g : α → Nat → Except Failure Unit}
    (gives : f.Gives g) :
    Renders (interceptAsync f)
      (holding fun a i => (Answer.ofExcept ((g a i).map fun _ => a)).arrival?) Awaited
      fun _ => False := by
  have returns : (f.map fun a _ => a).Gives fun a i => (g a i).map fun _ => a := by
    intro a i now w now' w'
    exact congrArg (Except.map fun _ => a) (gives a i now w now' w')
  exact mapAsync_renders returns

/-- Items and failures are held back, and said before the next arrival is asked for. -/
def arrivingLate : Score α α where
  Mind := Option (Arrival α)
  start := none
  own v := v.map fun a => (some a, none)
  hear _
    | .ended => (some .ended, none)
    | a => (none, some a)

theorem arriving_renders (delay : Nat → Time) :
    Renders (arriving delay : Transducer ω α α) arrivingLate
      (fun m v => m.pending.map (·.2.arrival?) = v.map some)
      fun v => ∃ e, v = some (.failure e) where
  start := rfl
  holds _ _ := rfl
  asks {m v now w} fit asks := by
    obtain ⟨index, _ | ⟨due, a⟩⟩ := m
    · cases v with
      | none => rfl
      | some a => cases fit
    · cases asks
  own {m v now w r} fit own := by
    obtain ⟨index, _ | ⟨due, a⟩⟩ := m
    · cases own
    cases v with
    | none => cases fit
    | some b =>
      have same : a.arrival? = some b := Option.some.inj fit
      simp only [arriving, Option.map_some] at own
      split at own
      · cases own
        exact .inl ⟨rfl, fit⟩
      · cases own
        right
        refine ⟨none, ?_, fun _ => rfl⟩
        rw [same]
        rfl
  hears {m v} a now w fit asks := by
    cases a with
    | item a => exact ⟨rfl, fun _ => rfl⟩
    | failure e => exact ⟨rfl, fun _ => rfl⟩
    | ended => exact ⟨rfl, fun goesOn => absurd ⟨.ended, rfl, rfl⟩ goesOn⟩
  closes v a last := by
    cases a with
    | item a => cases last
    | failure e => exact .inr ⟨e, rfl⟩
    | ended => exact .inl ⟨_, rfl, rfl⟩
  goesOn := by
    rintro _ ⟨e, rfl⟩
    exact ⟨_, rfl, .inl ⟨_, rfl, rfl⟩⟩

/-! ### Attempts that take a while -/

/-- Where `retryAsync` is with an element. -/
inductive Trying (α : Type) where
  | idle
  | ready (a : α) (index : Nat)
  | trying (a : α) (index : Nat)
  | judging (a : α) (index : Nat) (failure : Failure)

/-- Attempts and decisions, one after the other. -/
def retrying (failing : Bool) (d : Failure → α → Nat → Decision)
    (g : α → Nat → Except Failure β) : Score α β where
  Mind := Nat × Trying α
  start := (0, .idle)
  own v :=
    match v.2 with
    | .idle => none
    | .ready a i => some (none, (v.1, .trying a i))
    | .trying a i =>
      match g a i with
      | .ok b => some (some (.item b), (v.1, .idle))
      | .error e => some (none, (v.1, .judging a i e))
    | .judging a i e =>
      match d e a i with
      | .retry => some (none, (v.1, .ready a i))
      | .giveUp => some ((givenUp failing e : Answer β).arrival?, (v.1, .idle))
  hear v
    | .item a => (none, (v.1 + 1, .ready a v.1))
    | .failure e => (some (.failure e), v)
    | .ended => (some .ended, v)

/-- What is under way comes to what the score has. -/
inductive Tries (d : Failure → α → Nat → Decision) (g : α → Nat → Except Failure β) :
    RetryingAsync ω α β → Nat × Trying α → Prop where
  | idle {n} : Tries d g ⟨n, .idle⟩ (n, .idle)
  | ready {n a i} : Tries d g ⟨n, .ready a i⟩ (n, .ready a i)
  | trying {n a i p} : (∀ now w, (p.finish now w).1 = g a i) →
      Tries d g ⟨n, .trying a i p⟩ (n, .trying a i)
  | judging {n a i e p} : (∀ now w, (p.finish now w).1 = d e a i) →
      Tries d g ⟨n, .judging a i e p⟩ (n, .judging a i e)

section RetryingAsync

variable {failing : Bool} {judge : SlowJudge ω α} {operation : SlowStep ω α β}
  {g : α → Nat → Except Failure β} {d : Failure → α → Nat → Decision} {n i : Nat} {a : α}
  {now : Time} {w : ω} {r : Answer β × RetryingAsync ω α β × ω}

/-- An attempt that is under way is waited for; then it has its result, or is judged. -/
theorem trying_own (judges : judge.Gives d) {p : Pending ω (Except Failure β)}
    (finishes : ∀ now w, (p.finish now w).1 = g a i)
    (own : (retryAsync failing judge operation).before ⟨n, .trying a i p⟩ now w = some r) :
    (r.1.arrival? = none ∧ Tries d g r.2.1 (n, .trying a i)) ∨
      ∃ v, (retrying failing d g).own (n, .trying a i) = some (r.1.arrival?, v) ∧
        Tries d g r.2.1 v := by
  have result := finishes now w
  simp only [retryAsync] at own
  split at own
  · cases own
    exact .inl ⟨rfl, .trying finishes⟩
  · right
    split at own
    · rename_i b w' finished
      rw [finished] at result
      cases own
      refine ⟨(n, .idle), ?_, .idle⟩
      simp only [retrying, ← result]
      rfl
    · rename_i e w' finished
      rw [finished] at result
      cases own
      refine ⟨(n, .judging a i e), ?_, .judging ?_⟩
      · simp only [retrying, ← result]
        rfl
      · exact fun now' w'' => judges e a i now w' now' w''

/-- A decision that is under way is waited for; then the element is tried again, or given up. -/
theorem judging_own {e : Failure} {p : Pending ω Decision}
    (finishes : ∀ now w, (p.finish now w).1 = d e a i)
    (own : (retryAsync failing judge operation).before ⟨n, .judging a i e p⟩ now w = some r) :
    (r.1.arrival? = none ∧ Tries d g r.2.1 (n, .judging a i e)) ∨
      ∃ v, (retrying failing d g).own (n, .judging a i e) = some (r.1.arrival?, v) ∧
        Tries d g r.2.1 v := by
  have result := finishes now w
  simp only [retryAsync] at own
  split at own
  · cases own
    exact .inl ⟨rfl, .judging finishes⟩
  · right
    split at own
    · rename_i w' finished
      rw [finished] at result
      cases own
      refine ⟨(n, .ready a i), ?_, .ready⟩
      simp only [retrying, ← result]
      rfl
    · rename_i w' finished
      rw [finished] at result
      cases own
      refine ⟨(n, .idle), ?_, .idle⟩
      simp only [retrying, ← result]

end RetryingAsync

/-- How often an element has been tried, and what it waits for, is in the memory. -/
theorem retryAsync_renders (failing : Bool) {judge : SlowJudge ω α} {operation : SlowStep ω α β}
    {g : α → Nat → Except Failure β} {d : Failure → α → Nat → Decision}
    (operates : operation.Gives g) (judges : judge.Gives d) :
    Renders (retryAsync failing judge operation) (retrying failing d g) (Tries d g)
      fun _ => False where
  start := .idle
  holds fit _ := by
    cases fit <;> rfl
  asks {m v now w} fit asks := by
    cases fit with
    | idle => rfl
    | ready => cases asks
    | trying _ =>
      simp only [retryAsync] at asks
      split at asks
      · cases asks
      · split at asks <;> cases asks
    | judging _ =>
      simp only [retryAsync] at asks
      split at asks
      · cases asks
      · split at asks <;> cases asks
  own {m v now w r} fit own := by
    cases fit with
    | idle => cases own
    | ready =>
      cases own
      exact .inr ⟨_, rfl, fun _ => .trying fun now' w' => operates _ _ now w now' w'⟩
    | trying finishes =>
      refine (trying_own judges finishes own).imp_right ?_
      exact fun ⟨v, speaks, fit⟩ => ⟨v, speaks, fun _ => fit⟩
    | judging finishes =>
      refine (judging_own finishes own).imp_right ?_
      exact fun ⟨v, speaks, fit⟩ => ⟨v, speaks, fun _ => fit⟩
  hears a now w fit asks := by
    cases fit with
    | idle =>
      cases a with
      | item a => exact ⟨rfl, fun _ => .ready⟩
      | failure e => exact ⟨rfl, fun goesOn => absurd ⟨_, rfl, rfl⟩ goesOn⟩
      | ended => exact ⟨rfl, fun goesOn => absurd ⟨_, rfl, rfl⟩ goesOn⟩
    | ready => cases asks
    | trying _ =>
      simp only [retrying] at asks
      split at asks <;> cases asks
    | judging _ =>
      simp only [retrying] at asks
      split at asks <;> cases asks
  closes v a last := by
    cases a with
    | item a => cases last
    | failure e => exact .inl ⟨_, rfl, rfl⟩
    | ended => exact .inl ⟨_, rfl, rfl⟩
  goesOn := False.elim

end Transducer
end PullStream
