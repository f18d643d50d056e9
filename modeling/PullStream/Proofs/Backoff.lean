import Mathlib.Data.List.DropRight
import Mathlib.Data.List.Induction
import PullStream.Backoff
import PullStream.Proofs.Number.Value

/-!
A delay follows its closed form.

The delay is capped at every step, and the step behind starts from what was capped. As a step
never makes a delay shorter, capping once at the end comes to the same (`cap_grown_cap`), so the
delay is what the initial one has grown to since the last reset, or the maximum. All this is
about growth by a whole number, small enough for no step to be rounded.

* `nextDelay_eq` — a step is exact.
* `run_follows` — the closed form, after every history of calls.
* `delay_closed_form` — the contract of a delay, spelled out.
-/

namespace PullStream

namespace Settings.Backoff

variable {settings : Settings.Backoff} {g : Int}

/-- The delay grows by the integer `g`, and a step from the maximum stays within the integers
that are exact, so that no step is rounded. -/
structure Whole (settings : Settings.Backoff) (g : Int) : Prop where
  increase : settings.increase.value? = some (g : ℚ)
  linear : settings.strategy = .linear → settings.maximum + g ≤ 2 ^ 53
  exponential : settings.strategy = .exponential → settings.maximum * g ≤ 2 ^ 53

/-- Settings that can be used have their bounds in order, and grow. -/
theorem usable_of_validate (valid : settings.validate = .ok ()) :
    settings.initial ≤ settings.maximum ∧ settings.increase.atMost (.zero false) = false := by
  unfold validate at valid
  split at valid
  · cases valid
  · split at valid
    · cases valid
    · rename_i bounds
      split at valid
      · cases valid
      · rename_i grows
        simp only [Bool.not_eq_true, Bool.or_eq_false_iff] at grows
        exact ⟨Nat.le_of_not_lt bounds, grows.2⟩

/-- Growth by a whole number is by one at least. -/
theorem Whole.one_le (whole : Whole settings g) (valid : settings.validate = .ok ()) : 1 ≤ g := by
  have zero : (Binary64.zero false).value? = some 0 := by
    simp [Binary64.zero, Binary64.value?, Binary64.signed]
  obtain ⟨-, above⟩ := usable_of_validate valid
  rw [← Bool.not_eq_true, Binary64.atMost_iff whole.increase zero, not_le] at above
  exact_mod_cast above

end Settings.Backoff

namespace Backoff

variable {strategy : Settings.Strategy} {settings : Settings.Backoff} {g : Int} {b : Backoff}

/-! ### Steps -/

/-- What a delay has grown to after `k` steps, with no maximum: by an amount, `delay + k * g`,
or by a factor, `delay * g ^ k`. -/
def grown (strategy : Settings.Strategy) (g delay : Int) (k : Nat) : Int :=
  match strategy with
  | .linear => delay + k * g
  | .exponential => delay * g ^ k

theorem grown_zero (delay : Int) : grown strategy g delay 0 = delay := by
  cases strategy <;> simp [grown]

theorem grown_succ (delay : Int) (k : Nat) :
    grown strategy g delay (k + 1) = grown strategy g (grown strategy g delay k) 1 := by
  cases strategy with
  | linear =>
    simp only [grown]
    push_cast
    ring
  | exponential => simp only [grown, pow_succ, pow_zero, one_mul, mul_assoc]

/-- A longer delay grows to a longer one. -/
theorem grown_mono (positive : 1 ≤ g) {delay delay' : Int} (longer : delay ≤ delay') :
    grown strategy g delay 1 ≤ grown strategy g delay' 1 := by
  cases strategy with
  | linear => simpa [grown] using longer
  | exponential =>
    simp only [grown, pow_one]
    exact mul_le_mul_of_nonneg_right longer (by omega)

/-- No number of steps makes a delay shorter. -/
theorem le_grown (positive : 1 ≤ g) {delay : Int} (nonneg : 0 ≤ delay) (k : Nat) :
    delay ≤ grown strategy g delay k := by
  cases strategy with
  | linear => exact le_add_of_nonneg_right (mul_nonneg (Int.natCast_nonneg k) (by omega))
  | exponential => exact le_mul_of_one_le_right nonneg (one_le_pow₀ positive)

/-- Capping before a step and behind it comes to capping behind it. -/
theorem cap_grown_cap (positive : 1 ≤ g) {delay maximum : Int} (nonneg : 0 ≤ maximum) :
    min (grown strategy g (min delay maximum) 1) maximum =
      min (grown strategy g delay 1) maximum := by
  rcases le_total delay maximum with within | beyond
  · rw [min_eq_left within]
  · have top : maximum ≤ grown strategy g maximum 1 := le_grown positive nonneg 1
    have higher := top.trans (grown_mono positive beyond)
    rw [min_eq_right beyond, min_eq_right top, min_eq_right higher]

/-- A step from the maximum stays within the integers that are exact. -/
theorem room_of_whole (whole : settings.Whole g) :
    grown settings.strategy g settings.maximum 1 ≤ 2 ^ 53 := by
  cases strategy : settings.strategy with
  | linear => simpa [grown] using whole.linear strategy
  | exponential => simpa [grown] using whole.exponential strategy

/-- A step by a whole number is exact, and capped. -/
theorem nextDelay_eq {increase : Binary64} {current maximum : Nat}
    (value : increase.value? = some (g : ℚ)) (positive : 1 ≤ g)
    (room : grown strategy g current 1 ≤ 2 ^ 53) :
    (nextDelay strategy current increase maximum : Int) =
      min (grown strategy g current 1) maximum := by
  have kept : (current : Int) ≤ grown strategy g current 1 :=
    le_grown positive (Int.natCast_nonneg current) 1
  have small : current ≤ Binary64.exactLimit := by
    simp only [Binary64.exactLimit]
    omega
  have limit : (grown strategy g current 1).natAbs ≤ Binary64.exactLimit := by
    simp only [Binary64.exactLimit]
    omega
  have here := Binary64.ofNat_value small
  have capped : ∀ {next : Binary64}, next.value? = some ((grown strategy g current 1 : Int) : ℚ) →
      ((min next.toNat64 maximum : Nat) : Int) = min (grown strategy g current 1) maximum := by
    intro next exact
    rw [Nat.cast_min, Binary64.toNat64_value exact (by omega) (by simp [wordLimit, twoTo]; omega)]
  cases strategy with
  | linear => exact capped (Binary64.add_value here value (by simp [grown]) limit)
  | exponential => exact capped (Binary64.mul_value here value (by simp [grown]) limit)

/-! ### Histories -/

/-- What may be done to a delay. -/
inductive Call where
  /-- Waits, with a draw, from an instant, until the delay is over or the stop comes. -/
  | wait (draw : Binary64) (now : Time) (stop : Option Time)
  | advance
  | reset
  deriving DecidableEq, Repr

/-- Whether a call lets the delay grow. -/
def Call.grows : Call → Bool
  | .wait _ _ _ | .advance => true
  | .reset => false

/-- The delay behind a call, whatever the call answers. -/
def after (b : Backoff) : Call → Backoff
  | .wait draw now stop => (b.wait draw now stop).2
  | .advance => b.advance
  | .reset => b.reset

/-- The delay behind a history of calls. -/
def run (b : Backoff) (calls : List Call) : Backoff :=
  calls.foldl after b

/-- How many calls have let the delay grow since the last reset. -/
def growths (calls : List Call) : Nat :=
  (calls.rtakeWhile Call.grows).length

theorem run_snoc (b : Backoff) (calls : List Call) (call : Call) :
    b.run (calls ++ [call]) = (b.run calls).after call := by
  rw [run, List.foldl_append]
  rfl

theorem after_grows {call : Call} (grows : call.grows = true) : b.after call = b.advance := by
  cases call with
  | wait => rfl
  | advance => rfl
  | reset => cases grows

theorem after_reset {call : Call} (resets : call.grows = false) : b.after call = b.reset := by
  cases call with
  | wait => cases resets
  | advance => cases resets
  | reset => rfl

theorem growths_snoc (calls : List Call) {call : Call} (grows : call.grows = true) :
    growths (calls ++ [call]) = growths calls + 1 := by
  rw [growths, List.rtakeWhile_concat_pos _ _ _ grows, List.length_append, growths]
  rfl

theorem growths_reset (calls : List Call) {call : Call} (resets : call.grows = false) :
    growths (calls ++ [call]) = 0 := by
  rw [growths, List.rtakeWhile_concat_neg _ _ _ (by simp [resets])]
  rfl

/-- Without a reset every call lets the delay grow. -/
theorem growths_append (calls : List Call) {more : List Call} (unreset : .reset ∉ more) :
    growths (calls ++ more) = growths calls + more.length := by
  induction more using List.reverseRecOn with
  | nil => simp
  | append_singleton more call ih =>
    simp only [List.mem_append, List.mem_singleton, not_or] at unreset
    have grows : call.grows = true := by
      cases call with
      | wait => rfl
      | advance => rfl
      | reset => exact absurd rfl unreset.2
    rw [← List.append_assoc, growths_snoc _ grows, ih unreset.1, List.length_append, Nat.add_assoc]
    rfl

/-! ### The closed form -/

/-- The delay after `k` steps from the initial one. -/
def closedForm (settings : Settings.Backoff) (g : Int) (k : Nat) : Int :=
  min (grown settings.strategy g settings.initial k) settings.maximum

/-- A delay that is where `k` steps lead from the initial one. -/
structure Follows (settings : Settings.Backoff) (g : Int) (k : Nat) (b : Backoff) : Prop where
  set : b.settings = settings
  delay : (b.current : Int) = closedForm settings g k

theorem closedForm_zero (bounds : settings.initial ≤ settings.maximum) :
    closedForm settings g 0 = settings.initial := by
  rw [closedForm, grown_zero, min_eq_left (by exact_mod_cast bounds)]

theorem closedForm_succ (positive : 1 ≤ g) (k : Nat) :
    closedForm settings g (k + 1) =
      min (grown settings.strategy g (closedForm settings g k) 1) settings.maximum := by
  rw [closedForm, closedForm, grown_succ, cap_grown_cap positive (Int.natCast_nonneg _)]

theorem closedForm_le (settings : Settings.Backoff) (g : Int) (k : Nat) :
    closedForm settings g k ≤ settings.maximum :=
  min_le_right _ _

/-- One step more never makes the delay shorter. -/
theorem closedForm_le_succ (positive : 1 ≤ g) (k : Nat) :
    closedForm settings g k ≤ closedForm settings g (k + 1) := by
  have grew : (settings.initial : Int) ≤ grown settings.strategy g settings.initial k :=
    le_grown positive (Int.natCast_nonneg _) k
  have nonneg : 0 ≤ closedForm settings g k :=
    le_min ((Int.natCast_nonneg _).trans grew) (Int.natCast_nonneg _)
  rw [closedForm_succ positive]
  exact le_min (le_grown positive nonneg 1) (closedForm_le _ _ _)

namespace Follows

variable {k : Nat}

theorem reset (follows : Follows settings g k b) (bounds : settings.initial ≤ settings.maximum) :
    Follows settings g 0 b.reset := by
  refine ⟨follows.set, ?_⟩
  rw [closedForm_zero bounds, Backoff.reset, follows.set]

theorem advance (follows : Follows settings g k b) (whole : settings.Whole g) (positive : 1 ≤ g) :
    Follows settings g (k + 1) b.advance := by
  obtain ⟨rfl, delay⟩ := follows
  refine ⟨rfl, ?_⟩
  have room : grown b.settings.strategy g b.current 1 ≤ 2 ^ 53 := by
    rw [delay]
    exact (grown_mono positive (closedForm_le _ _ _)).trans (room_of_whole whole)
  rw [Backoff.advance, closedForm_succ positive, ← delay]
  exact nextDelay_eq whole.increase positive room

end Follows

/-- The delay is where the steps since the last reset lead. -/
theorem run_follows (bounds : settings.initial ≤ settings.maximum) (whole : settings.Whole g)
    (positive : 1 ≤ g) (calls : List Call) :
    Follows settings g (growths calls) (run ⟨settings, settings.initial⟩ calls) := by
  -- From the end of the history, so that one more call is one more step.
  induction calls using List.reverseRecOn with
  | nil => exact ⟨rfl, (closedForm_zero bounds).symm⟩
  | append_singleton calls call ih =>
    rw [run_snoc]
    cases grows : call.grows with
    | true =>
      rw [after_grows grows, growths_snoc calls grows]
      exact ih.advance whole positive
    | false =>
      rw [after_reset grows, growths_reset calls grows]
      exact ih.reset bounds

/-! ### The contract -/

/-- The delay of settings that can be used and grow by a whole number follows its closed form,
after every history of waits, whether they are cut short or not, of steps without a wait, and of
resets. So it keeps to its bounds, never gets shorter between resets, and stays at the maximum
once it is there. -/
theorem delay_closed_form (settings : Settings.Backoff) (g : Int)
    (valid : settings.validate = .ok ()) (whole : settings.Whole g) :
    ∃ b, create settings = .ok b ∧ ∀ calls : List Call,
      let delay : Nat := (b.run calls).current
      (settings.strategy = .linear →
        (delay : Int) = min (settings.initial + growths calls * g) settings.maximum) ∧
      (settings.strategy = .exponential →
        (delay : Int) = min (settings.initial * g ^ growths calls) settings.maximum) ∧
      settings.initial ≤ delay ∧ delay ≤ settings.maximum ∧
      ∀ more : List Call, .reset ∉ more →
        delay ≤ (b.run (calls ++ more)).current ∧
        (delay = settings.maximum → (b.run (calls ++ more)).current = settings.maximum) := by
  obtain ⟨bounds, -⟩ := Settings.Backoff.usable_of_validate valid
  have positive := whole.one_le valid
  have monotone : Monotone (closedForm settings g) :=
    monotone_nat_of_le_succ (closedForm_le_succ positive)
  refine ⟨⟨settings, settings.initial⟩, by rw [create, valid], fun calls => ?_⟩
  have follows : ∀ calls, ((run ⟨settings, settings.initial⟩ calls).current : Int) =
      closedForm settings g (growths calls) :=
    fun calls => (run_follows bounds whole positive calls).delay
  have here := follows calls
  have capped : ∀ calls, (run ⟨settings, settings.initial⟩ calls).current ≤ settings.maximum := by
    intro calls
    exact_mod_cast (follows calls).trans_le (closedForm_le _ _ _)
  refine ⟨?_, ?_, ?_, capped calls, fun more unreset => ?_⟩
  · intro linear
    simpa only [closedForm, grown, linear] using here
  · intro exponential
    simpa only [closedForm, grown, exponential] using here
  · have atFirst := monotone (Nat.zero_le (growths calls))
    rw [closedForm_zero bounds, ← here] at atFirst
    exact_mod_cast atFirst
  · have behind := monotone (Nat.le_add_right (growths calls) more.length)
    rw [← growths_append calls unreset, ← here, ← follows] at behind
    have longer : (run ⟨settings, settings.initial⟩ calls).current ≤
        (run ⟨settings, settings.initial⟩ (calls ++ more)).current := by exact_mod_cast behind
    exact ⟨longer, fun top => le_antisymm (capped _) (top.symm.trans_le longer)⟩

/-- A delay that doubles, behind a wait that lasts, one that is cut short and a step, and then
behind a reset. -/
theorem delay_closed_form_doubling :
    let settings := Settings.Backoff.exponential 100 (.ofNat 2) 5000
    let calls : List Call := [.wait leastDraw 0 none, .wait leastDraw 100 (some 150), .advance]
    settings.validate = .ok () ∧ settings.Whole 2 ∧ ∃ b, create settings = .ok b ∧
      (b.run calls).current = 800 ∧ (b.run (calls ++ calls)).current = 5000 ∧
      (b.run (calls ++ [.reset, .advance])).current = 200 := by
  intro settings calls
  have valid : settings.validate = .ok () := by decide +kernel
  have increase : settings.increase.value? = some ((2 : Int) : ℚ) := by
    have two := Binary64.ofNat_value (show 2 ≤ Binary64.exactLimit by decide)
    exact_mod_cast two
  have whole : settings.Whole 2 :=
    ⟨increase, fun linear => absurd linear (by decide), fun _ => by decide⟩
  obtain ⟨b, created, follows⟩ := delay_closed_form settings 2 valid whole
  have value : ∀ history : List Call,
      ((b.run history).current : Int) = min (100 * 2 ^ growths history) 5000 :=
    fun history => (follows history).2.1 rfl
  refine ⟨valid, whole, b, created, ?_, ?_, ?_⟩
  · exact_mod_cast value calls
  · exact_mod_cast value (calls ++ calls)
  · exact_mod_cast value (calls ++ [Call.reset, .advance])

end Backoff
end PullStream
