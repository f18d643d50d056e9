import PullStream.Proofs.Machine.Pulls
import PullStream.Proofs.Stage.Conversing

/-!
Uses of machines that leave notes.

A machine and the step functions above it may note what they do where a view of the world shows it.
What has been noted is then told by what has happened, one event after the other; a note may leave
out what one does not care for. Up to the first failure or end a guarded machine is used as the
machine is, and behind a failure it does nothing.

* `Machine.Notes`, `noted` — notes, and what is noted of some events.
* `Machine.Uses.unguarded`, `Machine.guarded_stops` — guarded machines up to the first failure and
  behind it.
-/

namespace PullStream

variable {ω ν ε α : Type} {view : ω → ν}

/-! ### Notes -/

/-- A machine that notes each of its answers where `view` shows it. -/
structure Machine.Notes (m : Machine ω α) (view : ω → ν) (note : Answer α → ν → ν) : Prop where
  poll : ∀ s now w, view (m.poll s now w).2.2 = note (m.poll s now w).1 (view w)
  tick : ∀ s now w, view (m.tick s now w).2.2 = view w

/-- What is noted of some events, one after the other. -/
def noted (note : ε → ν → ν) (before : ν) (events : List ε) : ν :=
  events.foldl (fun x event => note event x) before

theorem noted_concat (note : ε → ν → ν) (before : ν) (events : List ε) (event : ε) :
    noted note before (events ++ [event]) = note event (noted note before events) := by
  rw [noted, List.foldl_append]
  rfl

/-! ### Guarded machines -/

namespace Machine

variable {m : Machine ω α} {t : m.guarded.State} {answers : List (Answer α)}

/-- Up to the first failure or end a guarded machine is used as the machine is. -/
theorem Uses.unguarded {before x : ν} (used : m.guarded.Uses view before t x answers)
    (front : Unended (arrivals answers.dropLast)) :
    m.Uses view before t.1 x answers ∧ (t.2 = true → ¬ Unended (arrivals answers)) := by
  induction used with
  | start => exact ⟨.start, nofun⟩
  | @poll t x answers _ now w same ih =>
    rw [List.dropLast_concat] at front
    obtain ⟨used, failed⟩ := ih front.arrivals_dropLast
    obtain ⟨s, _ | _⟩ := t
    · rw [guarded_poll_going]
      refine ⟨used.poll now w same, fun failed unended => ?_⟩
      obtain ⟨e, fails⟩ := Answer.isFailure_iff.mp failed
      have last := unended (.failure e) (by simp [arrivals_concat, fails, Answer.arrival?])
      cases last
    · exact absurd front (failed rfl)
  | tick _ now w same ih =>
    obtain ⟨used, failed⟩ := ih front
    exact ⟨used.tick now w same, failed⟩

/-- As long as more may arrive a guarded machine is used as the machine is, and has not failed. -/
theorem Uses.going {before x : ν} (used : m.guarded.Uses view before t x answers)
    (more : Unended (arrivals answers)) : m.Uses view before t.1 x answers ∧ t.2 = false := by
  obtain ⟨used, failed⟩ := used.unguarded more.arrivals_dropLast
  exact ⟨used, eq_false_of_ne_true fun past => failed past more⟩

/-- Whoever uses a machine may look at nothing. -/
theorem Reach.uses {s : m.State} (reached : m.Reach s answers) :
    m.Uses (fun _ => ()) () s () answers := by
  induction reached with
  | start => exact .start
  | poll _ now w ih => exact ih.poll now w rfl
  | tick _ now w ih => exact ih.tick now w rfl

/-- However it is looked at, a machine is where its answers lead. -/
theorem Uses.reach {before x : ν} {s : m.State} (used : m.Uses view before s x answers) :
    m.Reach s answers := by
  induction used with
  | start => exact .start
  | poll _ now w _ ih => exact ih.poll now w
  | tick _ now w _ ih => exact ih.tick now w

/-- Up to the first failure or end a guarded machine is where the machine is. -/
theorem Reach.unguarded (reached : m.guarded.Reach t answers)
    (front : Unended (arrivals answers.dropLast)) :
    m.Reach t.1 answers ∧ (t.2 = true → ¬ Unended (arrivals answers)) :=
  (reached.uses.unguarded front).imp_left Uses.reach

theorem Reach.going (reached : m.guarded.Reach t answers) (more : Unended (arrivals answers)) :
    m.Reach t.1 answers ∧ t.2 = false :=
  (reached.uses.going more).imp_left Uses.reach

/-- Until a failure a guarded machine answers as the machine does. -/
theorem guarded_asks (going : t.2 = false) {now : Time} {w : ω} {a : Answer α}
    (answer : (m.guarded.poll t now w).1 = a) : (m.poll t.1 now w).1 = a := by
  obtain ⟨s, failed⟩ := t
  cases going
  rwa [guarded_poll_going] at answer

/-- Behind its first failure a guarded machine reports the end, and does nothing. -/
theorem guarded_stops (reached : m.guarded.Reach t answers) {e : Failure}
    (failed : .fail e ∈ answers) (now : Time) (w : ω) :
    m.guarded.poll t now w = (.done, t, w) := by
  cases reached.guarded with
  | going _ clean => exact absurd failed (clean e)
  | failed n _ _ => exact guarded_poll_failed _ now w

end Machine
end PullStream
