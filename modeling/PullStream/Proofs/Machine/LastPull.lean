import PullStream.Proofs.Machine.Reach

/-!
The last pull of a machine.

A task that is let go may still have asked its source. What it asks from then on is the rest of
that one pull: it is asked again as long as the pull goes on, and by the first answer that says
more the pull is over (`Machine.LastPull`). In the meantime background work goes on
(`Ticked`), and when the task has returned the source is told that nobody will ask it again.

* `Machine.Asked` — what a machine is asked, from some state on.
* `Machine.LastPull` — all of it is one pull, `LastPull.outputs_le` that this brings one entry.
-/

namespace PullStream

variable {σ ω α : Type}

/-- The pull goes on: it has not come to an item, a failure, the end or a breakdown. -/
def Answer.isPending : Answer α → Bool
  | .skip | .pause | .wait => true
  | _ => false

/-- As long as a pull goes on it brings nothing. -/
theorem outputs_of_isPending {answers : List (Answer α)}
    (pending : ∀ a ∈ answers, a.isPending = true) : outputs answers = [] := by
  rw [outputs, List.filterMap_eq_nil_iff]
  intro a member
  have still := pending a member
  cases a with
  | item => cases still
  | signal g =>
    cases g with
    | fail => cases still
    | _ => rfl

/-- What background work comes to from `s`, at any instants and in any worlds. -/
inductive Ticked (tick : σ → Time → ω → Bool × σ × ω) (s : σ) : σ → Prop where
  | refl : Ticked tick s s
  | step {t} : Ticked tick s t → ∀ now w, Ticked tick s (tick t now w).2.1

/-- What holds from `s` on holds of all that background work comes to. -/
theorem Ticked.kept {tick : σ → Time → ω → Bool × σ × ω} {s t : σ} (kept : σ → Prop)
    (stays : ∀ t now w, kept t → kept (tick t now w).2.1) (ticked : Ticked tick s t)
    (here : kept s) : kept t := by
  induction ticked with
  | refl => exact here
  | step _ now w ih => exact stays _ now w ih

namespace Machine

/-- What a machine comes to from `s`, with its answers. It may be told that nobody will ask it
again. -/
inductive Asked (m : Machine ω α) (s : m.State) : List (Answer α) → m.State → Prop where
  | refl : Asked m s [] s
  | poll {answers t} : Asked m s answers t → ∀ now w,
      Asked m s (answers ++ [(m.poll t now w).1]) (m.poll t now w).2.1
  | tick {answers t} : Asked m s answers t → ∀ now w, Asked m s answers (m.tick t now w).2.1
  | drop {answers t} : Asked m s answers t → Asked m s answers (m.drop t)

/-- What a machine is asked from `s` on is the rest of a pull that was pending, if one was. The
pull still is when the machine may be asked again. -/
structure LastPull (m : Machine ω α) (pending asks : Prop) (s : m.State)
    (answers : List (Answer α)) (t : m.State) : Prop where
  asked : m.Asked s answers t
  one : ∀ a ∈ answers.dropLast, a.isPending = true
  begun : answers ≠ [] → pending
  still : asks → pending ∧ ∀ a ∈ answers, a.isPending = true

namespace LastPull

variable {m : Machine ω α} {pending asks asks' : Prop} {s t t' : m.State}
  {answers : List (Answer α)}

theorem start (was : asks → pending) : m.LastPull pending asks s [] s where
  asked := .refl
  one _ member := absurd member List.not_mem_nil
  begun some := absurd rfl some
  still now := ⟨was now, fun _ member => absurd member List.not_mem_nil⟩

/-- No pull is begun. -/
theorem mono (l : m.LastPull pending asks s answers t) (less : asks' → asks) :
    m.LastPull pending asks' s answers t :=
  ⟨l.asked, l.one, l.begun, fun now => l.still (less now)⟩

theorem tick (l : m.LastPull pending asks s answers t) (now : Time) (w : ω) :
    m.LastPull pending asks s answers (m.tick t now w).2.1 :=
  ⟨l.asked.tick now w, l.one, l.begun, l.still⟩

theorem drop (l : m.LastPull pending asks s answers t) :
    m.LastPull pending asks s answers (m.drop t) :=
  ⟨l.asked.drop, l.one, l.begun, l.still⟩

/-- The machine is told so when the task has returned. -/
theorem settled (l : m.LastPull pending asks s answers t) (returned : Prop) [Decidable returned] :
    m.LastPull pending asks s answers (if returned then m.drop t else t) := by
  split
  · exact l.drop
  · exact l

/-- The machine is asked again, and if this is not the end of the pull it goes on. -/
theorem poll (l : m.LastPull pending asks s answers t) (asked : asks) {now : Time} {w w' : ω}
    {a : Answer α} (answered : m.poll t now w = (a, t', w'))
    (more : asks' → a.isPending = true) : m.LastPull pending asks' s (answers ++ [a]) t' := by
  obtain ⟨was, open'⟩ := l.still asked
  have next := l.asked.poll now w
  rw [answered] at next
  refine ⟨next, ?_, fun _ => was, fun now => ⟨was, fun b member => ?_⟩⟩
  · rw [List.dropLast_concat]
    exact open'
  · rcases List.mem_append.mp member with old | new
    · exact open' b old
    · exact List.mem_singleton.mp new ▸ more now

end LastPull

/-- One pull brings one entry at most. -/
theorem LastPull.outputs_le {m : Machine ω α} {pending asks : Prop} {s t : m.State}
    {answers : List (Answer α)} (l : m.LastPull pending asks s answers t) :
    (outputs answers).length ≤ 1 := by
  rcases List.eq_nil_or_concat answers with none | ⟨front, last, rfl⟩
  · rw [none]
    exact Nat.zero_le _
  · have one := l.one
    rw [List.concat_eq_append, List.dropLast_concat] at one
    rw [List.concat_eq_append, outputs_append, outputs_of_isPending one, outputs_singleton]
    cases last.output? with
    | none => exact Nat.zero_le _
    | some => exact Nat.le_refl _

end Machine
end PullStream
