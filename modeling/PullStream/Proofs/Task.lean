/-!
Background tasks, and what becomes of them when nobody consumes any more.

A task stands between a source and its consumers. It works by itself until it has to wait; then
it meets with an answer of its source or with the end of a worker, and all the time others go
on beside it. When its consumers have gone it is let go: at most the pull that is pending then
brings it another element, it begins no pull after that one, and after so many steps of its own
it has returned (`Task.LetGo`). That follows from what each single step does, by a rank that
the task's own steps lower and the others do not raise (`Task.Leaving`).

* `Task.Run` — what a task comes to, with the number of its own steps on the way.
* `Task.LetGo` — a task that is let go.
* `Task.Leaving.letGo` — what its steps have to do for it.
-/

namespace PullStream

/-- A background task with all around it, as steps of their common state. -/
structure Task (σ : Type) where
  /-- What the task does by itself. -/
  works : σ → σ → Prop
  /-- What it meets with when it waits. -/
  meets : σ → σ → Prop
  /-- All that may happen, be it by the task or by others. -/
  steps : σ → σ → Prop
  /-- A pull of its source is pending. -/
  asks : σ → Prop
  /-- Within a step of its loop, it has seen that somebody consumes and has not yet gone on to
  its source or to wait. -/
  looked : σ → Prop
  /-- It waits for its source and does nothing else. -/
  holds : σ → Prop
  /-- How many entries of its source it has taken. -/
  taken : σ → Nat
  /-- It has returned. -/
  isOver : σ → Prop

namespace Task

variable {σ : Type}

/-- A step of the task itself. -/
def Own (T : Task σ) (s s' : σ) : Prop :=
  T.works s s' ∨ T.meets s s'

/-- What a task comes to from `s`, with the number of its own steps. -/
inductive Run (T : Task σ) (s : σ) : Nat → σ → Prop where
  | refl : Run T s 0 s
  | own {n t t'} : Run T s n t → T.Own t t' → Run T s (n + 1) t'
  | other {n t t'} : Run T s n t → T.steps t t' → ¬ T.Own t t' → Run T s n t'

/-- What is true of a task from `s` on when nobody consumes any more. -/
structure LetGo (T : Task σ) (limit : Nat) (s : σ) : Prop where
  /-- It takes one more entry at most, by a pull that was pending or on its way. -/
  takes : ∀ {n t}, T.Run s n t →
    T.taken t = T.taken s ∨ T.taken t = T.taken s + 1 ∧ (T.asks s ∨ T.looked s)
  /-- No step of its own begins a pull, unless the task was just about to go on. -/
  begins : ∀ {n t t'}, ¬ T.looked s → T.Run s n t → T.Own t t' → ¬ T.asks t'
  /-- So a pull that is pending was pending all the time. -/
  pending : ∀ {n t}, ¬ T.looked s → T.Run s n t → T.asks t → T.asks s ∧ T.taken t = T.taken s
  /-- It takes no more than so many steps. -/
  ends : ∀ {n t}, T.Run s n t → n ≤ limit
  /-- It can go on by itself until it has returned, unless it waits for its source. -/
  goes : ∀ {n t}, T.Run s n t → T.isOver t ∨ T.holds t ∨ ∃ t', T.works t t'
  /-- When it has returned it does nothing any more. -/
  returned : ∀ {n t t'}, T.Run s n t → T.isOver t → ¬ T.Own t t'

/-- What each step does in the states `kept`, which nobody consumes from. -/
structure Leaving (T : Task σ) (kept : σ → Prop) (rank : σ → Nat) : Prop where
  stays : ∀ {t t'}, kept t → T.steps t t' → kept t'
  own : ∀ {t t'}, T.Own t t' → T.steps t t'
  /-- A step of its own brings the task nearer to its return. -/
  nearer : ∀ {t t'}, kept t → T.Own t t' → rank t' < rank t
  takes : ∀ {t t'}, kept t → T.Own t t' →
    T.taken t' = T.taken t ∨ T.taken t' = T.taken t + 1 ∧ T.asks t
  /-- Only a task that has already seen somebody asks its source. -/
  turns : ∀ {t t'}, kept t → T.Own t t' → ¬ T.looked t' ∧ (T.asks t' → T.looked t)
  apart : ∀ {t}, kept t → T.asks t → ¬ T.looked t
  /-- Others leave the task where it is. -/
  others : ∀ {t t'}, kept t → T.steps t t' → ¬ T.Own t t' →
    rank t' ≤ rank t ∧ T.taken t' = T.taken t ∧ (T.asks t' → T.asks t) ∧
      (T.looked t' → T.looked t)
  goes : ∀ {t}, kept t → T.isOver t ∨ T.holds t ∨ ∃ t', T.works t t'
  returned : ∀ {t t'}, kept t → T.isOver t → ¬ T.Own t t'

namespace Leaving

variable {T : Task σ} {kept : σ → Prop} {rank : σ → Nat} {s t : σ} {n limit : Nat}

theorem run_kept (l : T.Leaving kept rank) (here : kept s) (run : T.Run s n t) : kept t := by
  induction run with
  | refl => exact here
  | own _ own ih => exact l.stays ih (l.own own)
  | other _ step _ ih => exact l.stays ih step

/-- The steps of the task are paid for by its rank. -/
theorem run_rank (l : T.Leaving kept rank) (here : kept s) (run : T.Run s n t) :
    n + rank t ≤ rank s := by
  induction run with
  | refl => exact Nat.le_of_eq (Nat.zero_add _)
  | own run own ih =>
    have nearer := l.nearer (l.run_kept here run) own
    omega
  | other run step apart ih =>
    have same := (l.others (l.run_kept here run) step apart).1
    omega

/-- Either nothing has been taken, and what is on its way was on its way before, or the one pull
that was is over. -/
theorem run_taken (l : T.Leaving kept rank) (here : kept s) (run : T.Run s n t) :
    T.taken t = T.taken s ∧ (T.asks t ∨ T.looked t → T.asks s ∨ T.looked s) ∨
      T.taken t = T.taken s + 1 ∧ (T.asks s ∨ T.looked s) ∧ ¬ T.asks t ∧ ¬ T.looked t := by
  induction run with
  | refl => exact .inl ⟨rfl, id⟩
  | @own n t t' run own ih =>
    have here' := l.run_kept here run
    obtain ⟨noLook, looked⟩ := l.turns here' own
    rcases ih with ⟨same, before⟩ | ⟨one, before, noAsk, notLooked⟩
    · rcases l.takes here' own with none | ⟨more, asks⟩
      · refine .inl ⟨none.trans same, ?_⟩
        rintro (asks | looks)
        · exact before (.inr (looked asks))
        · exact absurd looks noLook
      · refine .inr ⟨?_, before (.inl asks), fun asks' => ?_, noLook⟩
        · rw [more, same]
        · exact l.apart here' asks (looked asks')
    · rcases l.takes here' own with none | ⟨-, asks⟩
      · exact .inr ⟨none.trans one, before, fun asks => notLooked (looked asks), noLook⟩
      · exact absurd asks noAsk
  | other run step apart ih =>
    obtain ⟨-, none, asks, looks⟩ := l.others (l.run_kept here run) step apart
    rcases ih with ⟨same, before⟩ | ⟨one, before, noAsk, notLooked⟩
    · exact .inl ⟨none.trans same, fun h => before (h.imp asks looks)⟩
    · exact .inr ⟨none.trans one, before, fun h => noAsk (asks h), fun h => notLooked (looks h)⟩

/-- A task that is not just about to go on never is again. -/
theorem run_not_looked (l : T.Leaving kept rank) (here : kept s) (notLooked : ¬ T.looked s)
    (run : T.Run s n t) : ¬ T.looked t := by
  induction run with
  | refl => exact notLooked
  | own run own _ => exact (l.turns (l.run_kept here run) own).1
  | other run step apart ih =>
    exact fun looks => ih ((l.others (l.run_kept here run) step apart).2.2.2 looks)

/-- Where each step does so, the task is let go, and its rank bounds what it still does. -/
theorem letGo (l : T.Leaving kept rank) (here : kept s) (within : rank s ≤ limit) :
    T.LetGo limit s where
  takes run := by
    rcases l.run_taken here run with ⟨same, -⟩ | ⟨one, before, -⟩
    · exact .inl same
    · exact .inr ⟨one, before⟩
  begins notLooked run own asks :=
    l.run_not_looked here notLooked run ((l.turns (l.run_kept here run) own).2 asks)
  pending notLooked run asks := by
    rcases l.run_taken here run with ⟨same, before⟩ | ⟨-, -, noAsk, -⟩
    · exact ⟨(before (.inl asks)).resolve_right notLooked, same⟩
    · exact absurd asks noAsk
  ends run := by
    have bound := l.run_rank here run
    omega
  goes run := l.goes (l.run_kept here run)
  returned run := l.returned (l.run_kept here run)

end Leaving
end Task
end PullStream
