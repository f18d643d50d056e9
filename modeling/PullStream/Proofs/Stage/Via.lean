import PullStream.Proofs.Machine.Reach
import PullStream.Transducer

/-!
What a poll of a stage comes to.

A stage answers for itself, or asks its input and reacts to an item, a failure or
the end; other signals pass through it. `ViaPoll` has one case for each, so that
what is proved about stages is proved by these five cases.
-/

namespace PullStream

/-- A step function whose result depends on the element and its index only. -/
def Step.Gives {ω α β : Type} (f : Step ω α β) (g : α → Nat → Except Failure β) : Prop :=
  ∀ a i now w, (f a i now w).1 = g a i

namespace Machine

variable {ω α β : Type} {input : Machine ω α} {t : Transducer ω α β}

/-- What a stage's reaction makes of the state of its input. -/
def react (input : Machine ω α) (t : Transducer ω α β) (m : t.Memory) (s : input.State)
    (r : Answer β × t.Memory × ω) : Answer β × (input.State × t.Memory) × ω :=
  (r.1, (input.release t m r.2.1 s, r.2.1), r.2.2)

/-- The poll of a stage, by who answers. -/
inductive ViaPoll (input : Machine ω α) (t : Transducer ω α β) (s : input.State × t.Memory)
    (now : Time) (w : ω) : Answer β × (input.State × t.Memory) × ω → Prop where
  | before {r} : t.before s.2 now w = some r → ViaPoll input t s now w (react input t s.2 s.1 r)
  | item {a p} : t.before s.2 now w = none → input.poll s.1 now w = (.item a, p) →
      ViaPoll input t s now w (react input t s.2 p.1 (t.item s.2 a now p.2))
  | fail {e p} : t.before s.2 now w = none → input.poll s.1 now w = (.fail e, p) →
      ViaPoll input t s now w (react input t s.2 p.1 (t.fail s.2 e now p.2))
  | done {p} : t.before s.2 now w = none → input.poll s.1 now w = (.done, p) →
      ViaPoll input t s now w (react input t s.2 p.1 (t.done s.2 now p.2))
  | pass {g p} : t.before s.2 now w = none → input.poll s.1 now w = (.signal g, p) →
      (∀ e, g ≠ .fail e) → g ≠ .done → ViaPoll input t s now w (.signal g, (p.1, s.2), p.2)

theorem via_poll (input : Machine ω α) (t : Transducer ω α β)
    (s : input.State × t.Memory) (now : Time) (w : ω) :
    ViaPoll input t s now w ((input.via t).poll s now w) := by
  simp only [via]
  split
  · rename_i h
    exact .before h
  · rename_i own
    split
    · rename_i h
      exact .item own h
    · rename_i h
      exact .fail own h
    · rename_i h
      exact .done own h
    · rename_i g r w' notFail notDone h
      exact .pass own h (fun e same => notFail e (by rw [same])) fun same => notDone (by rw [same])

/-- An input that is still held is where it was left. -/
theorem release_held (s : input.State) {m m' : t.Memory} (held : t.holds m' = true) :
    input.release t m m' s = s := by
  simp [release, held]

end Machine
end PullStream
