import PullStream.Clockwork
import PullStream.Proofs.Machine.Reach

/-!
What a run of a consumer comes to.

A run alternates between a consumer, background work and the clock. However it goes, the
machine has been used by polls and by steps of its background work, and the consumer has taken
the answers to the polls one after the other. So what both uphold holds at the end of every run,
and the result of a run is what the consumer makes of a list of answers.

* `Uphold` — what a consumer and a machine uphold.
* `Setting.run_told` — what is upheld at the end of a run, however it ends; `Setting.run_kept`,
  `Setting.consume_kept` for runs with a result.
* `Consumer.Took`, `Setting.consume_took` — how a consumer comes by its memory.
* `Consumer.took_drain` — what the memory of `drain` says about the answers.
-/

namespace PullStream

variable {ω α ρ : Type}

/-! ### Consumers and answers -/

/-- How a consumer comes by its memory: it has been given the answers to its pulls, whatever
the instants and the worlds, and has rested when it wanted to. -/
inductive Consumer.Took (c : Consumer ω α ρ) : List (Answer α) → c.Memory → Prop where
  | start : Took c [] c.start
  | item {answers m a} : Took c answers m → c.want m = .pull → ∀ now w,
      Took c (answers ++ [.item a]) (c.receive m (.item a) now w).1
  | failure {answers m e} : Took c answers m → c.want m = .pull → ∀ now w,
      Took c (answers ++ [.fail e]) (c.receive m (.failure e) now w).1
  | ended {answers m} : Took c answers m → c.want m = .pull → ∀ now w,
      Took c (answers ++ [.done]) (c.receive m .ended now w).1
  | quiet {answers m g} : Took c answers m → c.want m = .pull → (∀ e, g ≠ .fail e) → g ≠ .done →
      Took c (answers ++ [.signal g]) m
  | woken {answers m due} : Took c answers m → c.want m = .rest due → ∀ now w,
      Took c answers (c.wake m now w).1

/-- What a consumer makes of an answer: only an item, a failure and the end reach it. -/
def Consumer.hear (c : Consumer ω α ρ) (memory : c.Memory) :
    Answer α → Time → ω → c.Memory × ω
  | .item a, now, w => c.receive memory (.item a) now w
  | .fail e, now, w => c.receive memory (.failure e) now w
  | .done, now, w => c.receive memory .ended now w
  | _, _, w => (memory, w)

theorem Consumer.hear_signal (c : Consumer ω α ρ) (memory : c.Memory) {g : Signal} (now : Time)
    (w : ω) (notFail : ∀ e, g ≠ .fail e) (notDone : g ≠ .done) :
    c.hear memory (.signal g) now w = (memory, w) := by
  cases g with
  | fail e => exact absurd rfl (notFail e)
  | done => exact absurd rfl notDone
  | _ => rfl

theorem Consumer.Took.hear {c : Consumer ω α ρ} {answers : List (Answer α)} {memory : c.Memory}
    (took : c.Took answers memory) (wants : c.want memory = .pull) (a : Answer α) (now : Time)
    (w : ω) : c.Took (answers ++ [a]) (c.hear memory a now w).1 := by
  cases a with
  | item a => exact took.item wants now w
  | signal g =>
    cases g with
    | fail e => exact took.failure wants now w
    | done => exact took.ended wants now w
    | skip => exact took.quiet wants (by simp) (by simp)
    | pause => exact took.quiet wants (by simp) (by simp)
    | wait => exact took.quiet wants (by simp) (by simp)
    | crash message => exact took.quiet wants (by simp) (by simp)

/-- What a consumer and a machine uphold, used together in one world: when the consumer pulls,
when it goes on after a rest, and when the machine works in the background. -/
structure Uphold (m : Machine ω α) (c : Consumer ω α ρ)
    (holds : c.Memory → m.State → ω → Prop) : Prop where
  pull : ∀ {memory s w} now, holds memory s w → c.want memory = .pull →
    holds (c.hear memory (m.poll s now w).1 now (m.poll s now w).2.2).1 (m.poll s now w).2.1
      (c.hear memory (m.poll s now w).1 now (m.poll s now w).2.2).2
  wake : ∀ {memory s w due} now, holds memory s w → c.want memory = .rest due → due ≤ now →
    holds (c.wake memory now w).1 s (c.wake memory now w).2
  tick : ∀ {memory s w} now, holds memory s w →
    holds memory (m.tick s now w).2.1 (m.tick s now w).2.2

namespace Setting

variable {m : Machine ω α} {c : Consumer ω α ρ} {s s' : Setting ω α m.hub}
  {holds : c.Memory → m.State → ω → Prop}

/-- The machine broke down while the consumer was waiting for it. -/
def Broken (holds : c.Memory → m.State → ω → Prop) (s : Setting ω α m.hub) : Prop :=
  ∃ memory, c.want memory = .pull ∧ holds memory s.state s.world

/-- What a turn leaves behind. -/
def Kept (holds : c.Memory → m.State → ω → Prop) : Turn ω α m.hub c → Prop
  | .moved r s => holds r.memory s.state s.world
  | .paused r s => holds r.memory s.state s.world
  | .still r s => holds r.memory s.state s.world
  | .crashed _ s => Broken holds s

/-- What some turns leave behind. -/
def Left (holds : c.Memory → m.State → ω → Prop) :
    Except String (Bool × Reader c) × Setting ω α m.hub → Prop
  | (.ok (_, r), s) => holds r.memory s.state s.world
  | (.error _, s) => Broken holds s

/-- What the ending of a run says about the memory of its consumer. -/
def Told (c : Consumer ω α ρ) (memory : c.Memory) : Ending ρ → Prop
  | .finished results => ∃ result, c.want memory = .finish result ∧ results = [result]
  | _ => ∀ result, c.want memory ≠ .finish result

section Upheld

variable (uphold : Uphold m c holds)
include uphold

theorem turn_kept (r : Reader c) (held : holds r.memory s.state s.world) :
    Kept holds (r.turn s) := by
  unfold Reader.turn
  cases wants : c.want r.memory with
  | finish result => exact held
  | rest due =>
    dsimp only
    split
    · exact held
    · rename_i late
      exact uphold.wake _ held wants (Nat.le_of_not_lt late)
  | pull =>
    have next := uphold.pull s.now held wants
    rcases asked : m.poll s.state s.now s.world with ⟨answer, state, world⟩
    have same : m.hub.poll r.output s.state s.now s.world = (answer, state, world) := asked
    rw [asked] at next
    simp only [same]
    cases answer with
    | item a => exact next
    | signal g =>
      cases g with
      | crash message => exact ⟨r.memory, wants, next⟩
      | _ => exact next

theorem go_kept (fuel : Nat) (moved : Bool) (r : Reader c)
    (held : holds r.memory s.state s.world) : Left holds (r.go fuel moved s) := by
  induction fuel generalizing moved r s with
  | zero => exact held
  | succ fuel ih =>
    have kept := turn_kept uphold r held
    unfold Reader.go
    split
    · rename_i r₁ s₁ turn
      rw [turn] at kept
      exact ih true r₁ kept
    · rename_i r₁ s₁ turn
      rw [turn] at kept
      exact kept
    · rename_i r₁ s₁ turn
      rw [turn] at kept
      exact kept
    · rename_i message s₁ turn
      rw [turn] at kept
      exact kept

/-- Background work is no concern of the consumer. -/
theorem settle_kept (memory : c.Memory) (held : holds memory s.state s.world) :
    holds memory s.settle.2.state s.settle.2.world := by
  unfold settle
  generalize patience = fuel
  suffices all : ∀ moved stirred,
      holds memory (settleFrom fuel moved stirred s).2.state
        (settleFrom fuel moved stirred s).2.world from all _ _
  induction fuel generalizing s with
  | zero => exact fun _ _ => held
  | succ fuel ih =>
    intro moved stirred
    have next := uphold.tick s.now held
    rcases ticked : m.tick s.state s.now s.world with ⟨step, state, world⟩
    have same : m.hub.tick s.state s.now s.world = (step, state, world) := ticked
    rw [ticked] at next
    unfold settleFrom
    simp only [same]
    cases step with
    | true => exact ih next _ _
    | false =>
      dsimp only
      split
      · exact ih next _ _
      · exact next

/-- However a run ends, what is upheld still holds, and the run is finished if and only if its
consumer is. -/
theorem run_told (deadline : Option Time) (fuel : Nat) (r : Reader c)
    (held : holds r.memory s.state s.world)
    (runs : fuel = 0 → ∀ result, c.want r.memory ≠ .finish result) :
    ∃ memory, holds memory (run deadline fuel [r] s).2.state (run deadline fuel [r] s).2.world ∧
      Told c memory (run deadline fuel [r] s).1 := by
  induction fuel generalizing r s with
  | zero => exact ⟨r.memory, held, runs rfl⟩
  | succ fuel ih =>
    have left := go_kept uphold patience false r held
    unfold run
    rcases went : r.go patience false s with ⟨outcome, s₁⟩
    rw [went] at left
    cases outcome with
    | error message =>
      obtain ⟨memory, wants, held⟩ := left
      simp only [goAll, went]
      exact ⟨memory, held, fun result => by simp [wants]⟩
    | ok pair =>
      obtain ⟨moved, r₁⟩ := pair
      have held : holds r₁.memory s₁.state s₁.world := left
      simp only [goAll, went, Except.map]
      cases has : r₁.result? with
      | some result =>
        simp only [List.mapM_cons, has, List.mapM_nil, Option.pure_def, Option.bind_eq_bind,
          Option.bind_some]
        refine ⟨r₁.memory, held, result, ?_, rfl⟩
        unfold Reader.result? at has
        split at has
        · rename_i wants
          cases has
          exact wants
        · cases has
      | none =>
        have unfinished : ∀ result, c.want r₁.memory ≠ .finish result := by
          intro result wants
          simp [Reader.result?, wants] at has
        simp only [List.mapM_cons, has, Option.bind_eq_bind, Option.bind_none]
        have held := settle_kept uphold r₁.memory held
        split
        · exact ih r₁ held fun _ => unfinished
        · split
          · exact ⟨r₁.memory, held, unfinished⟩
          · split
            · exact ⟨r₁.memory, held, unfinished⟩
            · -- Only the clock has moved.
              exact ih (s := { s₁.settle.2 with now := _ }) r₁ held fun _ => unfinished

/-- A run that is finished has the result of the consumer's memory, and what is upheld still
holds. -/
theorem run_kept (deadline : Option Time) (fuel : Nat) (r : Reader c)
    (held : holds r.memory s.state s.world) {results : List ρ}
    (ran : run deadline fuel [r] s = (.finished results, s')) :
    ∃ memory result, holds memory s'.state s'.world ∧ c.want memory = .finish result ∧
      results = [result] := by
  have some : fuel ≠ 0 := by
    rintro rfl
    cases ran
  have told := run_told uphold deadline fuel r held fun none => absurd none some
  rw [ran] at told
  obtain ⟨memory, held, result, wants, same⟩ := told
  exact ⟨memory, result, held, wants, same⟩

theorem consume_kept {output : Nat} {now : Time} {w : ω} (start : holds c.start m.start w)
    {results : List ρ}
    (ran : consume c output (initially m.hub now w) = (.finished results, s')) :
    ∃ memory result, holds memory s'.state s'.world ∧ c.want memory = .finish result ∧
      results = [result] :=
  run_kept uphold none patience { output, memory := c.start } start ran

end Upheld

/-- A consumer with this memory and a machine in this state have been used together. -/
def Together (c : Consumer ω α ρ) (memory : c.Memory) (state : m.State) : Prop :=
  ∃ answers, m.Reach state answers ∧ c.Took answers memory

theorem together_upheld :
    Uphold m c fun memory state _ => Together c memory state where
  pull := by
    rintro memory s w now ⟨answers, reached, took⟩ wants
    exact ⟨_, reached.poll now w, took.hear wants _ _ _⟩
  wake := by
    rintro memory s w due now ⟨answers, reached, took⟩ wants -
    exact ⟨_, reached, took.woken wants now w⟩
  tick := by
    rintro memory s w now ⟨answers, reached, took⟩
    exact ⟨_, reached.tick now w, took⟩

theorem consume_took {output : Nat} {now : Time} {w : ω} {results : List ρ}
    (ran : consume c output (initially m.hub now w) = (.finished results, s')) :
    ∃ answers memory result, m.Reach s'.state answers ∧ c.Took answers memory ∧
      c.want memory = .finish result ∧ results = [result] := by
  obtain ⟨memory, result, ⟨answers, reached, took⟩, wants, same⟩ :=
    consume_kept together_upheld ⟨[], .start, .start⟩ ran
  exact ⟨answers, memory, result, reached, took, wants, same⟩

end Setting

/-! ### Draining -/

/-- What the memory of `drain` says about the answers: while it runs there has been neither
failure nor end, and its result tells which of them came first. -/
def Consumer.Drained (answers : List (Answer α)) : Folding Nat Nat → Prop
  | .running _ _ => .done ∉ answers ∧ ∀ e, .fail e ∉ answers
  | .finished (.ok _) => .done ∈ answers ∧ ∀ e, .fail e ∉ answers
  | .finished (.error e) => .fail e ∈ answers

theorem Consumer.took_drain {answers : List (Answer α)}
    {memory : (drain : Consumer ω α (Result Nat)).Memory}
    (took : (drain : Consumer ω α (Result Nat)).Took answers memory) : Drained answers memory := by
  induction took with
  | start => exact ⟨List.not_mem_nil, fun _ => List.not_mem_nil⟩
  | @item answers m a _ wants now w ih =>
    cases m with
    | finished r => cases wants
    | running n i =>
      obtain ⟨notDone, clean⟩ := ih
      exact ⟨by simpa using notDone, fun e => by simpa using clean e⟩
  | @failure answers m e _ wants now w ih =>
    cases m with
    | finished r => cases wants
    | running n i => exact List.mem_append_right _ (List.mem_singleton_self _)
  | @ended answers m _ wants now w ih =>
    cases m with
    | finished r => cases wants
    | running n i =>
      obtain ⟨-, clean⟩ := ih
      refine ⟨List.mem_append_right _ (List.mem_singleton_self _), fun e => ?_⟩
      simpa using clean e
  | @quiet answers m g _ wants notFail notDone ih =>
    cases m with
    | finished r => cases wants
    | running n i =>
      obtain ⟨unfinished, clean⟩ := ih
      constructor
      · simpa [unfinished] using Ne.symm notDone
      · intro e
        simpa [clean e] using Ne.symm (notFail e)
  | @woken answers m due _ wants now w ih =>
    cases m with
    | finished r => cases wants
    | running n i => cases wants

end PullStream
