import PullStream.Proofs.Collecting
import PullStream.Proofs.Stage.Relaying
import PullStream.Proofs.Stage.Scores
import PullStream.Proofs.Stage.Throttling
import PullStream.Sequence

/-!
Stages that change the pace or the mode are transparent.

Throttling, giving way, and walking a sequence in another mode hand on what their source has, there
and then, and nothing else. Each of their pulls pulls the source once, up to the first failure or
end; the pull behind a failure reports the end without asking the source. A throttled sequence has
waited once before each source pull but the first, and a sequence that is emptied into a list is a
list of what it had, or fails with its failure.

* `Mirrors`, `Transparent` — what it means to hand on.
* `Throttle.KeepsTime` — what it means to wait once before each pull but the first.
* `Converted` — what it means to be a list of what a sequence had.
* `pacing_and_conversion_transparent` — all of these stages.
-/

namespace PullStream

variable {ω α : Type}

/-! ### Handing on -/

/-- What a stage has answered, and what its source has when it was asked. -/
structure Mirrors (asked answers : List (Answer α)) : Prop where
  /-- All that has arrived has been handed on. -/
  same : arrivals asked = arrivals answers
  /-- The source has been pulled once in each pull, at most; a pull that has brought something has
  been a pull of the source. -/
  pulls : pullsBegun asked ≤ pullsBegun answers
  whole : ∀ {before a b}, answers = before ++ [a] → a.arrival? = some b →
    pullsBegun asked = pullsBegun answers
  /-- Nothing breaks down but the source, and there are two more polls in a pull than the source
  has, at most, that do not wait. -/
  sound : ∀ {message}, .crash message ∈ answers → .crash message ∈ asked
  prompt : busyPolls answers ≤ busyPolls asked + 2 * ((arrivals answers).length + 1)

theorem Relayed.mirrors {k : Nat} {answers asked : List (Answer α)}
    (relayed : Relayed k answers asked) : Mirrors asked answers where
  same := relayed.arrivals_eq
  pulls := relayed.pullsBegun_le
  whole last arrives := relayed.pullsBegun_eq last arrives
  sound broken := relayed.crash_mem broken
  prompt := by
    obtain ⟨less, bound⟩ := relayed.busyPolls_le
    omega

/-- However `stage` is used, up to the first failure or end it hands on what `source` has. -/
structure Transparent (source stage : Machine ω α) (below : stage.State → source.State) : Prop where
  mirrors : ∀ {t answers}, stage.Reach t answers → Unended (arrivals answers.dropLast) →
    ∃ asked r, source.Reach r asked ∧ (Unended (arrivals answers) → r = below t) ∧
      Mirrors asked answers
  /-- It waits for the source, or until it is due. -/
  waits : ∀ {t answers now w}, stage.Reach t answers → Unended (arrivals answers) →
    (stage.poll t now w).1 = .wait →
      (source.poll (below t) now w).1 = .wait ∨ ∃ due ∈ stage.alarms t, now < due

/-- Behind the first failure the end is reported, and nothing is done. -/
def Machine.Stops (m : Machine ω α) : Prop :=
  ∀ {t answers e}, m.Reach t answers → .fail e ∈ answers → ∀ now w, m.poll t now w = (.done, t, w)

theorem Machine.stops_guarded (m : Machine ω α) : m.guarded.Stops :=
  fun reached failed => guarded_stops reached failed

theorem Machine.guarded_transparent (m : Machine ω α) : Transparent m m.guarded Prod.fst where
  mirrors {t answers} reached front := by
    obtain ⟨k, relayed⟩ := relayed_self answers
    exact ⟨answers, t.1, (reached.unguarded front).1, fun _ => rfl, relayed.mirrors⟩
  waits {t answers now w} reached more waits := by
    exact .inl (Machine.guarded_asks (reached.going more).2 waits)

theorem Machine.self_transparent (m : Machine ω α) : Transparent m m id where
  mirrors {t answers} reached _ := by
    obtain ⟨k, relayed⟩ := relayed_self answers
    exact ⟨answers, t, reached, fun _ => rfl, relayed.mirrors⟩
  waits _ _ waits := .inl waits

theorem Transducer.Passes.transparent {t : Transducer ω α α} {going : Nat → t.Memory → Prop}
    (passes : t.Passes going) (source : Machine ω α) :
    Transparent source (source.via t).guarded fun u => u.1.1 where
  mirrors {u answers} reached front := by
    obtain ⟨k, asked, r, below, relayed, more⟩ := passes.relays (reached.unguarded front).1 front
    exact ⟨asked, r, below, fun unended => (more unended).1, relayed.mirrors⟩
  waits {u answers now w} reached more waits := by
    obtain ⟨reached, going⟩ := reached.going more
    obtain ⟨k, asked, r, -, -, there⟩ := passes.relays reached more.arrivals_dropLast
    exact passes.waits (there more).2.1 (Machine.guarded_asks going waits)

/-! ### Keeping time -/

/-- However a throttled sequence is used, up to the first failure or end it waits once in each pull
but the first, and has done so when it asks its source. Waits and answers of the source may leave
notes in the world. -/
def Throttle.KeepsTime (source : Machine ω α) (pause : Pause ω) : Prop :=
  ∀ {ν : Type} (view : ω → ν) (note : Beat α → ν → ν) {before x : ν} {t answers},
    source.Notes view (fun a => note (.asked a)) →
    (∀ now w, view (pause now w).2 = note (.begun now (pause now w).1) (view w)) →
    (∀ now x, note (.ended now) x = x) →
    (source.via (.throttle pause)).guarded.Uses view before t x answers →
    Unended (arrivals answers.dropLast) →
    ∃ beats, Kept source note before t.1.1 t.1.2 x answers beats ∧
      ∀ earlier a later, beats = earlier ++ .asked a :: later →
        begun earlier = ended earlier ∧ ended earlier + 1 = pullsBegun (answered earlier ++ [a])

theorem Throttle.throttle_keepsTime (source : Machine ω α) (pause : Pause ω) :
    KeepsTime source pause := by
  intro ν view note before x t answers notes pauses silent used front
  obtain ⟨beats, kept⟩ := throttle_keeps_time notes pauses silent (used.unguarded front).1 front
  exact ⟨beats, kept, fun _ _ _ split => kept.course.asks split⟩

/-! ### Conversions -/

namespace Scenario

variable {company : Machine Log Element}

/-- What a sequence has been converted to, when so much has arrived from it. -/
structure Converted (as : List (Arrival Element)) (outcome : Outcome company) : Prop where
  succeeds : outcome.refusal = none ↔ .ended ∈ as
  fails : ∀ e, outcome.refusal = some (.failed e) ↔ .failure e ∈ as
  /-- It is a list of the same items, which never waits. -/
  same : outcome.refusal = none → ∃ xs : List Element, as = xs.map .item ++ [.ended] ∧
    outcome.sequence.mode = .immediate ∧
      ∀ {t answers}, outcome.sequence.machine.Reach t answers → ∃ n, answers = listed xs n

theorem Emptied.converted {s : Sequence Log Element} {state : s.machine.State}
    {as : List (Arrival Element)} {outcome : Outcome company}
    (emptied : Emptied s state as outcome) : Converted as outcome := by
  cases emptied with
  | @succeeded xs making =>
    refine ⟨by simp, by simp, fun _ => ⟨xs, rfl, rfl, fun reached => ?_⟩⟩
    obtain ⟨n, -, same⟩ := s.emptiedInto_answers state xs reached
    exact ⟨n, same⟩
  | @failed xs e making =>
    exact ⟨by simp, fun e' => by simp [eq_comm], nofun⟩
  | @unfinished xs refusal making why =>
    refine ⟨by simp, fun e => ?_, nofun⟩
    rcases why with rfl | ⟨message, rfl⟩ <;> simp

/-- If the sequence can be resumed and has been emptied to its end or its first failure, it has been
converted exactly if it has no failure, and else its failure has been told. -/
theorem Converted.exactly {s : Sequence Log Element} {state : s.machine.State}
    {as : List (Arrival Element)} {outcome : Outcome company} (converted : Converted as outcome)
    (resumable : s.machine.Resumable) (draining : s.machine.Draining state as)
    (finished : outcome.refusal = none ∨ ∃ e, outcome.refusal = some (.failed e)) :
    (outcome.refusal = none ↔
      ∀ state as e, s.machine.Draining state as → .failure e ∉ as) ∧
      ∀ e, outcome.refusal = some (.failed e) ↔
        ∃ state as, s.machine.Draining state as ∧ .failure e ∈ as := by
  have last : ¬ Unended as := by
    intro more
    rcases finished with converts | ⟨e, fails⟩
    · exact absurd (more _ (converted.succeeds.mp converts)) (by simp [Arrival.isLast])
    · exact absurd (more _ ((converted.fails e).mp fails)) (by simp [Arrival.isLast])
  -- Whoever meets with a failure has met with that of this draining.
  have met {state' : s.machine.State} {as' : List (Arrival Element)} {e : Failure}
      (draining' : s.machine.Draining state' as') (failed : .failure e ∈ as') :
      outcome.refusal = some (.failed e) := by
    have last' : ¬ Unended as' := fun more => absurd (more _ failed) (by simp [Arrival.isLast])
    rw [← resumable.finished_eq draining draining' last last'] at failed
    exact (converted.fails e).mpr failed
  refine ⟨⟨fun converts state' as' e draining' failed => ?_, fun clean => ?_⟩, fun e => ⟨?_, ?_⟩⟩
  · cases converts.symm.trans (met draining' failed)
  · rcases finished with converts | ⟨e, fails⟩
    · exact converts
    · exact absurd ((converted.fails e).mp fails) (clean state as e draining)
  · exact fun fails => ⟨state, as, draining, (converted.fails e).mp fails⟩
  · rintro ⟨state', as', draining', failed⟩
    exact met draining' failed

end Scenario

namespace Sequence

open Scenario Throttle

/-- The sequence behind a stage that may wait. -/
def paced (s : Sequence ω α) (t : Transducer ω α α) : Sequence ω α :=
  ⟨.waiting, (s.machine.via t).guarded⟩

/-- Throttling, giving way, and walking a sequence in another mode are transparent, and behind a
failure they do nothing. What a sequence is converted to is a list of what it had, or its failure.
A sequence that winds down and can be resumed is converted exactly if it has no failure. -/
theorem pacing_and_conversion_transparent :
    (∀ {ω α : Type} (s : Sequence ω α),
      (∀ pause, s.throttle pause = s.paced (.throttle pause) ∧
        Transparent s.machine (s.paced (.throttle pause)).machine (fun t => t.1.1) ∧
        KeepsTime s.machine pause) ∧
      (∀ count, 1 ≤ count → s.interruptEvery count = .ok (s.paced (.interruptEvery count)) ∧
        Transparent s.machine (s.paced (.interruptEvery count)).machine fun t => t.1.1) ∧
      (∀ times created, 1 ≤ times →
        s.interruptPerSecond times created = .ok (s.paced (.interruptPerSecond times created)) ∧
        Transparent s.machine (s.paced (.interruptPerSecond times created)).machine
          fun t => t.1.1) ∧
      (∀ t, (s.paced t).machine.Stops) ∧
      s.toWaiting.mode = .waiting ∧ Transparent s.machine s.toWaiting.machine id ∧
      (s.mode = .immediate → s.tryWalk = .ok s.machine) ∧
      (s.mode = .waiting → s.tryWalk = .error .notImmediate) ∧
      Transparent s.machine (ofMachine s.machine).machine Prod.fst ∧
      Transparent s.machine (ofWaiting s.machine).machine Prod.fst ∧
      (ofMachine s.machine).machine.Stops ∧ (ofWaiting s.machine).machine.Stops) ∧
    ∀ {company : Machine Log Element} (s : Sequence Log Element) (m : Making company),
      (∀ label position, Stage.puton label position s m .materialize = Scenario.empty s m ∧
        Stage.puton label position s m .toImmediate =
          if s.mode = .immediate then ⟨s, none, m⟩ else Scenario.empty s m) ∧
      (∃ state as, s.machine.Draining state as ∧ Converted as (Scenario.empty s m)) ∧
      ∀ going left, (alongside s.machine company).WindsDown going left →
        going (s.machine.start, m.state) →
        left (s.machine.start, m.state) m.now < Setting.patience →
        ((Scenario.empty s m).refusal = none ∨
          ∃ e, (Scenario.empty s m).refusal = some (.failed e)) ∧
        (s.machine.Resumable →
          ((Scenario.empty s m).refusal = none ↔
            ∀ state as e, s.machine.Draining state as → .failure e ∉ as) ∧
          ∀ e, (Scenario.empty s m).refusal = some (.failed e) ↔
            ∃ state as, s.machine.Draining state as ∧ .failure e ∈ as) := by
  refine ⟨fun {ω α} s => ⟨fun pause => ⟨rfl, ?_, throttle_keepsTime s.machine pause⟩, ?_, ?_,
    fun t => (s.machine.via t).stops_guarded, rfl, s.machine.self_transparent, ?_, ?_,
    s.machine.guarded_transparent, s.machine.guarded_transparent, s.machine.stops_guarded,
    s.machine.stops_guarded⟩, fun s m => ⟨?_, ?_, ?_⟩⟩
  · exact (Transducer.throttle_passes pause).transparent s.machine
  · intro count positive
    exact ⟨if_neg (Nat.ne_of_gt positive),
      (Transducer.interruptEvery_passes count).transparent s.machine⟩
  · intro times created positive
    exact ⟨if_neg (Nat.ne_of_gt positive),
      (Transducer.interruptPerSecond_passes times created).transparent s.machine⟩
  · intro immediate
    simp only [tryWalk, immediate]
  · intro waiting
    simp only [tryWalk, waiting]
  · exact fun label position => ⟨by simp only [Stage.puton], by simp only [Stage.puton]⟩
  · obtain ⟨state, as, draining, emptied⟩ := empty_emptied s m
    exact ⟨state, as, draining, emptied.converted⟩
  · intro going left winds goes enough
    obtain ⟨state, as, draining, emptied⟩ := empty_emptied s m
    have finished := empty_finishes s m winds goes enough
    exact ⟨finished, fun resumable => emptied.converted.exactly resumable draining finished⟩

/-- A source with one item, throttled so that waits are counted: there has been one when the end is
found. A list that arrives late cannot be walked without waiting, but is converted. -/
theorem pacing_and_conversion_transparent_seven :
    let s : Sequence Nat Nat := .ofList [7]
    let late : Sequence Log Element := .delayed [.int 1, .int 2] 10
    let alone : Making (.ofList (ω := Log) ([] : List Element)) := ⟨0, {}, []⟩
    (∃ r m beats, Kept s.machine (fun beat waits => waits + begun [beat]) 0 r m 1
        [.item 7, .skip, .wait, .skip, .done] beats) ∧
      s.interruptEvery 2 = .ok (s.paced (.interruptEvery 2)) ∧
      s.interruptPerSecond 4 0 = .ok (s.paced (.interruptPerSecond 4 0)) ∧
      s.tryWalk = .ok s.machine ∧ late.tryWalk = .error .notImmediate ∧
      ((Scenario.empty late alone).refusal = none ↔
        ∀ state as e, late.machine.Draining state as → .failure e ∉ as) := by
  intro s late alone
  obtain ⟨stages, conversions⟩ := pacing_and_conversion_transparent
  obtain ⟨throttled, every, rate, -, -, -, walked, -⟩ := stages s
  obtain ⟨-, -, -, -, -, -, -, refused, -⟩ := stages late
  refine ⟨?_, (every 2 (by decide)).1, (rate 4 0 (by decide)).1, walked rfl, refused rfl, ?_⟩
  · let pause : Pause Nat := fun _ waits => (5, waits + 1)
    let m := (s.paced (.throttle pause)).machine
    have used : m.Uses id 0 _ _ _ :=
      ((((Machine.Uses.start.poll 0 0 rfl).poll 0 0 rfl).poll 2 1 rfl).poll 5 1 rfl).poll 5 1 rfl
    have notes : s.machine.Notes id fun a waits => waits + begun [.asked a] := by
      refine ⟨fun r now w => ?_, fun _ _ _ => rfl⟩
      cases r <;> rfl
    have front : Unended [Arrival.item 7] := by simp [Unended, Arrival.isLast]
    obtain ⟨beats, kept, -⟩ := (throttled pause).2.2 id (fun beat waits => waits + begun [beat])
      notes (fun _ _ => rfl) (fun _ _ => rfl) used front
    exact ⟨_, _, beats, kept⟩
  · obtain ⟨-, -, finishes⟩ := conversions late alone
    have resumable : late.machine.Resumable :=
      (Transducer.arriving_renders _).via_resumable (Machine.ofResults_delivers _).resumable
    exact ((finishes _ _ (alongside_windsDown (Machine.arriving_windsDown _ _)
      ⟨fun _ _ _ => rfl, fun _ => rfl⟩) (Machine.onItsWay_start _ _) (by decide)).2 resumable).1

end Sequence
end PullStream
