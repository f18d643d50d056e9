import PullStream.Proofs.Fanout.Dropping
import PullStream.Proofs.Parallel.Winding
import PullStream.Proofs.ReadAhead.Dropping
import PullStream.Sequence

/-!
What becomes of background tasks when their consumers have gone.

A dispatcher, a read-ahead pump and the pump of a fan-out look for their consumers at different
points: before each selection, before each look at the backlog, and behind the last output. All
three are tasks that are let go by the drop of their consumer, whatever they are at just then
(`Task.LetGo`); and in the stages that run, what they ask their source from the drop on is the
rest of one pull (`Machine.LastPull`).

* `dropped_tasks_return` — the contract.
-/

namespace PullStream.Sequence

open Dispatcher (Surroundings)

variable {ω α β τ : Type}

/-- When its consumer goes, a background task returns: a dispatcher, a read-ahead pump, or that
of a fan-out with its last output. It takes one more entry of its source at most, and only by a
pull that was pending; it begins no new one, and returns after so many steps of its own, waiting
for nothing but the answer to that pull, which a dispatcher does not wait for. The workers of a
dispatcher that run are left alone. All that holds at every point of the tasks at which the drop
may come; only at the point where a task has seen its consumer and has not gone on yet, the pull
that it is about to begin counts as pending. The stages that run do so as well. -/
theorem dropped_tasks_return {concurrency : Nat} (positive : 0 < concurrency) :
    (∀ keepOrder (around : Surroundings β) (s : Dispatcher.Course τ β),
      s.Reaches around concurrency keepOrder → s.dispatcher.feed.abandoned = false →
      let task := Dispatcher.Course.task around
      task.LetGo (concurrency + 6) s.dropped ∧ (s.dropped.Asks ↔ s.Asks) ∧
      (∀ x, x ∈ s.dropped.dispatcher.crew ↔ x ∈ s.dispatcher.crew) ∧
      ∀ n t t', task.Run s.dropped n t → task.Own t t' → ¬ around.breaks →
        ∀ x ∈ t.dispatcher.crew, x ∈ t'.dispatcher.crew ∨
          ∃ outcome, t'.events = t.events ++ [.joined x.1 outcome]) ∧
    (∀ size (s : ReadAhead.Course α), s.Reaches size → s.pump.feed.abandoned = false →
      (ReadAhead.Course.task α).LetGo 4 s.dropped ∧ (s.dropped.Asks ↔ s.Asks)) ∧
    (∀ count buffer (s : Fanout.Course α), s.Reaches count buffer →
      ∀ (k : Nat) f, s.fanout.feeds[k]? = some f → f.abandoned = false →
        (s.dropped k).fanout.abandoned = true →
        (Fanout.Course.task α).LetGo (4 * count + 4) (s.dropped k) ∧
          ((s.dropped k).Asks ↔ s.Asks)) ∧
    ∀ source : Machine ω α,
      (∀ keepOrder (work : Worker ω α β),
        let stage := source.parallel concurrency keepOrder work
        let asks (t : stage.State) := ∃ read, t.1.dispatcher.phase = .selecting true read
        ∀ t answers, stage.Reach t answers → ∀ u, Ticked stage.tick (stage.drop t) u →
          (∃ asked, source.LastPull (asks t) (asks u) t.1.source asked u.1.source ∧
            (outputs asked).length ≤ 1 ∧
            u.1.dispatcher.dispatched =
              t.1.dispatcher.dispatched + (itemsOf (outputs asked)).length) ∧
          ∀ now w,
            let next := (Parallel.dispatch source work u.1 now w).2.1
            (u.1.dispatcher.phase = .stopped ∨
              next.dispatcher.remaining < u.1.dispatcher.remaining ∨
              asks u ∧ ((source.poll u.1.source now w).1 = .skip ∨
                (source.poll u.1.source now w).1 = .pause)) ∧
            ∀ x ∈ u.1.dispatcher.crew, x ∈ next.dispatcher.crew ∨
              (∃ outcome rest, u.1.outcomes = (x.1, outcome) :: rest) ∨
              asks u ∧ ∃ message, (source.poll u.1.source now w).1 = .crash message) ∧
      (∀ size,
        let stage := source.readAhead size
        ∀ t answers, stage.Reach t answers → ∀ u, Ticked stage.tick (stage.drop t) u →
          (∃ asked, source.LastPull (t.1.2.phase = .pulling) (u.1.2.phase = .pulling) t.1.1 asked
            u.1.1 ∧ (outputs asked).length ≤ 1) ∧
          ∀ now w, u.1.2.phase = .stopped ∨
            (ReadAhead.advance source u.1 now w).2.1.2.remaining < u.1.2.remaining ∨
            u.1.2.phase = .pulling ∧ (source.poll u.1.1 now w).1.isPending = true) ∧
      ∀ count buffer,
        let hub := source.fanout count buffer
        ∀ t answers gone, hub.Reach t answers gone → ∀ k < count, gone k = false →
          (∀ j < count, j ≠ k → gone j = true) → ∀ u, Ticked hub.tick (hub.drop k t) u →
            (∃ asked, source.LastPull (t.1.2.phase = .pulling) (u.1.2.phase = .pulling) t.1.1 asked
              u.1.1 ∧ (outputs asked).length ≤ 1) ∧
            ∀ now w, u.1.2.phase = .stopped ∨
              (Fanout.advance source u.1 now w).2.1.2.remaining < u.1.2.remaining ∨
              u.1.2.phase = .pulling ∧ (source.poll u.1.1 now w).1.isPending = true := by
  refine ⟨?_, ?_, ?_, fun source => ⟨?_, ?_, ?_⟩⟩
  · intro keepOrder around s reached present task
    refine ⟨reached.letGo positive present, Dispatcher.Course.dropped_asks,
      fun x => Dispatcher.Course.mem_crew_drop, ?_⟩
    intro n t t' _ own sturdy x running
    rcases own with works | meets
    · exact .inl (works.crew.mpr running)
    · exact meets.crew sturdy running
  · intro size s reached present
    exact ⟨reached.letGo present, ReadAhead.Course.dropped_asks⟩
  · intro count buffer s reached k f there present last
    exact ⟨reached.letGo there present last, Fanout.Course.dropped_asks⟩
  · intro keepOrder work stage asks t answers reached u ticked
    have winding := Parallel.dropped_winding reached ticked
    obtain ⟨asked, last, count⟩ := winding.last
    refine ⟨⟨asked, last, last.outputs_le, count⟩, ?_⟩
    intro now w next
    exact ⟨winding.nearer now w, fun x running => Parallel.dispatch_crew running now w⟩
  · intro size stage t answers reached u ticked
    have winding := ReadAhead.dropped_winding reached ticked
    obtain ⟨asked, last⟩ := winding.last
    exact ⟨⟨asked, last, last.outputs_le⟩, winding.nearer⟩
  · intro count buffer hub t answers gone reached k inside present others u ticked
    have winding := Fanout.dropped_winding reached inside present others ticked
    obtain ⟨asked, last⟩ := winding.last
    exact ⟨⟨asked, last, last.outputs_le⟩, winding.nearer⟩

/-- A dispatcher with one worker that runs, which has asked its source for the second element. -/
def askedAgain : Dispatcher.Course Unit Nat where
  dispatcher :=
    { concurrency := 2, keepOrder := true, phase := .selecting true ⟨.read, 0⟩
      workers := [(0, ())], dispatched := 1 }
  rounds := 2
  events := [.started 0]
  answers := [.skip]

theorem askedAgain_reached :
    askedAgain.Reaches (.of (fun a _ => .ok (some a)) [1, 2] none False) 2 true :=
  ((((Dispatcher.Course.Reaches.start.step (.poll rfl)).surveyed rfl rfl).step
    (.meets (.start rfl rfl Nat.two_pos))).surveyed rfl rfl)

/-- A fan-out to one output, which has asked its source. -/
def askedOnce : Fanout.Course Nat where
  fanout := { buffer := 1, phase := .pulling, feeds := [{}] }
  starts := 1
  answers := Function.update (fun _ => []) 0 [.skip]

theorem askedOnce_reached : askedOnce.Reaches 1 1 := by
  have fresh : Fanout.Course.Reaches 1 1 ({ fanout := .create 1 1 } : Fanout.Course Nat) := .start
  exact ((fresh.step (@Fanout.Course.Step.poll _ _ 0 _ rfl rfl)).checked rfl rfl).checked rfl rfl

/-- Dropped there, the dispatcher takes the second element, starts its worker and returns, and the
first worker runs on; the fan-out gives nobody what its source says, and returns after as many
steps as it may take. -/
theorem dropped_tasks_return_asked :
    let around : Surroundings Nat := .of (fun a _ => .ok (some a)) [1, 2] none False
    0 < 2 ∧
    (∃ t, (Dispatcher.Course.task around).Run askedAgain.dropped 3 t ∧ 3 ≤ 2 + 6 ∧
      t.dispatcher.phase = .stopped ∧ t.dispatcher.dispatched = 2 ∧ askedAgain.Asks ∧
      (0, ()) ∈ t.dispatcher.crew) ∧
    ∃ t, (Fanout.Course.task Nat).Run (askedOnce.dropped 0) (4 * 1 + 4) t ∧
      t.fanout.phase = .stopped ∧ t.told = [.ok 7] ∧ askedOnce.Asks := by
  intro around
  have dropped := dropped_tasks_return (ω := Unit) (α := Nat) (β := Nat) (τ := Unit)
    (show 0 < 2 by decide)
  refine ⟨by decide, ?_, ?_⟩
  · obtain ⟨letGo, asks, -, crew⟩ := dropped.1 true around _ askedAgain_reached rfl
    have here : (Dispatcher.Course.task around).Run askedAgain.dropped 0 _ := .refl
    have started := here.own (.inr (@Dispatcher.Course.Meets.start _ _ _ _ ⟨.read, 0⟩ () rfl rfl
      (by decide : 1 < 2)))
    have registered := started.own (.inl (.register rfl rfl))
    have left := registered.own (.inl (.leave rfl rfl))
    refine ⟨_, left, letGo.ends left, rfl, rfl, ?_, ?_⟩
    · rcases letGo.takes left with same | ⟨-, asked | ⟨read, looked⟩⟩
      · cases same
      · exact asks.mp asked
      · cases looked
    · rcases crew 2 _ _ registered (.inl (.leave rfl rfl)) id (0, ()) (by decide) with
        runs | ⟨outcome, joined⟩
      · exact runs
      · cases joined
  · obtain ⟨letGo, asks⟩ := dropped.2.2.1 1 1 _ askedOnce_reached 0 _ rfl rfl rfl
    have here : (Fanout.Course.task Nat).Run (askedOnce.dropped 0) 0 _ := .refl
    have heard := here.own (.inr (@Fanout.Course.Meets.hears _ _ (some (.ok 7)) rfl rfl))
    have missed := heard.own (.inl (.miss rfl rfl rfl))
    have handed := missed.own (.inl (.handed rfl rfl))
    have registered := handed.own (.inl (.register rfl rfl rfl Nat.one_pos))
    have skipped := registered.own (.inl (.skip rfl rfl rfl))
    have turned := skipped.own (.inl (.turn rfl rfl rfl))
    have looked := turned.own (.inl (.lookOn rfl rfl rfl))
    have left := looked.own (.inl (.leave rfl rfl))
    refine ⟨_, left, rfl, rfl, ?_⟩
    rcases letGo.takes left with same | ⟨-, asked | nobody⟩
    · cases same
    · exact asks.mp asked
    · exact nobody.elim

end PullStream.Sequence
