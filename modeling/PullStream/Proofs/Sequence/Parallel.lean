import PullStream.Proofs.Parallel.Consuming
import PullStream.Proofs.Sequence.Agreement

/-!
What parallel stages guarantee.

Everything is said of courses, so of a dispatcher under every schedule, and of every state of
the stage that runs, which follows a course. A dispatcher holds no more than it may, it goes on
until it leaves its loop, and out of order it delivers results as they come. Behind a failure it
takes elements only in order, and only as long as the failure is parked.

* `reach_joinOrder`, `single_delivers` — unordered stages, and those with one worker at a time.
* `reach_settled` — what the result of a count says about the workers.
* `dispatch_quiet` — a stage whose dispatcher does not ask its source leaves the world alone.
-/

namespace PullStream.Sequence

open Dispatcher (Surroundings Course Event)
open Dispatcher.Course (Works Meets)

variable {ω α β τ : Type}

/-! ### Resources -/

/-- A dispatcher holds no more than it may, whatever its source, its workers and its consumer
do: workers and parked results are `concurrency` at most, and with the items that wait in the
feed they are fewer than twice as many. In order, no element is handed to a worker before the
result of the one `concurrency` positions before it has been released. -/
theorem parallel_resources {concurrency : Nat} (positive : 0 < concurrency) (keepOrder : Bool) :
    (∀ (around : Surroundings β) (s : Course τ β), s.Reaches around concurrency keepOrder →
      s.dispatcher.running + s.dispatcher.parked ≤ concurrency ∧
      s.dispatcher.running + s.dispatcher.parked + s.dispatcher.undelivered ≤
        2 * concurrency - 1 ∧
      (itemsOf s.dispatcher.feed.backlog).length ≤ s.dispatcher.undelivered ∧
      (keepOrder = true →
        s.dispatcher.dispatched ≤ s.dispatcher.reorder.next + concurrency ∧
        ∀ (s' : Course τ β) (event : Event β) (index : Nat), Course.Step around s s' →
          s'.events = s.events ++ [event] → event.handed? = some index →
          ∀ i, i + concurrency ≤ index → i < s.dispatcher.reorder.next)) ∧
    ∀ (source : Machine ω α) (work : Worker ω α β) t answers,
      (source.parallel concurrency keepOrder work).Reach t answers →
      let d := t.1.dispatcher
      d.running + d.parked ≤ concurrency ∧
      d.running + d.parked + d.undelivered ≤ 2 * concurrency - 1 ∧
      (itemsOf d.feed.backlog).length ≤ d.undelivered ∧
      (keepOrder = true → ∀ i ∈ d.workers.map Prod.fst, i < d.reorder.next + concurrency) := by
  have bounds : ∀ {τ : Type} {around : Surroundings β} {s : Course τ β},
      s.Reaches around concurrency keepOrder →
      s.dispatcher.running + s.dispatcher.parked ≤ concurrency ∧
      s.dispatcher.running + s.dispatcher.parked + s.dispatcher.undelivered ≤
        2 * concurrency - 1 ∧
      (itemsOf s.dispatcher.feed.backlog).length ≤ s.dispatcher.undelivered := by
    intro τ around s reached
    have paced := reached.paced positive
    exact ⟨paced.inFlight, Nat.le_sub_one_of_lt paced.held, reached.afoot.counted.least⟩
  constructor
  · intro around s reached
    obtain ⟨inFlight, held, least⟩ := bounds reached
    refine ⟨inFlight, held, least, ?_⟩
    rintro rfl
    refine ⟨reached.ahead positive, ?_⟩
    intro s' event index step events handed i behind
    obtain ⟨rfl, resting, read, phase⟩ := step.hands events handed
    have ahead := (reached.paced positive).leave_ahead reached.placed reached.constant.2 resting
      phase
    omega
  · intro source work t answers reached d
    obtain ⟨rounds, events, course⟩ :=
      (Parallel.reach_follows (Parallel.supplies_any source work) reached).course
    obtain ⟨inFlight, held, least⟩ := bounds course
    refine ⟨inFlight, held, least, ?_⟩
    rintro rfl i member
    exact Nat.lt_of_lt_of_le (course.manned i member) (course.ahead positive)

/-- Two workers of which the second ends first: its result is parked, and both places are
taken. -/
theorem parallel_resources_parked :
    0 < 2 ∧ ∃ s : Course Unit Nat, s.Reaches .any 2 true ∧
      s.dispatcher.running = 1 ∧ s.dispatcher.parked = 1 ∧
      s.dispatcher.running + s.dispatcher.parked ≤ 2 := by
  have fresh : Course.Reaches .any 2 true
      ({ dispatcher := { concurrency := 2, keepOrder := true } } : Course Unit Nat) := .start
  have one : Course.Reaches .any 2 true
      ({ dispatcher :=
          { concurrency := 2, keepOrder := true, phase := .selecting true ⟨.read, 0⟩
            workers := [(0, ())], dispatched := 1 }
         rounds := 2, events := [.started 0], answers := [.skip] } : Course Unit Nat) :=
    (((fresh.step (.poll rfl)).surveyed rfl rfl).step
      (.meets (.start rfl rfl trivial))).surveyed rfl rfl
  have both : Course.Reaches .any 2 true
      ({ dispatcher :=
          { concurrency := 2, keepOrder := true, phase := .selecting false ⟨.read, 0⟩
            workers := [(0, ()), (1, ())], dispatched := 2 }
         rounds := 3, events := [.started 0, .started 1], answers := [.skip] } :
          Course Unit Nat) :=
    (one.step (.meets (.start rfl rfl trivial))).surveyed rfl rfl
  have second : Course.Reaches .any 2 true
      ({ dispatcher :=
          { concurrency := 2, keepOrder := true, phase := .selecting false ⟨.read, 0⟩
            workers := [(0, ())], dispatched := 2, reorder := { parked := [(1, .ok (some 20))] } }
         stage := .releasing, rounds := 3
         events := [.started 0, .started 1, .joined 1 (.value 20)], answers := [.skip] } :
          Course Unit Nat) :=
    both.step (.meets (@Meets.join _ _ _ _ false ⟨.read, 0⟩ 1 (.value 20) rfl rfl
      (List.mem_cons_of_mem _ List.mem_cons_self) trivial))
  refine ⟨by decide, _, second, rfl, rfl, ?_⟩
  have bounded := parallel_resources (ω := Unit) (α := Unit) (β := Nat) (τ := Unit)
    (show 0 < 2 by decide) true
  exact (bounded.1 .any _ second).1

/-! ### Going on -/

/-- A dispatcher never gets stuck. While it selects and its waiter has not been woken, a worker
runs or it may take an element or its feed is full, and what is parked is behind a worker. It
leaves its loop in one of three ways, acts on an open feed only, and parks what is new. Over a
source of finitely many elements every step of its own brings it nearer to its end, which it
comes to after at most three rounds for each element and three more. -/
theorem parallel_progress {concurrency : Nat} (positive : 0 < concurrency) (keepOrder : Bool) :
    (∀ (around : Surroundings β) (s : Course τ β), s.Reaches around concurrency keepOrder →
      (∀ mayPull read, s.stage = .resting → s.dispatcher.phase = .selecting mayPull read →
        read.resolved s.dispatcher.feed = false →
        (s.dispatcher.workers ≠ [] ∨ mayPull = true ∨ concurrency ≤ s.dispatcher.undelivered) ∧
        (s.dispatcher.reorder.parked ≠ [] → ∃ i ∈ s.dispatcher.workers.map Prod.fst,
          ∀ j ∈ s.dispatcher.reorder.parked.map Prod.fst, i < j)) ∧
      (¬ around.breaks →
        (∀ s', Course.Step around s s' → s.dispatcher.phase ≠ .idle →
          s.dispatcher.phase ≠ .stopped → s'.dispatcher.phase = .stopped →
          Course.Leaves s.dispatcher s'.dispatcher) ∧
        -- once it has left, its feed is closed, or nobody consumes
        (s.dispatcher.phase = .stopped →
          s.dispatcher.feed.closed = true ∨ s.dispatcher.feed.abandoned = true)) ∧
      -- whatever it does, it does with an open feed, and nothing once it has closed it
      (∀ s', Works s s' ∨ Meets around s s' → s.dispatcher.feed.closed = false) ∧
      (s.dispatcher.feed.closed = true → ∀ s', Course.Step around s s' →
        s'.dispatcher.feed.closed = true) ∧
      -- what it gets in order it parks, at a position neither released nor parked
      (keepOrder = true → ∀ s' index r, Meets around s s' →
        s'.observed = s.observed ++ [(index, r)] →
        s'.dispatcher.reorder = s.dispatcher.reorder.insert index r ∧
        s.dispatcher.reorder.next ≤ index ∧
        index ∉ s.dispatcher.reorder.parked.map Prod.fst)) ∧
    (∀ (result : α → Nat → Except Failure (Option β)) xs fault breaks (s : Course τ β),
      let around := Surroundings.of result xs fault breaks
      s.Reaches around concurrency keepOrder →
      s.rounds ≤ 3 * xs.length + 3 ∧
      (∀ s', Works s s' ∨ Meets around s s' → s'.burden xs.length < s.burden xs.length) ∧
      (∀ s', Course.Step around s s' → s'.burden xs.length ≤ s.burden xs.length) ∧
      (Nonempty τ → s.dispatcher.phase ≠ .idle → s.dispatcher.phase ≠ .stopped →
        s.dispatcher.feed.abandoned = false →
        (∃ s', Works s s' ∨ Meets around s s') ∨ ∃ b, s.dispatcher.poll.1 = .item b)) ∧
    ∀ (source : Machine ω α) (work : Worker ω α β) t answers,
      (source.parallel concurrency keepOrder work).Reach t answers →
      let d := t.1.dispatcher
      ∀ mayPull read, d.phase = .selecting mayPull read → read.resolved d.feed = false →
        (d.workers ≠ [] ∨ mayPull = true ∨ concurrency ≤ d.undelivered) ∧
        (d.reorder.parked ≠ [] → ∃ i ∈ d.workers.map Prod.fst,
          ∀ j ∈ d.reorder.parked.map Prod.fst, i < j) := by
  refine ⟨?_, ?_, ?_⟩
  · intro around s reached
    have afoot := reached.afoot
    have placed := reached.placed
    refine ⟨?_, ?_, ?_, ?_, ?_⟩
    · intro mayPull read resting phase unresolved
      exact ⟨reached.waits positive resting phase unresolved,
        placed.parked_behind (by simp [phase]) (by simp [resting])⟩
    · intro sturdy
      refine ⟨?_, reached.shut sturdy⟩
      intro s' step started going stopped
      exact step.leaves sturdy afoot placed started going stopped
    · rintro s' (works | meets)
      · exact afoot.isOpen (works.going afoot)
      · exact afoot.isOpen meets.going
    · intro closed s' step
      exact (step.closed afoot closed).1
    · intro order s' index r meets got
      have ordered : s.dispatcher.keepOrder = true := reached.constant.2.trans order
      have placed' := (reached.step (.meets meets)).placed
      exact ⟨meets.got_parked ordered got, placed.got_fresh placed' ordered got⟩
  · intro result xs fault breaks s around reached
    have bounded : ∀ n, around.element n → n < xs.length := fun _ more => more
    have tally := reached.tally bounded
    refine ⟨tally.rounds_le, ?_, ?_, ?_⟩
    · rintro s' (works | meets)
      · exact works.burden_lt reached.afoot (works.tally reached.afoot tally)
      · exact meets.burden_lt bounded reached.placed
    · intro s' step
      exact step.burden_le bounded reached.afoot reached.placed tally
    · intro some started going present
      exact reached.progress positive started going present
  · intro source work t answers reached d mayPull read phase unresolved
    obtain ⟨rounds, events, course⟩ :=
      (Parallel.reach_follows (Parallel.supplies_any source work) reached).course
    exact ⟨course.waits positive rfl phase unresolved,
      course.placed.parked_behind (by simp [d, phase]) (by simp)⟩

/-- One element and one worker at a time: with its result in the feed the dispatcher waits for
the consumer. -/
theorem parallel_progress_full :
    let tenfold : Nat → Nat → Except Failure (Option Nat) := fun a _ => .ok (some (10 * a))
    0 < 1 ∧ ∃ s : Course Unit Nat, s.Reaches (.of tenfold [7] none False) 1 true ∧
      s.dispatcher.phase = .selecting false ⟨.read, 0⟩ ∧
      (s.dispatcher.workers ≠ [] ∨ false = true ∨ 1 ≤ s.dispatcher.undelivered) ∧
      s.rounds ≤ 3 * 1 + 3 := by
  intro tenfold
  have fresh : Course.Reaches (.of tenfold [7] none False) 1 true
      ({ dispatcher := { concurrency := 1, keepOrder := true } } : Course Unit Nat) := .start
  have one : Course.Reaches (.of tenfold [7] none False) 1 true
      ({ dispatcher :=
          { concurrency := 1, keepOrder := true, phase := .selecting false ⟨.read, 0⟩
            workers := [(0, ())], dispatched := 1 }
         rounds := 2, events := [.started 0], answers := [.skip] } : Course Unit Nat) :=
    (((fresh.step (.poll rfl)).surveyed rfl rfl).step
      (.meets (.start rfl rfl Nat.one_pos))).surveyed rfl rfl
  have joined : Course.Reaches (.of tenfold [7] none False) 1 true
      ({ dispatcher :=
          { concurrency := 1, keepOrder := true, phase := .selecting false ⟨.read, 0⟩
            dispatched := 1, reorder := { parked := [(0, .ok (some 70))] } }
         stage := .releasing, rounds := 2
         events := [.started 0, .joined 0 (.value 70)], answers := [.skip] } :
          Course Unit Nat) :=
    one.step (.meets (@Meets.join _ _ _ _ false ⟨.read, 0⟩ 0 (.value 70) rfl rfl
      List.mem_cons_self ⟨7, rfl, rfl⟩))
  have full : Course.Reaches (.of tenfold [7] none False) 1 true
      ({ dispatcher :=
          { concurrency := 1, keepOrder := true, phase := .selecting false ⟨.read, 0⟩
            dispatched := 1, reorder := { next := 1 }
            feed := { shared := [.item 70], pending := 1 } }
         rounds := 3, events := [.started 0, .joined 0 (.value 70)], answers := [.skip] } :
          Course Unit Nat) :=
    ((joined.works (.deliver rfl rfl rfl)).works (.settle rfl rfl)).surveyed rfl rfl
  have guaranteed := parallel_progress (ω := Unit) (α := Nat) (β := Nat) (τ := Unit)
    (show 0 < 1 by decide) true
  refine ⟨by decide, _, full, rfl, ?_, ?_⟩
  · exact ((guaranteed.1 _ _ full).1 false ⟨.read, 0⟩ rfl rfl rfl).1
  · exact (guaranteed.2.1 tenfold [7] none False _ full).1

/-! ### Results out of order -/

section JoinOrder

variable {result : α → Nat → Except Failure (Option β)} {xs : List α} {fault : Option Failure}
  {source : Machine ω α} {work : Worker ω α β} {concurrency : Nat}

/-- What an unordered stage has answered is told by the results that its dispatcher has got. -/
theorem reach_gathered (delivers : source.Delivers (sourceOf xs fault))
    (yields : work.Yields result) (positive : 0 < concurrency)
    {t : (source.parallel concurrency false work).State} {answers : List (Answer β)}
    (reached : (source.parallel concurrency false work).Reach t answers) :
    ∃ s : Course (Parallel.Running ω β) β,
      s.Reaches (.of result xs fault True) concurrency false ∧
      s.dispatcher = t.1.dispatcher ∧ s.answers = answers ∧
      s.Gathered (resultsOf result xs fault) := by
  obtain ⟨rounds, events, course⟩ :=
    (Parallel.reach_follows (Parallel.supplies_of delivers yields) reached).course
  exact ⟨_, course, rfl, rfl, course.gathered positive⟩

theorem reach_joinOrder (delivers : source.Delivers (sourceOf xs fault))
    (yields : work.Yields result) (positive : 0 < concurrency)
    {t : (source.parallel concurrency false work).State} {answers : List (Answer β)}
    (reached : (source.parallel concurrency false work).Reach t answers) :
    ∃ joined, JoinOrder (resultsOf result xs fault) joined answers := by
  obtain ⟨s, course, -, rfl, g⟩ := reach_gathered delivers yields positive reached
  exact ⟨_, g.joinOrder course.placed⟩

/-- With one worker at a time an unordered stage delivers as an ordered one does. -/
theorem single_delivers (delivers : source.Delivers (sourceOf xs fault))
    (yields : work.Yields result) :
    (source.parallel 1 false work).Delivers (inOrder (resultsOf result xs fault)) := by
  intro t answers reached
  obtain ⟨s, course, -, rfl, g⟩ := reach_gathered delivers yields Nat.one_pos reached
  exact g.single course.placed course.inTurn

/-- The result of a count over an unordered stage is settled by what its dispatcher has come to. -/
theorem reach_settled (delivers : source.Delivers (sourceOf xs fault))
    (yields : work.Yields result) (positive : 0 < concurrency)
    {t : (source.parallel concurrency false work).guarded.State} {answers : List (Answer β)}
    (reached : (source.parallel concurrency false work).guarded.Reach t answers)
    {r : Consumer.Result Nat} (drained : Consumer.Drained answers (.finished r)) :
    ∃ s : Course (Parallel.Running ω β) β,
      s.Reaches (.of result xs fault True) concurrency false ∧
      s.dispatcher = t.1.1.dispatcher ∧ s.Settled (resultsOf result xs fault) r := by
  cases reached.guarded with
  | going below _ =>
    obtain ⟨s, course, same, rfl, -⟩ := reach_gathered delivers yields positive below
    exact ⟨s, course, same, course.settled positive drained⟩
  | @failed _ taken e n below _ =>
    obtain ⟨s, course, same, told, -⟩ := reach_gathered delivers yields positive below
    -- Behind the failure only the end has been reported.
    have earlier : Consumer.Drained s.answers (.finished r) := by
      cases r with
      | ok k => exact absurd (by simp) (drained.2 e)
      | error e' =>
        have failed : .fail e' ∈ taken ++ [.fail e] ++ List.replicate n .done := drained
        rw [told]
        exact (List.mem_append.mp failed).resolve_right (by simp)
    exact ⟨s, course, same, course.settled positive earlier⟩

end JoinOrder

/-- An unordered dispatcher neither loses nor doubles nor invents a result. Its consumer is
given the values in the order in which their workers were joined: all of them if nothing fails,
else those before the first failure that the dispatcher gets, then that failure, then the end.
With one worker at a time that is what an ordered dispatcher delivers. A run over all elements
comes to a result under every schedule. It succeeds exactly if nothing fails, and then only when
every worker has ended. -/
theorem unordered_parallel_joins {concurrency : Nat} (positive : 0 < concurrency) (xs : List α)
    (fault : Option Failure) :
    (∀ (result : α → Nat → Except Failure (Option β)) breaks (s : Course τ β),
      let around := Surroundings.of result xs fault breaks
      let expected := resultsOf result xs fault
      s.Reaches around concurrency false →
      -- the results that have been got, in join order, are those of different positions
      s.positions.Nodup ∧ (∀ i r, (i, r) ∈ s.observed → expected[i]? = some r) ∧
      JoinOrder expected s.results s.answers ∧
      (.done ∈ s.answers → (∀ e, .error e ∉ expected) →
        (outputs s.answers).Perm (inOrder expected)) ∧
      (.done ∈ s.answers → ((∃ e, .fail e ∈ s.answers) ↔ ∃ e, .error e ∈ expected)) ∧
      (.done ∈ s.answers ∨ (∃ e, .fail e ∈ s.answers) → s.dispatcher.poll.1 = .done) ∧
      -- the consumer waits only as long as there is something to do
      (Nonempty τ → ¬ breaks → s.dispatcher.feed.abandoned = false →
        s.dispatcher.poll.1 = .wait → ∃ s', Works s s' ∨ Meets around s s') ∧
      (concurrency = 1 → outputs s.answers <+: inOrder expected ∧
        (.done ∈ s.answers → outputs s.answers = inOrder expected))) ∧
    (∀ result : α → Nat → Except Failure (Option Unit), Nonempty τ →
      Course.Completes (ω := ω) (.of result xs fault False) τ concurrency xs.length .drain
        (resultsOf result xs fault)) ∧
    ∀ s : Sequence ω α, s.machine.Delivers (sourceOf xs fault) →
      (∀ (work : Worker ω α β) result, work.Yields result →
        let expected := resultsOf result xs fault
        ∃ p, s.parallel concurrency false work = .ok p ∧
          (∀ t answers, p.machine.Reach t answers → ∃ joined,
            JoinOrder expected joined answers ∧
            (.done ∈ answers → (∀ e, .error e ∉ expected) →
              (outputs answers).Perm (inOrder expected)) ∧
            (.done ∈ answers → ((∃ e, .fail e ∈ answers) ↔ ∃ e, .error e ∈ expected))) ∧
          (concurrency = 1 → p.machine.Delivers (inOrder expected) ∧
            ∃ q, s.parallel 1 true work = .ok q ∧ q.machine.Delivers (inOrder expected))) ∧
      ∀ (action : RiskyStep ω α Unit) result,
        let work : Worker ω α Unit := RiskyStep.worker action fun _ _ => .nothing
        work.Yields result →
        let expected := resultsOf result xs fault
        let stage := (s.machine.parallel concurrency false work).guarded
        s.parallelVisits concurrency action = .ok ⟨.waiting, stage⟩ ∧
        -- a run asks until it has its result, which it has at a failure or the end
        (∀ t answers (memory : (Consumer.drain (ω := ω) (α := Unit)).Memory),
          stage.Reach t answers → Consumer.drain.Took answers memory →
          (Consumer.drain.want memory = .pull ∨ ∃ r, Consumer.drain.want memory = .finish r ∧
            ∃ c : Course (Parallel.Running ω Unit) Unit,
              c.Reaches (.of result xs fault True) concurrency false ∧
              c.dispatcher = t.1.1.dispatcher ∧ c.Settled expected r) ∧
          (.done ∈ answers ∨ (∃ e, .fail e ∈ answers) →
            ∃ r, Consumer.drain.want memory = .finish r)) ∧
        ∀ now w rs t,
          Setting.consume .drain 0 (Setting.initially stage.hub now w) = (.finished rs, t) →
          ∃ r, rs = [r] ∧ ((∃ n, r = .ok n) ↔ ∀ e, .error e ∉ expected) ∧
            (∀ e, r = .error e → .error e ∈ expected) ∧
            ∀ n, r = .ok n → ∃ c : Course (Parallel.Running ω Unit) Unit,
              c.Reaches (.of result xs fault True) concurrency false ∧
              c.dispatcher = t.state.1.1.dispatcher ∧ c.results.Perm expected ∧
              c.dispatcher.workers = [] ∧ c.dispatcher.detached = [] := by
  have some : concurrency ≠ 0 := Nat.pos_iff_ne_zero.mp positive
  refine ⟨?_, ?_, ?_⟩
  · intro result breaks s around expected reached
    have g := reached.gathered positive
    have placed := reached.placed
    have j := g.joinOrder placed
    refine ⟨placed.distinct, fun i r => g.right, j, fun done clean => j.perm_of_clean clean done,
      j.failed_iff, reached.afoot.poll_done, ?_, ?_⟩
    · intro any sturdy present waits
      exact reached.busy_of_wait positive sturdy present waits
    · rintro rfl
      exact g.single placed reached.inTurn
  · intro result any
    exact Course.drain_completes positive not_false
  · intro s delivers
    constructor
    · intro work result yields expected
      refine ⟨_, if_neg some, ?_, ?_⟩
      · intro t answers reached
        obtain ⟨joined, j⟩ := JoinOrder.guarded
          (fun below => reach_joinOrder delivers yields positive below) reached
        exact ⟨joined, j, fun done clean => j.perm_of_clean clean done, j.failed_iff⟩
      · rintro rfl
        exact ⟨Parallel.guarded_delivers_inOrder (single_delivers delivers yields),
          parallel_delivers delivers yields positive⟩
    · intro action result work yields expected stage
      refine ⟨if_neg some, ?_, ?_⟩
      · intro t answers memory reached took
        have drained := Consumer.took_drain took
        cases memory with
        | running n i =>
          refine ⟨.inl rfl, ?_⟩
          rintro (done | ⟨e, failed⟩)
          · exact absurd done drained.1
          · exact absurd failed (drained.2 e)
        | finished r =>
          exact ⟨.inr ⟨r, rfl, reach_settled delivers yields positive reached drained⟩,
            fun _ => ⟨r, rfl⟩⟩
      · intro now w rs t ran
        obtain ⟨answers, memory, r, reached, took, wants, rfl⟩ := Setting.consume_took ran
        have drained := Consumer.took_drain took
        cases memory with
        | running n i => cases wants
        | finished r' =>
          cases wants
          obtain ⟨c, course, same, settled⟩ :=
            reach_settled delivers yields positive reached drained
          refine ⟨r, rfl, settled.ok_iff, ?_, ?_⟩
          · rintro e rfl
            cases settled with
            | failed member => exact member
          · rintro n rfl
            cases settled with
            | all _ all workers detached => exact ⟨c, course, same, all, workers, detached⟩

/-- Two workers of which the second ends first: its value is delivered first. -/
theorem swapped_reaches :
    Course.Reaches (.of (fun a _ => .ok (some (10 * a))) [1, 2] none False) 2 false
      ({ dispatcher :=
          { concurrency := 2, keepOrder := false, phase := .stopped, exhausted := true
            dispatched := 2
            feed := { reads := 2, empties := 1, closed := true, finished := true } }
         rounds := 7
         events :=
          [.started 0, .started 1, .joined 1 (.value 20), .joined 0 (.value 10), .read, .ended]
         answers := [.skip, .item 20, .item 10, .done] } : Course Unit Nat) := by
  let around : Surroundings Nat := .of (fun a _ => .ok (some (10 * a))) [1, 2] none False
  have fresh : Course.Reaches around 2 false
      ({ dispatcher := { concurrency := 2, keepOrder := false } } : Course Unit Nat) := .start
  have one : Course.Reaches around 2 false
      ({ dispatcher :=
          { concurrency := 2, keepOrder := false, phase := .selecting true ⟨.read, 0⟩
            workers := [(0, ())], dispatched := 1 }
         rounds := 2, events := [.started 0], answers := [.skip] } : Course Unit Nat) :=
    (((fresh.step (.poll rfl)).surveyed rfl rfl).step
      (.meets (.start rfl rfl Nat.two_pos))).surveyed rfl rfl
  have both : Course.Reaches around 2 false
      ({ dispatcher :=
          { concurrency := 2, keepOrder := false, phase := .selecting false ⟨.read, 0⟩
            workers := [(0, ()), (1, ())], dispatched := 2 }
         rounds := 3, events := [.started 0, .started 1], answers := [.skip] } :
          Course Unit Nat) :=
    (one.step (.meets (.start rfl rfl Nat.one_lt_two))).surveyed rfl rfl
  have second : Course.Reaches around 2 false
      ({ dispatcher :=
          { concurrency := 2, keepOrder := false, phase := .selecting true ⟨.read, 0⟩
            workers := [(0, ())], dispatched := 2
            feed := { shared := [.item 20], pending := 1 } }
         rounds := 4, events := [.started 0, .started 1, .joined 1 (.value 20)]
         answers := [.skip] } : Course Unit Nat) :=
    (both.step (.meets (@Meets.join _ _ _ _ false ⟨.read, 0⟩ 1 (.value 20) rfl rfl
      (List.mem_cons_of_mem _ List.mem_cons_self) ⟨2, rfl, rfl⟩))).surveyed rfl rfl
  have full : Course.Reaches around 2 false
      ({ dispatcher :=
          { concurrency := 2, keepOrder := false, phase := .selecting false ⟨.read, 0⟩
            dispatched := 2, feed := { shared := [.item 20, .item 10], pending := 2 } }
         rounds := 5
         events := [.started 0, .started 1, .joined 1 (.value 20), .joined 0 (.value 10)]
         answers := [.skip] } : Course Unit Nat) :=
    (second.step (.meets (@Meets.join _ _ _ _ true ⟨.read, 0⟩ 0 (.value 10) rfl rfl
      List.mem_cons_self ⟨1, rfl, rfl⟩))).surveyed rfl rfl
  have read : Course.Reaches around 2 false
      ({ dispatcher :=
          { concurrency := 2, keepOrder := false, phase := .selecting false ⟨.read, 0⟩
            dispatched := 2, feed := { reads := 2, empties := 1 } }
         rounds := 5
         events := [.started 0, .started 1, .joined 1 (.value 20), .joined 0 (.value 10)]
         answers := [.skip, .item 20, .item 10] } : Course Unit Nat) :=
    (full.step (.poll rfl)).step (.poll rfl)
  have asking : Course.Reaches around 2 false
      ({ dispatcher :=
          { concurrency := 2, keepOrder := false, phase := .selecting true ⟨.read, 2⟩
            dispatched := 2, feed := { reads := 2, empties := 1 } }
         rounds := 6
         events := [.started 0, .started 1, .joined 1 (.value 20), .joined 0 (.value 10), .read]
         answers := [.skip, .item 20, .item 10] } : Course Unit Nat) :=
    (read.works (.notice rfl rfl rfl)).surveyed rfl rfl
  exact ((asking.step (.meets (.finish rfl rfl ⟨rfl, rfl⟩))).surveyed rfl rfl).step (.poll rfl)

/-- Two actions, run over their elements. -/
theorem visited_finished :
    let action : RiskyStep Unit Nat Unit := fun a _ _ w =>
      (.started { delay := 3 - a, finish := fun _ w => (.ok (.ok ()), w) }, w)
    let numbers : Sequence Unit Nat := ofList [1, 2]
    let stage := (numbers.machine.parallel 2 false
      (RiskyStep.worker action fun _ _ => (.nothing : Outcome Unit))).guarded
    (Setting.consume .drain 0 (Setting.initially stage.hub 0 ())).1 =
      (.finished [.ok 0] : Ending (Consumer.Result Nat)) := by
  decide +kernel

/-- The same two workers, once in a dispatcher of its own and once in a stage on a clock. -/
theorem unordered_parallel_joins_swapped :
    let tenfold : Nat → Nat → Except Failure (Option Nat) := fun a _ => .ok (some (10 * a))
    let action : RiskyStep Unit Nat Unit := fun a _ _ w =>
      (.started { delay := 3 - a, finish := fun _ w => (.ok (.ok ()), w) }, w)
    let numbers : Sequence Unit Nat := ofList [1, 2]
    let stage := (numbers.machine.parallel 2 false
      (RiskyStep.worker action fun _ _ => (.nothing : Outcome Unit))).guarded
    0 < 2 ∧
    (∃ s : Course Unit Nat, s.Reaches (.of tenfold [1, 2] none False) 2 false ∧
      s.answers = [.skip, .item 20, .item 10, .done] ∧
      (outputs s.answers).Perm (inOrder (resultsOf tenfold [1, 2] none))) ∧
    ∃ t, Setting.consume .drain 0 (Setting.initially stage.hub 0 ()) = (.finished [.ok 0], t) ∧
      t.state.1.1.dispatcher.workers = [] ∧ t.state.1.1.dispatcher.detached = [] := by
  intro tenfold action numbers stage
  refine ⟨by decide, ?_, ?_⟩
  · have clean : ∀ e, .error e ∉ resultsOf tenfold [1, 2] none := by
      simp [resultsOf, tenfold]
    have joined := (unordered_parallel_joins (ω := Unit) (β := Nat) (τ := Unit)
      (show 0 < 2 by decide) [1, 2] none).1 tenfold False _ swapped_reaches
    exact ⟨_, swapped_reaches, rfl, joined.2.2.2.1 (by decide) clean⟩
  · have finished : (Setting.consume .drain 0 (Setting.initially stage.hub 0 ())).1 =
        .finished [.ok 0] := visited_finished
    rcases ran : Setting.consume .drain 0 (Setting.initially stage.hub 0 ()) with ⟨ending, t⟩
    rw [ran] at finished
    have finished : ending = .finished [.ok 0] := finished
    subst finished
    have visited := ((unordered_parallel_joins (β := Unit) (τ := Unit) (show 0 < 2 by decide)
      [1, 2] none).2.2 numbers (Machine.ofResults_delivers _)).2 action (fun _ _ => .ok none)
      (fun _ _ _ _ _ _ => rfl)
    obtain ⟨r, same, -, -, ended⟩ := visited.2.2 0 () _ _ ran
    cases same
    obtain ⟨c, -, same, -, workers, detached⟩ := ended 0 rfl
    exact ⟨t, rfl, same ▸ workers, same ▸ detached⟩

/-! ### Failures -/

/-- A stage whose dispatcher does not ask its source neither polls it nor hands out an element:
the world stays as it is, and the source does unless it is dropped. -/
theorem dispatch_quiet (source : Machine ω α) (work : Worker ω α β)
    (s : Parallel.State ω source.State β) (now : Time) (w : ω)
    (quiet : ∀ read, s.dispatcher.phase ≠ .selecting true read) :
    (Parallel.dispatch source work s now w).2.2 = w ∧
      ((Parallel.dispatch source work s now w).2.1.source = s.source ∨
        (Parallel.dispatch source work s now w).2.1.source = source.drop s.source) := by
  obtain ⟨r, d, outcomes, waited⟩ := s
  have settled : ∀ outcomes (after : Dispatcher (Parallel.Running ω β) β),
      (Parallel.settle source r outcomes d after).source = r ∨
        (Parallel.settle source r outcomes d after).source = source.drop r := by
    intro outcomes after
    unfold Parallel.settle
    dsimp only
    split
    · exact .inr rfl
    · exact .inl rfl
  unfold Parallel.dispatch
  dsimp only
  cases phase : d.phase with
  | idle => exact ⟨rfl, .inl rfl⟩
  | stopped => exact ⟨rfl, .inl rfl⟩
  | surveying => exact ⟨rfl, settled _ _⟩
  | selecting mayPull read =>
    cases mayPull with
    | true => exact absurd phase (quiet read)
    | false =>
      cases outcomes with
      | cons => exact ⟨rfl, settled _ _⟩
      | nil =>
        simp only [Bool.false_eq_true, if_false]
        split
        · exact ⟨rfl, settled _ _⟩
        · exact ⟨rfl, .inl rfl⟩

/-- What a dispatcher does behind a failure, be it that of a worker, of the start of a worker or
of its source. Out of order it has stopped. In order a failure of the source is the end of the
source; behind that of a worker the dispatcher asks for elements as long as the failure is
parked, waiting for a worker with a lower position, and takes none `concurrency - 1` positions
or more behind it. Unless it asks, the stage that runs does not poll its source. -/
theorem failure_dispatch {concurrency : Nat} (positive : 0 < concurrency) (keepOrder : Bool) :
    (∀ (around : Surroundings β) (s : Course τ β), s.Reaches around concurrency keepOrder →
      ∀ i e, (i, .error e) ∈ s.observed → ∀ t, Course.Leads around s t →
        (keepOrder = false → t.dispatcher.phase = .stopped) ∧
        (∀ t' event, Course.Step around t t' → t'.events = t.events ++ [event] →
          event.pulls = true → t.Asks) ∧
        (t.Asks → keepOrder = true ∧ (∀ j e', .failed j e' ∉ t.events) ∧
          t.dispatcher.feed.closed = false ∧
          (i, .error e) ∈ t.dispatcher.reorder.parked ∧
          t.dispatcher.reorder.next ∈ t.dispatcher.workers.map Prod.fst ∧
          t.dispatcher.reorder.next < i ∧ t.dispatcher.dispatched + 1 < i + concurrency) ∧
        t.dispatcher.dispatched ≤ max s.dispatcher.dispatched (i + concurrency - 1)) ∧
    ∀ (source : Machine ω α) (work : Worker ω α β) t answers,
      (source.parallel concurrency keepOrder work).Reach t answers →
      ∃ s : Course (Parallel.Running ω β) β, s.Reaches .any concurrency keepOrder ∧
        s.dispatcher = t.1.dispatcher ∧ s.answers = answers ∧
        (¬ s.Asks → ∀ now w,
          (Parallel.dispatch source work t.1 now w).2.2 = w ∧
          ((Parallel.dispatch source work t.1 now w).2.1.source = t.1.source ∨
            (Parallel.dispatch source work t.1 now w).2.1.source = source.drop t.1.source)) := by
  constructor
  · intro around s reached i e failed t leads
    have later := leads.reaches reached
    have known := leads.observed_subset failed
    refine ⟨?_, ?_, later.asks_withheld positive known,
      leads.dispatched_le positive reached failed⟩
    · rintro rfl
      by_contra going
      have ordered := (later.withheld going known).1
      rw [later.constant.2] at ordered
      cases ordered
    · intro t' event step events pulls
      exact step.asks events pulls
  · intro source work t answers reached
    obtain ⟨rounds, events, course⟩ :=
      (Parallel.reach_follows (Parallel.supplies_any source work) reached).course
    refine ⟨_, course, rfl, rfl, ?_⟩
    intro quiet now w
    apply dispatch_quiet
    intro read phase
    exact quiet ⟨rfl, read, phase⟩

/-- The worker of the third element fails. -/
def thirdFails (a i : Nat) : Except Failure (Option Nat) :=
  if i = 2 then .error (.ofOperation "no third") else .ok (some a)

/-- Three workers of which the third failed first and the first ended then: the failure is
parked behind the second worker, and a place is free. -/
def behindSecond : Course Unit Nat where
  dispatcher :=
    { concurrency := 3, keepOrder := true, phase := .selecting true ⟨.read, 0⟩
      workers := [(1, ())], dispatched := 3
      reorder := { parked := [(2, .error (.ofOperation "no third"))], next := 1 }
      feed := { shared := [.item 10], pending := 1 } }
  rounds := 6
  events := [.started 0, .started 1, .started 2,
    .joined 2 (.failed (.ofOperation "no third")), .joined 0 (.value 10)]
  answers := [.skip]

theorem behindSecond_reached :
    behindSecond.Reaches (.of thirdFails [10, 11, 12, 13] none False) 3 true := by
  let around : Surroundings Nat := .of thirdFails [10, 11, 12, 13] none False
  have fresh : Course.Reaches around 3 true
      ({ dispatcher := { concurrency := 3, keepOrder := true } } : Course Unit Nat) := .start
  have one : Course.Reaches around 3 true
      ({ dispatcher :=
          { concurrency := 3, keepOrder := true, phase := .selecting true ⟨.read, 0⟩
            workers := [(0, ())], dispatched := 1 }
         rounds := 2, events := [.started 0], answers := [.skip] } : Course Unit Nat) :=
    (((fresh.step (.poll rfl)).surveyed rfl rfl).step
      (.meets (.start rfl rfl (by decide : 0 < 4)))).surveyed rfl rfl
  have two : Course.Reaches around 3 true
      ({ dispatcher :=
          { concurrency := 3, keepOrder := true, phase := .selecting true ⟨.read, 0⟩
            workers := [(0, ()), (1, ())], dispatched := 2 }
         rounds := 3, events := [.started 0, .started 1], answers := [.skip] } :
          Course Unit Nat) :=
    (one.step (.meets (.start rfl rfl (by decide : 1 < 4)))).surveyed rfl rfl
  have three : Course.Reaches around 3 true
      ({ dispatcher :=
          { concurrency := 3, keepOrder := true, phase := .selecting false ⟨.read, 0⟩
            workers := [(0, ()), (1, ()), (2, ())], dispatched := 3 }
         rounds := 4, events := [.started 0, .started 1, .started 2], answers := [.skip] } :
          Course Unit Nat) :=
    (two.step (.meets (.start rfl rfl (by decide : 2 < 4)))).surveyed rfl rfl
  have failed : Course.Reaches around 3 true
      ({ dispatcher :=
          { concurrency := 3, keepOrder := true, phase := .selecting false ⟨.read, 0⟩
            workers := [(0, ()), (1, ())], dispatched := 3
            reorder := { parked := [(2, .error (.ofOperation "no third"))] } }
         rounds := 5
         events := [.started 0, .started 1, .started 2,
           .joined 2 (.failed (.ofOperation "no third"))]
         answers := [.skip] } : Course Unit Nat) :=
    ((three.step (.meets (@Meets.join _ _ _ _ false ⟨.read, 0⟩ 2
      (.failed (.ofOperation "no third")) rfl rfl (by decide) ⟨12, rfl, rfl⟩))).works
        (.settle rfl rfl)).surveyed rfl rfl
  exact ((((failed.step (.meets (@Meets.join _ _ _ _ false ⟨.read, 0⟩ 0 (.value 10) rfl rfl
    (by decide) ⟨10, rfl, rfl⟩))).works (.deliver rfl rfl rfl)).works
      (.settle rfl rfl)).surveyed rfl rfl)

/-- There the dispatcher takes the element behind the one that has failed, as far as it goes. -/
theorem failure_dispatch_behindSecond :
    0 < 3 ∧ (2, .error (.ofOperation "no third")) ∈ behindSecond.observed ∧
      ∃ t, Course.Leads (.of thirdFails [10, 11, 12, 13] none False) behindSecond t ∧
        t.dispatcher.dispatched = 4 ∧ t.dispatcher.dispatched ≤ max 3 (2 + 3 - 1) := by
  have failed : (2, .error (.ofOperation "no third")) ∈ behindSecond.observed := by decide
  have starts : Course.Leads (.of thirdFails [10, 11, 12, 13] none False) behindSecond _ :=
    Course.Leads.refl.step
      (.meets (@Meets.start _ _ _ _ ⟨.read, 0⟩ () rfl rfl (by decide : 3 < 4)))
  have bounded := (failure_dispatch (ω := Unit) (α := Nat) (β := Nat) (τ := Unit)
    (show 0 < 3 by decide) true).1 _ _ behindSecond_reached 2 _ failed _ starts
  exact ⟨by decide, failed, _, starts, rfl, bounded.2.2.2⟩

/-- So it is not true that behind a failure nothing is pulled and nobody is started. -/
theorem failure_does_not_stop_dispatch :
    ¬ ∀ (around : Surroundings Nat) (s : Course Unit Nat), s.Reaches around 3 true →
      ∀ i e, (i, .error e) ∈ s.observed → ∀ s' event, Course.Step around s s' →
        s'.events = s.events ++ [event] → event.pulls = false := by
  intro stops
  have quiet := stops _ _ behindSecond_reached 2 (.ofOperation "no third") (by decide) _
    (.started 3) (.meets (@Meets.start _ _ _ _ ⟨.read, 0⟩ () rfl rfl (by decide : 3 < 4))) rfl
  cases quiet

end PullStream.Sequence
