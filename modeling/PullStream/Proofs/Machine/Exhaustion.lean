import PullStream.JobQueue
import PullStream.Proofs.Feed.Ledger
import PullStream.Proofs.Parallel.Advancing
import PullStream.Sequence

/-!
Machines whose end is permanent, and machines whose end is brittle.

A list that has run out stays so; two machines in a row end with the second, a nest of
machines with the outer one; a consumer of a feed that has reported the end is
finished, whatever fills the feed. The consumers of a job queue break after their stop.
-/

namespace PullStream.Machine

variable {ω α β ι : Type}

/-! ### Lists -/

theorem ofResults_permanent (items : List (Except Failure α)) :
    (ofResults (ω := ω) items).Permanent := by
  refine permanent_of_over (fun s => s = []) (fun s now w done => ?_) (fun s now w isOver => ?_)
    fun _ _ _ isOver => isOver
  · cases s with
    | nil => rfl
    | cons r rest => cases r <;> cases done
  · subst isOver
    rfl

theorem ofListAfter_permanent (m : Machine ω α) (state : m.State) (items : List α) :
    (ofListAfter m state items).Permanent := by
  refine permanent_of_over (fun s : List α × m.State => s.1 = [])
    (fun s now w done => ?_) (fun s now w isOver => ?_) fun _ _ _ isOver => isOver
  · obtain ⟨_ | _, r⟩ := s
    · rfl
    · cases done
  · obtain ⟨_ | _, r⟩ := s
    · rfl
    · cases isOver

theorem range_permanent (first last : Int64) :
    (Sequence.range (ω := ω) first last).machine.Permanent := by
  refine @permanent_of_over _ _ (Sequence.range (ω := ω) first last).machine
    (fun n : Int => ¬ n ≤ last.toInt) (fun n now w done => ?_) (fun n now w isOver => ?_)
    fun _ _ _ isOver => isOver
  · simp only [Sequence.range, immediate] at done ⊢
    split
    · rename_i within
      rw [if_pos within] at done
      cases done
    · assumption
  · simp only [Sequence.range, immediate]
    rw [if_neg isOver]

/-! ### Machines made of machines -/

/-- The end of two machines in a row is that of the second, whose failures are passed on. -/
theorem append_asked {first second : Machine ω α} {s : (first.append second).State}
    {answers : List (Answer α)} (reached : (first.append second).Reach s answers) :
    ∃ asked, second.Reach s.2.1 asked ∧ (∀ e, .fail e ∈ asked → .fail e ∈ answers) ∧
      (.done ∈ answers → s.2.2 = true ∧ .done ∈ asked) := by
  induction reached with
  | start =>
    exact ⟨[], .start, fun _ h => absurd h List.not_mem_nil, fun h => absurd h List.not_mem_nil⟩
  | @tick s answers _ now w ih =>
    obtain ⟨asked, reached, failed, ended⟩ := ih
    simp only [append]
    split
    · exact ⟨asked, reached, failed, ended⟩
    · exact ⟨asked, reached.tick now _, failed, ended⟩
  | @poll s answers _ now w ih =>
    obtain ⟨asked, reached, failed, ended⟩ := ih
    obtain ⟨r, t, isOver⟩ := s
    cases isOver with
    | true =>
      refine ⟨asked ++ [(second.poll t now w).1], reached.poll now w, fun e member => ?_,
        fun done => ⟨rfl, ?_⟩⟩
      · rcases List.mem_append.mp member with old | new
        · exact List.mem_append_left _ (failed e old)
        · exact List.mem_append_right _ new
      · rcases List.mem_append.mp done with old | new
        · exact List.mem_append_left _ (ended old).2
        · exact List.mem_append_right _ new
    | false =>
      have live : .done ∉ answers := fun old => absurd (ended old).1 Bool.false_ne_true
      have failed : ∀ (b : Answer α) e, .fail e ∈ asked → .fail e ∈ answers ++ [b] :=
        fun b e member => List.mem_append_left _ (failed e member)
      simp only [append, Bool.false_eq_true, if_false]
      split
      · exact ⟨asked, reached, failed _, fun done => absurd done (by simpa using live)⟩
      · rename_i a r' w' notDone h
        refine ⟨asked, reached, failed _, fun done => absurd done ?_⟩
        simpa using ⟨live, fun same => notDone same.symm⟩

theorem append_permanent (first : Machine ω α) {second : Machine ω α}
    (permanent : second.Permanent) : (first.append second).Permanent := by
  intro s answers reached done now w
  obtain ⟨asked, reached, -, ended⟩ := append_asked reached
  obtain ⟨isOver, told⟩ := ended done
  simp only [append, isOver, if_true]
  exact permanent reached told now w

theorem append_brittle (first : Machine ω α) {second : Machine ω α}
    (brittle : second.Brittle) : (first.append second).Brittle := by
  intro s answers reached done clean now w
  obtain ⟨asked, reached, failed, ended⟩ := append_asked reached
  obtain ⟨isOver, told⟩ := ended done
  simp only [append, isOver, if_true]
  exact brittle reached told (fun e member => clean e (failed e member)) now w

/-- The end of a nest is reported between two inner machines, by the outer one, if that has no
element behind its end. Unless it is `lenient`, it is only known to have none while it has not
failed. -/
theorem flatMapAsync_asked {outer : Machine ω α} {inner : ι → Machine ω β} {f : SlowStep ω α ι}
    (lenient : Prop) (quiet : ∀ {s asked}, outer.Reach s asked → .done ∈ asked →
      lenient ∨ (∀ e, .fail e ∉ asked) → ∀ now w a, (outer.poll s now w).1 ≠ .item a)
    {s : (outer.flatMapAsync inner f).State} {answers : List (Answer β)}
    (reached : (outer.flatMapAsync inner f).Reach s answers) :
    ∃ asked, outer.Reach s.1 asked ∧ (∀ e, .fail e ∈ asked → .fail e ∈ answers) ∧
      (lenient ∨ (∀ e, .fail e ∉ answers) → .done ∈ answers →
        s.2.2 = .outer ∧ .done ∈ asked) := by
  induction reached with
  | start =>
    exact ⟨[], .start, fun _ h => absurd h List.not_mem_nil,
      fun _ h => absurd h List.not_mem_nil⟩
  | @tick s answers _ now w ih =>
    obtain ⟨asked, reached, failed, ended⟩ := ih
    obtain ⟨r, index, nested⟩ := s
    have next := reached.tick now w
    simp only [flatMapAsync]
    split
    · rename_i r' w' h
      rw [h] at next
      exact ⟨asked, next, failed, ended⟩
    · rename_i r' w' h
      rw [h] at next
      cases nested with
      | outer => exact ⟨asked, next, failed, ended⟩
      | opening p => exact ⟨asked, next, failed, ended⟩
      | within i t =>
        exact ⟨asked, next, failed, fun kept done => absurd (ended kept done).1 (by simp)⟩
  | @poll s answers _ now w ih =>
    obtain ⟨asked, reached, failed, ended⟩ := ih
    obtain ⟨r, index, nested⟩ := s
    have before : ∀ {b : Answer β}, lenient ∨ (∀ e, .fail e ∉ answers ++ [b]) →
        lenient ∨ ∀ e, .fail e ∉ answers := fun kept =>
      kept.imp_right fun clean e member => clean e (List.mem_append_left _ member)
    have failed' : ∀ (b : Answer β) e, .fail e ∈ asked → .fail e ∈ answers ++ [b] :=
      fun b e member => List.mem_append_left _ (failed e member)
    cases nested with
    | outer =>
      have next := reached.poll now w
      simp only [flatMapAsync]
      split
      · rename_i a r' w' h
        have told := fun done kept => quiet reached done kept now w a
        rw [h] at next told
        refine ⟨_, next, fun e member => ?_, fun kept done => ?_⟩
        · have old : .fail e ∈ asked := by simpa using member
          exact failed' _ e old
        · have old : .done ∈ answers := by simpa using done
          have below : lenient ∨ ∀ e, .fail e ∉ asked := (before kept).imp_right
            fun clean e member => clean e (failed e member)
          exact absurd rfl (told (ended (before kept) old).2 below)
      · rename_i g r' w' h
        rw [h] at next
        refine ⟨_, next, fun e member => ?_, fun kept done => ⟨rfl, ?_⟩⟩
        · rcases List.mem_append.mp member with old | new
          · exact failed' _ e old
          · have same := Answer.signal.inj (List.mem_singleton.mp new)
            exact List.mem_append_right _ (by simp [same])
        · rcases List.mem_append.mp done with old | new
          · exact List.mem_append_left _ (ended (before kept) old).2
          · have same := Answer.signal.inj (List.mem_singleton.mp new)
            exact List.mem_append_right _ (by simp [same])
    | opening p =>
      have live : lenient ∨ (∀ e, .fail e ∉ answers) → .done ∉ answers := fun kept old =>
        absurd (ended kept old).1 (by simp)
      simp only [flatMapAsync]
      split
      · exact ⟨asked, reached, failed' _, fun kept done =>
          absurd done (by simpa using live (before kept))⟩
      · split
        · exact ⟨asked, reached, failed' _, fun kept done =>
            absurd done (by simpa using live (before kept))⟩
        · exact ⟨asked, reached, failed' _, fun kept done =>
            absurd done (by simpa using live (before kept))⟩
    | within i t =>
      have live : lenient ∨ (∀ e, .fail e ∉ answers) → .done ∉ answers := fun kept old =>
        absurd (ended kept old).1 (by simp)
      simp only [flatMapAsync]
      split
      · exact ⟨asked, reached, failed' _, fun kept done =>
          absurd done (by simpa using live (before kept))⟩
      · rename_i a t' w' notDone h
        refine ⟨asked, reached, failed' _, fun kept done => absurd done ?_⟩
        simpa using ⟨live (before kept), fun same => notDone same.symm⟩

/-- Between two inner machines, a signal of the outer one is passed on. -/
theorem flatMapAsync_poll_outer {outer : Machine ω α} {inner : ι → Machine ω β}
    {f : SlowStep ω α ι} {s : (outer.flatMapAsync inner f).State} (between : s.2.2 = .outer)
    {now : Time} {w : ω} {g : Signal} (signal : (outer.poll s.1 now w).1 = .signal g) :
    ((outer.flatMapAsync inner f).poll s now w).1 = .signal g := by
  obtain ⟨r, index, nested⟩ := s
  cases between
  simp only [flatMapAsync]
  split
  · rename_i h
    rw [h] at signal
    cases signal
  · rename_i h
    rw [h] at signal
    exact congrArg Answer.signal (Answer.signal.inj signal)

theorem flatMapAsync_permanent {outer : Machine ω α} (inner : ι → Machine ω β)
    (f : SlowStep ω α ι) (permanent : outer.Permanent) :
    (outer.flatMapAsync inner f).Permanent := by
  intro s answers reached done now w
  obtain ⟨asked, reached, -, ended⟩ := flatMapAsync_asked True
    (fun reached done _ now w a same => by
      rw [permanent reached done now w] at same
      cases same) reached
  obtain ⟨between, told⟩ := ended (.inl trivial) done
  exact flatMapAsync_poll_outer between (permanent reached told now w)

theorem flatMapAsync_brittle {outer : Machine ω α} (inner : ι → Machine ω β)
    (f : SlowStep ω α ι) (brittle : outer.Brittle) : (outer.flatMapAsync inner f).Brittle := by
  intro s answers reached done clean now w
  obtain ⟨asked, reached, failed, ended⟩ := flatMapAsync_asked False
    (fun reached done kept now w a same => by
      rw [brittle reached done (kept.resolve_left id) now w] at same
      cases same) reached
  obtain ⟨between, told⟩ := ended (.inr clean) done
  exact flatMapAsync_poll_outer between
    (brittle reached told (fun e member => clean e (failed e member)) now w)

/-! ### Machines with a feed -/

/-- What a producer's call makes of a feed; a call of the consumer's makes nothing. -/
def produce (f : Feed α) : Feed.Call α → Feed α
  | .feed a => (f.feed a).toOption.getD f
  | .throw e => (f.throw e).toOption.getD f
  | .close => f.close
  | _ => f

theorem produce_produced (f : Feed α) (call : Feed.Call α) : Feed.Produced f (produce f call) := by
  cases call with
  | feed a =>
    simp only [produce]
    cases h : f.feed a with
    | ok f' => exact (Feed.feed_ok h).2.2.2
    | error e => exact .refl f
  | throw e =>
    simp only [produce]
    cases h : f.throw e with
    | ok f' => exact (Feed.throw_ok h).2.2.2
    | error e => exact .refl f
  | close => exact Feed.close_produced f
  | consume => exact .refl f
  | refill => exact .refl f
  | poll => exact .refl f
  | drop => exact .refl f

/-- The consumer of a feed as a machine. The world brings what the producers do. -/
def ofFeed : Machine (Feed.Call α) α where
  State := Feed α
  start := { attached := true }
  poll f _ call := (f.poll.1, f.poll.2, call)
  tick f _ call := (true, produce f call, call)
  alarms _ := []
  drop f := f.drop

theorem ofFeed_permanent : (ofFeed (α := α)).Permanent :=
  @permanent_of_over _ _ ofFeed (fun f => f.finished = true)
    (fun _ _ _ done => Feed.finished_of_poll_done done)
    (fun _ _ _ finished => congrArg Prod.fst (Feed.poll_of_finished finished))
    fun f _ call finished => (produce_produced f call).finished.trans finished

theorem parallel_permanent (source : Machine ω α) (concurrency : Nat) (keepOrder : Bool)
    (work : Worker ω α β) : (source.parallel concurrency keepOrder work).Permanent := by
  let isOver (s : Parallel.State ω source.State β) : Prop :=
    s.dispatcher.phase ≠ .idle ∧ s.dispatcher.feed.finished = true
  refine @permanent_of_over _ _ (source.parallel concurrency keepOrder work) (fun s => isOver s.1)
    (fun s now w done => ?_) (fun s now w h => ?_) fun s now w h => ?_
  · obtain ⟨p, turn⟩ := s
    by_cases fresh : p.dispatcher.phase = .idle
    · simp [parallel, Dispatcher.poll, fresh] at done
    · simp only [parallel, Dispatcher.poll, fresh, if_false] at done ⊢
      exact ⟨fresh, Feed.finished_of_poll_done done⟩
  · obtain ⟨p, turn⟩ := s
    simp only [parallel, Dispatcher.poll, h.1, if_false, Feed.poll_of_finished h.2]
  · refine Parallel.tick_preserves isOver (fun s w h => h) (fun s w h => ?_) (fun s w h => ?_)
      (fun s b h => h) s w h
    · have goes := Parallel.dispatch_goes work h.1 now w
      exact ⟨goes.started, goes.feed.finished.trans h.2⟩
    · have step := Parallel.finishWorker_cases s now w
      generalize (Parallel.finishWorker s now w).2.1 = s' at step
      cases step <;> exact h

/-! ### Job queues -/

/-- A generator that has noticed its stop knows it. -/
theorem spent_of_next_stop (g : Polling.Generator) (draw : Binary64) (now : Time) (stopped : Bool)
    (h : (g.next draw now stopped).1 = .stop) : (g.next draw now stopped).2.phase = .spent := by
  have handed : ∀ {g : Polling.Generator}, (g.handOut stopped).1 = .stop →
      (g.handOut stopped).2.phase = .spent := by
    intro g h
    unfold Polling.Generator.handOut at h ⊢
    split
    · rfl
    · rename_i going
      simp [going] at h
  have waited : ∀ {g : Polling.Generator} {due : Time}, (g.keepWaiting due now stopped).1 = .stop →
      (g.keepWaiting due now stopped).2.phase = .spent := by
    intro g due h
    unfold Polling.Generator.keepWaiting at h ⊢
    split
    · rename_i isOver
      rw [if_pos isOver] at h
      exact handed h
    · rename_i waiting
      simp [waiting] at h
  unfold Polling.Generator.next at h ⊢
  split
  · exact handed (by simpa [*] using h)
  · exact handed (by simpa [*] using h)
  · exact waited (by simpa [*] using h)
  · exact waited (by simpa [*] using h)
  · rename_i spent
    simp [spent] at h

/-- A generator that has noticed its stop must not be asked again. -/
theorem consumerWith_brittle (g : Polling.Generator)
    (take : JobQueue → Option α × JobQueue) : (JobQueue.consumerWith g take).Brittle := by
  refine @brittle_of_over _ _ (JobQueue.consumerWith g take) (fun g => g.phase = .spent)
    (fun g now w done => ?_) (fun g now w spent => ?_) fun _ _ _ spent => spent
  · simp only [JobQueue.consumerWith] at done ⊢
    have stop := spent_of_next_stop g w.draw now w.stopped
    generalize g.next w.draw now w.stopped = result at stop done ⊢
    obtain ⟨answer, g'⟩ := result
    cases answer with
    | round =>
      dsimp only at done
      split at done <;> cases done
    | stop => exact stop rfl
    | wait => cases done
    | misused => simp [Answer.spent] at done
  · have misused : Polling.Generator.next g w.draw now w.stopped = (.misused, g) := by
      unfold Polling.Generator.next
      rw [show Polling.Generator.phase g = .spent from spent]
      rfl
    simp only [JobQueue.consumerWith, misused]
    exact ⟨trivial, spent⟩

end PullStream.Machine
