import PullStream.Proofs.Clockwork
import PullStream.Proofs.Folding
import PullStream.Proofs.Machine.Draining
import PullStream.Proofs.Parallel.Failing
import PullStream.Proofs.Parallel.Progress
import PullStream.Proofs.Parallel.Unordered

/-!
Consumers behind a dispatcher.

The dispatcher goes on under any schedule: its workers end in any order, and its consumer may
come at any time. Until the consumer has its result, the dispatcher has something to do or an
answer for it, and each of these brings both nearer to the end. Behind an ordered dispatcher a
fold has one result. Behind an unordered one the result of a count says which failure has come
first, or that every worker has ended.

* `Course.Advances`, `Course.Advances.left_lt` — what brings them nearer, and how near they are.
* `Course.Step.left_le` — nothing takes them back.
* `Course.Reaches.advances` — there is always something of this kind.
* `Course.Approaches`, `Course.Approaches.of_wants` — so the consumer comes to its result.
* `Course.reduce_concludes` — the result of a fold.
* `Course.drain_completes` — the result of a count.
-/

namespace PullStream.Dispatcher.Course

open Consumer (reduce Result)

variable {ω α β σ ρ τ : Type} {around : Surroundings β} {s s' : Course τ β} {concurrency : Nat}
  {keepOrder : Bool} {result : α → Nat → Except Failure (Option β)} {xs : List α}
  {fault : Option Failure} {breaks : Prop}

/-! ### Towards the end -/

/-- What brings a dispatcher and its consumer nearer to the end: the dispatcher does something, or
the consumer asks and need not wait. -/
inductive Advances (around : Surroundings β) (s : Course τ β) : Course τ β → Prop where
  | works {t} : Works s t → Advances around s t
  | meets {t} : Meets around s t → Advances around s t
  | answers : s.dispatcher.feed.abandoned = false → s.dispatcher.poll.1 ≠ .wait →
      Advances around s { s with
        dispatcher := s.dispatcher.poll.2
        answers := s.answers ++ [s.dispatcher.poll.1] }

/-- One thing happens first. -/
theorem Leads.head {t : Course τ β} (leads : Leads around s' t) (step : Step around s s') :
    Leads around s t := by
  induction leads with
  | refl => exact .step .refl step
  | step _ next ih => exact ih.step next

theorem Advances.step (advances : Advances around s s') : Step around s s' := by
  cases advances with
  | works works => exact .works works
  | meets meets => exact .meets meets
  | answers present _ => exact .poll present

/-- How much is left to be done over `total` elements, and to arrive. -/
def left (total : Nat) (s : Course τ β) : Nat :=
  burden total s + (total + 2 - (arrivals s.answers).length)

/-- Until the end, what has arrived has been delivered. -/
theorem length_arrivals {answers : List (Answer β)} (unfinished : .done ∉ answers) :
    (arrivals answers).length = (outputs answers).length := by
  rw [← resultsIn_arrivals, resultsIn, eq_comm, List.filterMap_length_eq_length]
  intro a member
  cases a with
  | item b => rfl
  | failure e => rfl
  | ended => exact absurd (ended_mem_arrivals.mp member) unfinished

theorem length_inOrder_le (rs : List (Except Failure (Option β))) :
    (inOrder rs).length ≤ rs.length := by
  induction rs with
  | nil => exact Nat.le_refl _
  | cons r rs ih =>
    rcases r with e | _ | b
    · exact Nat.succ_le_succ (Nat.zero_le _)
    · exact Nat.le_succ_of_le ih
    · exact Nat.succ_le_succ ih

/-- What has been delivered is no more than there are elements, with the failure behind them. -/
theorem Reaches.length_outputs_le (positive : 0 < concurrency)
    (reached : s.Reaches (.of result xs fault breaks) concurrency keepOrder) :
    (outputs s.answers).length ≤ xs.length + 1 := by
  have faults : fault.toList.length ≤ 1 := by cases fault <;> simp
  have all : (resultsOf result xs fault).length ≤ xs.length + 1 := by
    rw [length_resultsOf]
    exact Nat.add_le_add_left faults _
  cases keepOrder with
  | true =>
    have first := reached.ordered.outputs_prefix.length_le
    exact Nat.le_trans first (Nat.le_trans (length_inOrder_le _) all)
  | false =>
    have joined := (reached.gathered positive).joinOrder reached.placed
    have first := Nat.le_trans joined.delivered.length_le (length_inOrder_le _)
    exact Nat.le_trans first (Nat.le_trans joined.once.length_le all)

/-- Until the end, more may arrive. -/
theorem Reaches.arrivals_lt (positive : 0 < concurrency)
    (reached : s.Reaches (.of result xs fault breaks) concurrency keepOrder)
    (unfinished : .done ∉ s.answers) : (arrivals s.answers).length < xs.length + 2 := by
  rw [length_arrivals unfinished]
  exact Nat.lt_succ_of_le (reached.length_outputs_le positive)

theorem got_answers (s : Course τ β) (d : Dispatcher τ β) (index : Nat)
    (r : Except Failure (Option β)) (event : Event β) :
    (s.got d index r event).answers = s.answers := by
  unfold got
  split <;> rfl

theorem Meets.answers_eq (meets : Meets around s s') : s'.answers = s.answers := by
  cases meets with
  | join => exact got_answers _ _ _ _ _
  | panic => exact got_answers _ _ _ _ _
  | fail => exact got_answers _ _ _ _ _
  | start => rfl
  | finish => rfl
  | broke => rfl

/-- A feed that lets nobody wait has an arrival. -/
theorem arrival_of_spoke (f : Feed β) (spoke : f.poll.1 ≠ .wait) :
    ∃ a, f.poll.1.arrival? = some a := by
  have spec := f.poll_spec
  generalize f.poll.1 = a, f.poll.2 = f' at spec spoke
  cases spec with
  | late => exact ⟨_, rfl⟩
  | item => exact ⟨_, rfl⟩
  | failure => exact ⟨_, rfl⟩
  | ended => exact ⟨_, rfl⟩
  | waiting => exact absurd rfl spoke

/-- An answer starts the dispatcher, or it is an arrival. -/
theorem Reaches.poll_left_lt (positive : 0 < concurrency)
    (reached : s.Reaches (.of result xs fault breaks) concurrency keepOrder)
    (unfinished : .done ∉ s.answers) (spoke : s.dispatcher.poll.1 ≠ .wait) :
    left xs.length { s with
      dispatcher := s.dispatcher.poll.2
      answers := s.answers ++ [s.dispatcher.poll.1] } < left xs.length s := by
  have poised := reached.afoot.poised
  have room := reached.arrivals_lt positive unfinished
  simp only [left, arrivals_concat, List.length_append]
  by_cases idle : s.dispatcher.phase = .idle
  · rw [idle] at poised
    have polled : s.dispatcher.poll = (.skip, { s.dispatcher with phase := .surveying }) :=
      if_pos idle
    rw [polled]
    simp only [burden, poised.resting_of_idle, idle, Stage.rank, parked, Answer.arrival?,
      Option.toList_none, List.length_nil]
    omega
  · have polled : s.dispatcher.poll =
        (s.dispatcher.feed.poll.1, { s.dispatcher with feed := s.dispatcher.feed.poll.2 }) :=
      if_neg idle
    rw [polled] at spoke ⊢
    obtain ⟨a, arrives⟩ := arrival_of_spoke _ spoke
    dsimp only
    rw [arrives, Option.toList_some, List.length_singleton]
    simp only [burden, parked]
    omega

/-- Whatever brings them nearer does so by one at least. -/
theorem Advances.left_lt (positive : 0 < concurrency)
    (reached : s.Reaches (.of result xs fault breaks) concurrency keepOrder)
    (unfinished : .done ∉ s.answers) (advances : Advances (.of result xs fault breaks) s s') :
    s'.left xs.length < s.left xs.length := by
  have bounded : ∀ n, (Surroundings.of result xs fault breaks).element n → n < xs.length :=
    fun _ more => more
  have tally := reached.tally bounded
  have room := reached.arrivals_lt positive unfinished
  cases advances with
  | works works =>
    have less := works.burden_lt reached.afoot (works.tally reached.afoot tally)
    have same : s'.answers = s.answers := by cases works <;> rfl
    rw [left, left, same]
    omega
  | meets meets =>
    have less := meets.burden_lt bounded reached.placed
    rw [left, left, meets.answers_eq]
    omega
  | answers _ spoke => exact reached.poll_left_lt positive unfinished spoke

/-- Nothing that may happen takes them farther from the end. -/
theorem Step.left_le
    (reached : s.Reaches (.of result xs fault breaks) concurrency keepOrder)
    (step : Step (.of result xs fault breaks) s s') : s'.left xs.length ≤ s.left xs.length := by
  have bounded : ∀ n, (Surroundings.of result xs fault breaks).element n → n < xs.length :=
    fun _ more => more
  have less := step.burden_le bounded reached.afoot reached.placed (reached.tally bounded)
  have more : (arrivals s.answers).length ≤ (arrivals s'.answers).length := by
    cases step with
    | works works => cases works <;> exact Nat.le_refl _
    | meets meets => exact Nat.le_of_eq (by rw [meets.answers_eq])
    | stir => exact Nat.le_refl _
    | refill => exact Nat.le_refl _
    | poll =>
      rw [arrivals_concat, List.length_append]
      exact Nat.le_add_right _ _
    | drop => exact Nat.le_refl _
  rw [left, left]
  omega

/-- As long as its consumer is there, a dispatcher and its consumer can go on. -/
theorem Reaches.advances [Nonempty τ] (positive : 0 < concurrency) (sturdy : ¬ breaks)
    (reached : s.Reaches (.of result xs fault breaks) concurrency keepOrder)
    (present : s.dispatcher.feed.abandoned = false) :
    ∃ s', Advances (.of result xs fault breaks) s s' := by
  by_cases waits : s.dispatcher.poll.1 = .wait
  · rcases reached.busy_of_wait positive sturdy present waits with ⟨s', works | meets⟩
    · exact ⟨s', .works works⟩
    · exact ⟨s', .meets meets⟩
  · exact ⟨_, .answers present waits⟩

/-! ### Coming to a result -/

/-- What a dispatcher does by itself neither brings its consumer back nor sends it away. -/
theorem Works.abandoned (works : Works s s') (a : Afoot s) :
    s'.dispatcher.feed.abandoned = s.dispatcher.feed.abandoned := by
  have isOpen := a.isOpen (works.going a)
  cases works with
  | deliver => exact (deliver_deposited isOpen _).abandoned
  | stop => exact (deliver_deposited isOpen _).abandoned
  | register => rfl
  | leave => rfl
  | stay => rfl
  | close => rfl
  | select => rfl
  | notice => rfl
  | settle => rfl

theorem Meets.abandoned (meets : Meets around s s') (a : Afoot s) :
    s'.dispatcher.feed.abandoned = s.dispatcher.feed.abandoned := by
  have isOpen := a.isOpen meets.going
  cases meets with
  | join => exact (got_due s (by exact isOpen) _ _ _).2.2
  | panic => exact (got_due s (by exact isOpen) _ _ _).2.2
  | fail => exact (got_due s (by exact isOpen) _ _ _).2.2
  | start => rfl
  | finish => rfl
  | broke => rfl

/-- The consumer is still there when they have come nearer. -/
theorem Advances.present (advances : Advances around s s') (a : Afoot s)
    (present : s.dispatcher.feed.abandoned = false) :
    s'.dispatcher.feed.abandoned = false := by
  cases advances with
  | works works => rwa [works.abandoned a]
  | meets meets => rwa [meets.abandoned a]
  | answers =>
    change s.dispatcher.poll.2.feed.abandoned = false
    rwa [poll_abandoned]

/-- A consumer that asks takes what there is for it. -/
theorem Advances.took {c : Consumer ω β (Result ρ)} {memory : c.Memory}
    (advances : Advances around s s') (took : c.Took s.answers memory)
    (wants : c.want memory = .pull) (w : ω) : ∃ memory', c.Took s'.answers memory' := by
  cases advances with
  | works works =>
    have same : s'.answers = s.answers := by cases works <;> rfl
    exact ⟨memory, same ▸ took⟩
  | meets meets => exact ⟨memory, meets.answers_eq ▸ took⟩
  | answers => exact ⟨_, took.hear wants _ 0 w⟩

/-- What a dispatcher and its consumer come to under every schedule. As long as the consumer is
there, the two can go on, which brings them nearer to the end as long as it asks, and nothing takes
them back. So it comes to a result. -/
structure Approaches (around : Surroundings β) (τ : Type) (concurrency : Nat) (keepOrder : Bool)
    (total : Nat) (c : Consumer ω β (Result ρ)) : Prop where
  goesOn : ∀ {s : Course τ β}, s.Reaches around concurrency keepOrder →
    s.dispatcher.feed.abandoned = false →
    ∃ s', Advances around s s' ∧ s'.Reaches around concurrency keepOrder
  nearer : ∀ {s s' : Course τ β} {memory}, s.Reaches around concurrency keepOrder →
    c.Took s.answers memory → c.want memory = .pull → Advances around s s' →
    s'.left total < s.left total
  noFarther : ∀ {s s' : Course τ β}, s.Reaches around concurrency keepOrder → Step around s s' →
    s'.left total ≤ s.left total
  returns : ∀ {s : Course τ β} {memory}, s.Reaches around concurrency keepOrder →
    c.Took s.answers memory → s.dispatcher.feed.abandoned = false → ∀ _ : ω,
    ∃ s' memory' r, Leads around s s' ∧ c.Took s'.answers memory' ∧ c.want memory' = .finish r

/-- A consumer that asks until it has its result, and has it at the end. -/
theorem Approaches.of_wants [Nonempty τ] {c : Consumer ω β (Result ρ)}
    (positive : 0 < concurrency) (sturdy : ¬ breaks)
    (wants : ∀ {s : Course τ β} {memory},
      s.Reaches (.of result xs fault breaks) concurrency keepOrder → c.Took s.answers memory →
      c.want memory = .pull ∧ .done ∉ s.answers ∨ ∃ r, c.want memory = .finish r) :
    Approaches (.of result xs fault breaks) τ concurrency keepOrder xs.length c := by
  have goesOn : ∀ {s : Course τ β},
      s.Reaches (.of result xs fault breaks) concurrency keepOrder →
      s.dispatcher.feed.abandoned = false →
      ∃ s', Advances (.of result xs fault breaks) s s' ∧
        s'.Reaches (.of result xs fault breaks) concurrency keepOrder := by
    intro s reached present
    obtain ⟨s', advances⟩ := reached.advances positive sturdy present
    exact ⟨s', advances, reached.step advances.step⟩
  have nearer : ∀ {s s' : Course τ β} {memory},
      s.Reaches (.of result xs fault breaks) concurrency keepOrder → c.Took s.answers memory →
      c.want memory = .pull → Advances (.of result xs fault breaks) s s' →
      s'.left xs.length < s.left xs.length := by
    intro s s' memory reached took pulls advances
    rcases wants reached took with ⟨-, unfinished⟩ | ⟨r, finished⟩
    · exact advances.left_lt positive reached unfinished
    · cases pulls.symm.trans finished
  refine ⟨goesOn, nearer, fun reached step => step.left_le reached, ?_⟩
  -- By induction on what is left, which every advance makes less.
  intro s memory reached took present w
  induction h : s.left xs.length using Nat.strongRecOn generalizing s memory with
  | ind n ih =>
    subst h
    rcases wants reached took with ⟨pulls, -⟩ | ⟨r, finished⟩
    · obtain ⟨s', advances, reached'⟩ := goesOn reached present
      obtain ⟨memory', took'⟩ := advances.took took pulls w
      obtain ⟨t, last, r, leads, tookAll, finished⟩ := ih _ (nearer reached took pulls advances)
        reached' took' (advances.present reached.afoot present) rfl
      exact ⟨t, last, r, leads.head advances.step, tookAll, finished⟩
    · exact ⟨s, memory, r, .refl, took, finished⟩

/-! ### Folds -/

/-- What an ordered dispatcher gives a consumer under every schedule: its result, as soon as the
dispatcher has failed or ended. -/
structure Concludes (around : Surroundings β) (τ : Type) (concurrency total : Nat)
    (c : Consumer ω β (Result ρ)) (r : Result ρ) : Prop
    extends Approaches around τ concurrency true total c where
  wants : ∀ {s : Course τ β} {memory}, s.Reaches around concurrency true →
    c.Took s.answers memory → c.want memory = .pull ∨ c.want memory = .finish r
  ends : ∀ {s : Course τ β} {memory}, s.Reaches around concurrency true →
    c.Took s.answers memory → .done ∈ s.answers ∨ (∃ e, .fail e ∈ s.answers) →
    c.want memory = .finish r

theorem reduce_concludes [Nonempty τ] {start : σ} {f : σ → PullStream.Step ω β σ}
    {finish : σ → Result ρ} {h : σ → β → Nat → Except Failure σ} (positive : 0 < concurrency)
    (sturdy : ¬ breaks) (gives : ∀ s, (f s).Gives (h s)) :
    Concludes (.of result xs fault breaks) τ concurrency xs.length (reduce start f finish)
      ((foldResults h start 0 (inOrder (resultsOf result xs fault))).bind finish) := by
  have wants : ∀ {s : Course τ β} {memory},
      s.Reaches (.of result xs fault breaks) concurrency true →
      (reduce start f finish).Took s.answers memory →
      (reduce start f finish).want memory = .pull ∨ (reduce start f finish).want memory =
        .finish ((foldResults h start 0 (inOrder (resultsOf result xs fault))).bind finish) := by
    intro s memory reached took
    have ordered := reached.ordered
    exact (Consumer.took_reduce gives took).wants ordered.outputs_prefix ordered.outputs_of_done
  refine ⟨.of_wants positive sturdy fun reached took => ?_, wants, ?_⟩
  · rcases wants reached took with pulls | finished
    · exact .inl ⟨pulls, ((Consumer.took_reduce gives took).unfinished pulls).1⟩
    · exact .inr ⟨_, finished⟩
  · intro s memory reached took isOver
    have ordered := reached.ordered
    exact (Consumer.took_reduce gives took).finishes ordered.outputs_prefix
      ordered.outputs_of_done isOver

/-! ### Counts -/

/-- What the result of a count says about an unordered dispatcher: that all results have come and
none of them is a failure, and that nobody works for it any more; or which failure has come, before
any other. -/
inductive Settled (expected : List (Except Failure (Option β))) (s : Course τ β) :
    Result Nat → Prop where
  | all {n} : (∀ e, .error e ∉ expected) → s.results.Perm expected → s.dispatcher.workers = [] →
      s.dispatcher.detached = [] → Settled expected s (.ok n)
  | failed {e} : .error e ∈ expected → s.results = s.results.dropLast ++ [.error e] →
      (∀ e', .error e' ∉ s.results.dropLast) → Settled expected s (.error e)

/-- A count succeeds exactly if there is no failure among the results. -/
theorem Settled.ok_iff {expected : List (Except Failure (Option β))} {r : Result Nat}
    (settled : Settled expected s r) : (∃ n, r = .ok n) ↔ ∀ e, .error e ∉ expected := by
  cases settled with
  | all clean => exact ⟨fun _ => clean, fun _ => ⟨_, rfl⟩⟩
  | @failed e member =>
    constructor
    · rintro ⟨n, same⟩
      cases same
    · intro clean
      exact absurd member (clean e)

/-- The result of a count is settled by what its dispatcher has come to. -/
theorem Reaches.settled (positive : 0 < concurrency)
    (reached : s.Reaches (.of result xs fault breaks) concurrency false) {r : Result Nat}
    (drained : Consumer.Drained s.answers (.finished r)) :
    Settled (resultsOf result xs fault) s r := by
  have g := reached.gathered positive
  have j := g.joinOrder reached.placed
  cases r with
  | error e =>
    obtain ⟨before, after, same⟩ := List.append_of_mem drained
    exact .failed (j.expected_of_failed drained) (j.failed same).1 j.last
  | ok n =>
    obtain ⟨done, clean⟩ := drained
    have none : ∀ e, .error e ∉ resultsOf result xs fault := by
      intro e member
      obtain ⟨e', failed⟩ := (j.failed_iff done).mpr ⟨e, member⟩
      exact clean e' failed
    obtain ⟨-, closed, -⟩ := g.sound.ended done
    rcases g.shut closed with ⟨e, failed⟩ | ⟨all, workers, detached⟩
    · exact absurd (j.once.subset failed) (none e)
    · exact .all none all workers detached

/-- What an unordered dispatcher gives a consumer under every schedule: a result that says what has
become of the elements, as soon as the dispatcher has failed or ended. -/
structure Completes (around : Surroundings β) (τ : Type) (concurrency total : Nat)
    (c : Consumer ω β (Result Nat)) (expected : List (Except Failure (Option β))) : Prop
    extends Approaches around τ concurrency false total c where
  wants : ∀ {s : Course τ β} {memory}, s.Reaches around concurrency false →
    c.Took s.answers memory →
    c.want memory = .pull ∨ ∃ r, c.want memory = .finish r ∧ Settled expected s r
  ends : ∀ {s : Course τ β} {memory}, s.Reaches around concurrency false →
    c.Took s.answers memory → .done ∈ s.answers ∨ (∃ e, .fail e ∈ s.answers) →
    ∃ r, c.want memory = .finish r

theorem drain_completes [Nonempty τ] (positive : 0 < concurrency) (sturdy : ¬ breaks) :
    Completes (ω := ω) (.of result xs fault breaks) τ concurrency xs.length .drain
      (resultsOf result xs fault) := by
  have drained : ∀ {s : Course τ β} {memory : (Consumer.drain (ω := ω) (α := β)).Memory},
      Consumer.drain.Took s.answers memory → Consumer.Drained s.answers memory :=
    fun took => Consumer.took_drain took
  refine ⟨.of_wants positive sturdy fun {s memory} reached took => ?_, ?_, ?_⟩
  · have said := drained took
    cases memory with
    | running n i => exact .inl ⟨rfl, said.1⟩
    | finished r => exact .inr ⟨r, rfl⟩
  · intro s memory reached took
    have said := drained took
    cases memory with
    | running n i => exact .inl rfl
    | finished r => exact .inr ⟨r, rfl, reached.settled positive said⟩
  · intro s memory reached took isOver
    have said := drained took
    cases memory with
    | running n i =>
      obtain ⟨unended, unfailed⟩ := said
      rcases isOver with done | ⟨e, failed⟩
      · exact absurd done unended
      · exact absurd failed (unfailed e)
    | finished r => exact ⟨r, rfl⟩

end PullStream.Dispatcher.Course
