import Mathlib.Data.List.Induction
import Mathlib.Data.List.Nodup
import PullStream.JobQueue

/-!
What a queue of jobs guarantees.

A history is what callers may do to one queue, in any order: they enqueue jobs, take some, complete
some, start consuming sequences and poll them, at any instants and whether or not their stops have
been set. The books beside the queue are kept from the answers alone: the jobs that have been
enqueued, under the numbers that were given out for them, who has been handed which job, and the
numbers whose completion has been confirmed.

* `Machine.Takes` — a poll of a consuming sequence takes from the queue what it hands over.
* `run_kept` — the books and the queue agree after every history.
* `jobs_conserved` — every job is in one place, and leaves the queue once and in its turn.
-/

namespace PullStream

namespace JobQueue

/-! ### Consuming sequences -/

/-- The jobs that an answer hands over, if its items carry `jobs`. -/
def handedOver {α : Type} (jobs : α → List Job) : Answer α → List Job
  | .item a => jobs a
  | .signal _ => []

end JobQueue

/-- Every poll takes some jobs from the front of the queue and hands over just these. -/
def Machine.Takes {α : Type} (m : Machine JobQueue.Workplace α) (jobs : α → List Job) : Prop :=
  ∀ s now w, ∃ limit,
    (m.poll s now w).2.2.queue = (w.queue.dequeueMany limit).2 ∧
      JobQueue.handedOver jobs (m.poll s now w).1 = (w.queue.dequeueMany limit).1

namespace JobQueue

variable {q : JobQueue}

theorem dequeueMany_zero (q : JobQueue) : q.dequeueMany 0 = ([], q) := by
  simp [dequeueMany]

theorem acknowledge_known (q : JobQueue) (id : Nat) :
    (q.acknowledge id).1 = true ↔ ∃ job ∈ q.inFlight, job.id = id := by
  simp [acknowledge]

/-- A number that is not in flight is not known, and nothing changes. -/
theorem acknowledge_unknown {id : Nat} (unknown : (q.acknowledge id).1 = false) :
    (q.acknowledge id).2 = q := by
  have none : ∀ job ∈ q.inFlight, job.id ≠ id := by
    simpa [acknowledge] using unknown
  have same : q.inFlight.filter (·.id ≠ id) = q.inFlight := by
    apply List.filter_eq_self.mpr
    intro job member
    simpa using none job member
  simp only [acknowledge, same]

/-- A sequence whose rounds take jobs from the front and hand over just these does so at every
poll. -/
theorem consumerWith_takes {α : Type} (g : Polling.Generator)
    {take : JobQueue → Option α × JobQueue} {jobs : α → List Job} (limit : Nat)
    (takes : ∀ q, (take q).2 = (q.dequeueMany limit).2 ∧
      ((take q).1.map jobs).getD [] = (q.dequeueMany limit).1) :
    (consumerWith g take).Takes jobs := by
  intro s now w
  -- Only a round that is handed out looks at the queue.
  have none : ∀ q : JobQueue, q = (q.dequeueMany 0).2 ∧ [] = (q.dequeueMany 0).1 := by
    intro q
    rw [dequeueMany_zero]
    exact ⟨rfl, rfl⟩
  obtain ⟨left, given⟩ := takes w.queue
  simp only [consumerWith]
  split
  · split
    · rename_i found
      rw [found] at left given
      exact ⟨limit, left, given⟩
    · rename_i found
      rw [found] at left given
      exact ⟨limit, left, given⟩
  all_goals exact ⟨0, none w.queue⟩

theorem consumer_takes {settings : Settings.Backoff} {m : Machine Workplace Job}
    (built : consumer settings = .ok m) : m.Takes fun job => [job] := by
  unfold consumer at built
  cases created : Polling.Generator.create settings with
  | error e => simp [created, Except.map] at built
  | ok g =>
    simp only [created, Except.map, Except.ok.injEq] at built
    subst built
    apply consumerWith_takes g 1
    intro q
    obtain ⟨nextId, _ | ⟨job, rest⟩, inFlight⟩ := q
    · exact ⟨rfl, rfl⟩
    · exact ⟨rfl, rfl⟩

theorem batchConsumer_takes {size : Nat} {settings : Settings.Backoff}
    {m : Machine Workplace (List Job)} (built : batchConsumer size settings = .ok m) :
    m.Takes id := by
  unfold batchConsumer at built
  split at built
  · cases built
  · cases created : Polling.Generator.create settings with
    | error e => simp [created, Except.map] at built
    | ok g =>
      simp only [created, Except.map, Except.ok.injEq] at built
      subst built
      apply consumerWith_takes g size
      intro q
      split
      · rename_i found
        rw [found]
        exact ⟨rfl, rfl⟩
      · rename_i found
        rw [found]
        exact ⟨rfl, rfl⟩

/-! ### Histories -/

/-- A consuming sequence, of single jobs or of batches, and where it stands. -/
inductive Taker : Type 1 where
  | single (m : Machine Workplace Job) (state : m.State)
  | batches (m : Machine Workplace (List Job)) (state : m.State)

/-- Polls a consuming sequence: the jobs that it hands over, the sequence, and where it works. -/
def Taker.poll (t : Taker) (now : Time) (w : Workplace) : List Job × Taker × Workplace :=
  match t with
  | .single m s =>
    let (a, s, w) := m.poll s now w
    (handedOver (fun job => [job]) a, .single m s, w)
  | .batches m s =>
    let (a, s, w) := m.poll s now w
    (handedOver id a, .batches m s, w)

/-- What callers may do to a queue. -/
inductive Act where
  | enqueue (payload : String)
  | dequeue
  | dequeueMany (limit : Nat)
  | acknowledge (id : Nat)
  /-- Starts a consuming sequence, of single jobs or of batches of the size given. -/
  | consume (settings : Settings.Backoff) (batch : Option Nat)
  /-- Polls the consuming sequence of number `k`, whose stop has been set or not; `draw` would
  be drawn for a wait. -/
  | poll (k : Nat) (now : Time) (stopped : Bool) (draw : Binary64)

/-- A queue and its consuming sequences, with the books. -/
structure History : Type 1 where
  queue : JobQueue := {}
  takers : List Taker := []
  /-- How many acts there have been. -/
  acts : Nat := 0
  /-- The jobs that have been enqueued, under the numbers that callers were told. -/
  enqueued : List Job := []
  /-- The jobs that have been handed out, each with the number of the act that got it. -/
  handed : List (Nat × Job) := []
  /-- The numbers whose completion has been confirmed. -/
  acknowledged : List Nat := []

namespace History

/-- Hands jobs to the act that is going on. -/
def hand (h : History) (jobs : List Job) (queue : JobQueue) : History :=
  { h with queue, handed := h.handed ++ jobs.map (h.acts, ·) }

/-- A new consuming sequence, unless it is refused. -/
def start (h : History) {α : Type} (taker : (m : Machine Workplace α) → m.State → Taker) :
    Except Failure (Machine Workplace α) → History
  | .ok m => { h with takers := h.takers ++ [taker m m.start] }
  | .error _ => h

/-- What an act does, and what it writes into the books. -/
def perform (h : History) : Act → History
  | .enqueue payload =>
    let (id, queue) := h.queue.enqueue payload
    { h with queue, enqueued := h.enqueued ++ [⟨id, payload⟩] }
  | .dequeue =>
    let (job, queue) := h.queue.dequeue
    h.hand job.toList queue
  | .dequeueMany limit =>
    let (jobs, queue) := h.queue.dequeueMany limit
    h.hand jobs queue
  | .acknowledge id =>
    let (known, queue) := h.queue.acknowledge id
    { h with queue, acknowledged := h.acknowledged ++ if known then [id] else [] }
  | .consume settings none => h.start .single (consumer settings)
  | .consume settings (some size) => h.start .batches (batchConsumer size settings)
  | .poll k now stopped draw =>
    match h.takers[k]? with
    | none => h
    | some t =>
      let (jobs, t, w) := t.poll now { queue := h.queue, stopped, draw }
      { h with takers := h.takers.set k t }.hand jobs w.queue

/-- One act after a history. -/
def after (h : History) (act : Act) : History :=
  { h.perform act with acts := h.acts + 1 }

end History

/-- A history of acts, from an empty queue. -/
def run (acts : List Act) : History :=
  acts.foldl History.after {}

theorem run_snoc (acts : List Act) (act : Act) : run (acts ++ [act]) = (run acts).after act := by
  rw [run, List.foldl_append, ← run, List.foldl_cons, List.foldl_nil]

/-! ### The books -/

/-- A consuming sequence takes what it hands over. -/
def Taker.Takes : Taker → Prop
  | .single m _ => m.Takes fun job => [job]
  | .batches m _ => m.Takes id

theorem Taker.Takes.poll {t : Taker} (takes : t.Takes) (now : Time) (w : Workplace) :
    (t.poll now w).2.1.Takes ∧ ∃ limit,
      (t.poll now w).2.2.queue = (w.queue.dequeueMany limit).2 ∧
        (t.poll now w).1 = (w.queue.dequeueMany limit).1 := by
  cases t with
  | single m s => exact ⟨takes, takes s now w⟩
  | batches m s => exact ⟨takes, takes s now w⟩

namespace History

/-- The jobs that have been handed out, first come first. -/
def out (h : History) : List Job :=
  h.handed.map Prod.snd

/-- What the books say about the queue: jobs are numbered as they come, leave in their order, and
are in flight from then on until they are completed. -/
structure Kept (h : History) : Prop where
  numbered : h.enqueued.map Job.id = List.range h.queue.nextId
  turns : h.enqueued = h.out ++ h.queue.ready
  placed : ∃ done : List Job, done.map Job.id = h.acknowledged ∧
    h.out.Perm (h.queue.inFlight ++ done)
  takers : ∀ t ∈ h.takers, t.Takes

variable {h : History}

/-- No two jobs have one number. -/
theorem Kept.distinct (k : h.Kept) : (h.enqueued.map Job.id).Nodup := by
  rw [k.numbered]
  exact List.nodup_range

theorem Kept.out_distinct (k : h.Kept) : (h.out.map Job.id).Nodup := by
  have distinct := k.distinct
  rw [k.turns, List.map_append] at distinct
  exact distinct.of_append_left

theorem Kept.inFlight_distinct (k : h.Kept) : (h.queue.inFlight.map Job.id).Nodup := by
  obtain ⟨done, -, placed⟩ := k.placed
  have distinct := (placed.map Job.id).nodup_iff.mp k.out_distinct
  rw [List.map_append] at distinct
  exact distinct.of_append_left

theorem hand_out (h : History) (jobs : List Job) (queue : JobQueue) :
    (h.hand jobs queue).out = h.out ++ jobs := by
  simp [out, hand, Function.comp_def]

/-- Jobs that are taken from the front go to whoever takes them. -/
theorem Kept.hand (k : h.Kept) (limit : Nat) :
    (h.hand (h.queue.dequeueMany limit).1 (h.queue.dequeueMany limit).2).Kept where
  numbered := k.numbered
  turns := by
    rw [hand_out]
    change h.enqueued = h.out ++ h.queue.ready.take limit ++ h.queue.ready.drop limit
    rw [List.append_assoc, List.take_append_drop]
    exact k.turns
  placed := by
    obtain ⟨done, completed, placed⟩ := k.placed
    refine ⟨done, completed, ?_⟩
    rw [hand_out]
    change (h.out ++ h.queue.ready.take limit).Perm
      (h.queue.inFlight ++ h.queue.ready.take limit ++ done)
    have moved : (h.queue.inFlight ++ done ++ h.queue.ready.take limit).Perm
        (h.queue.inFlight ++ h.queue.ready.take limit ++ done) := by
      rw [List.append_assoc, List.append_assoc]
      exact List.perm_append_comm.append_left _
    exact (placed.append_right _).trans moved
  takers := k.takers

theorem Kept.enqueue (k : h.Kept) (payload : String) : (h.perform (.enqueue payload)).Kept where
  numbered := by
    change (h.enqueued ++ [(⟨h.queue.nextId, payload⟩ : Job)]).map Job.id =
      List.range (h.queue.nextId + 1)
    rw [List.map_append, k.numbered, List.range_succ]
    rfl
  turns := by
    change h.enqueued ++ [⟨h.queue.nextId, payload⟩] =
      h.out ++ (h.queue.ready ++ [⟨h.queue.nextId, payload⟩])
    rw [k.turns, List.append_assoc]
  placed := k.placed
  takers := k.takers

/-- The completion of a job that is in flight removes that job alone. -/
theorem Kept.completed (k : h.Kept) {job : Job} (member : job ∈ h.queue.inFlight) :
    h.queue.inFlight.Perm (job :: (h.queue.acknowledge job.id).2.inFlight) := by
  have distinct := k.inFlight_distinct
  obtain ⟨front, back, split⟩ := List.append_of_mem member
  change h.queue.inFlight.Perm (job :: h.queue.inFlight.filter (·.id ≠ job.id))
  rw [split, List.map_append, List.map_cons] at distinct
  obtain ⟨-, behind, apart⟩ := List.nodup_append.mp distinct
  have front_kept : front.filter (·.id ≠ job.id) = front := by
    apply List.filter_eq_self.mpr
    intro other there
    simpa using apart other.id (List.mem_map_of_mem there) job.id List.mem_cons_self
  have back_kept : back.filter (·.id ≠ job.id) = back := by
    apply List.filter_eq_self.mpr
    intro other there
    have differs : other.id ≠ job.id := fun same =>
      (List.nodup_cons.mp behind).1 (same ▸ List.mem_map_of_mem there)
    simpa using differs
  rw [split, List.filter_append, front_kept, List.filter_cons_of_neg (by simp), back_kept]
  exact List.perm_middle

theorem Kept.acknowledge (k : h.Kept) (id : Nat) : (h.perform (.acknowledge id)).Kept where
  numbered := k.numbered
  turns := k.turns
  placed := by
    obtain ⟨done, completed, placed⟩ := k.placed
    change ∃ done : List Job,
      done.map Job.id = h.acknowledged ++ (if (h.queue.acknowledge id).1 then [id] else []) ∧
        h.out.Perm ((h.queue.acknowledge id).2.inFlight ++ done)
    cases known : (h.queue.acknowledge id).1 with
    | false =>
      rw [acknowledge_unknown known]
      exact ⟨done, by simpa using completed, placed⟩
    | true =>
      obtain ⟨job, member, rfl⟩ := (acknowledge_known _ _).mp known
      refine ⟨done ++ [job], by simp [completed], placed.trans ?_⟩
      refine ((k.completed member).append_right done).trans ?_
      rw [List.cons_append, ← List.append_assoc]
      exact (List.perm_append_singleton _ _).symm
  takers := k.takers

theorem Kept.start (k : h.Kept) {α : Type} {taker : (m : Machine Workplace α) → m.State → Taker}
    {built : Except Failure (Machine Workplace α)}
    (takes : ∀ m, built = .ok m → (taker m m.start).Takes) : (h.start taker built).Kept := by
  cases built with
  | error e => exact k
  | ok m =>
    refine { k with takers := fun t member => ?_ }
    rcases List.mem_append.mp member with old | new
    · exact k.takers t old
    · exact List.mem_singleton.mp new ▸ takes m rfl

theorem Kept.poll (k : h.Kept) (n : Nat) (now : Time) (stopped : Bool) (draw : Binary64) :
    (h.perform (.poll n now stopped draw)).Kept := by
  simp only [perform]
  split
  · exact k
  · rename_i t there
    have takes := k.takers t (List.mem_of_getElem? there)
    obtain ⟨still, limit, left, given⟩ := takes.poll now { queue := h.queue, stopped, draw }
    have replaced : History.Kept { h with
        takers := h.takers.set n (t.poll now { queue := h.queue, stopped, draw }).2.1 } := by
      refine { k with takers := fun t' member => ?_ }
      rcases List.mem_or_eq_of_mem_set member with old | rfl
      · exact k.takers t' old
      · exact still
    have handed := replaced.hand limit
    rw [← given, ← left] at handed
    exact handed

theorem Kept.after (k : h.Kept) (act : Act) : (h.after act).Kept := by
  have done : (h.perform act).Kept := by
    cases act with
    | enqueue payload => exact k.enqueue payload
    | dequeue =>
      have one : h.queue.dequeue.1.toList = (h.queue.dequeueMany 1).1 := by
        cases ready : h.queue.ready with
        | nil => simp [JobQueue.dequeue, JobQueue.dequeueMany, ready]
        | cons job rest => simp [JobQueue.dequeue, JobQueue.dequeueMany, ready]
      have handed := k.hand 1
      rw [← one] at handed
      exact handed
    | dequeueMany limit => exact k.hand limit
    | acknowledge id => exact k.acknowledge id
    | consume settings batch =>
      cases batch with
      | none => exact k.start fun m built => consumer_takes built
      | some size => exact k.start fun m built => batchConsumer_takes built
    | poll n now stopped draw => exact k.poll n now stopped draw
  exact ⟨done.numbered, done.turns, done.placed, done.takers⟩

end History

theorem run_kept (acts : List Act) : (run acts).Kept := by
  induction acts using List.reverseRecOn with
  | nil =>
    refine ⟨rfl, rfl, ⟨[], rfl, .refl _⟩, ?_⟩
    intro t member
    exact absurd member List.not_mem_nil
  | append_singleton acts act ih =>
    rw [run_snoc]
    exact ih.after act

/-! ### Conservation -/

namespace History

variable {h : History}

theorem Kept.length (k : h.Kept) : h.queue.nextId = h.enqueued.length := by
  have lengths := congrArg List.length k.numbered
  rw [List.length_map, List.length_range] at lengths
  exact lengths.symm

/-- The numbers of the jobs grow from each to all that come behind it. -/
theorem Kept.ascending (k : h.Kept) : (h.enqueued.map Job.id).Pairwise (· < ·) := by
  rw [k.numbered]
  exact List.pairwise_lt_range

/-- What waits is in order, and behind all that has been handed out. -/
theorem Kept.ready_ascending (k : h.Kept) :
    (h.queue.ready.map Job.id).Pairwise (· < ·) ∧
      ∀ taken ∈ h.handed, ∀ job ∈ h.queue.ready, taken.2.id < job.id := by
  have ascending := k.ascending
  rw [k.turns, List.map_append] at ascending
  obtain ⟨-, waiting, apart⟩ := List.pairwise_append.mp ascending
  refine ⟨waiting, ?_⟩
  intro taken member job there
  apply apart
  · exact List.mem_map_of_mem (List.mem_map_of_mem member)
  · exact List.mem_map_of_mem there

/-- A job that no longer waits has been handed to one act. -/
theorem Kept.handed_once (k : h.Kept) {job : Job} (known : job ∈ h.enqueued)
    (gone : job ∉ h.queue.ready) : ∃! act, (act, job) ∈ h.handed := by
  rw [k.turns] at known
  obtain ⟨⟨act, _⟩, member, rfl⟩ :=
    List.mem_map.mp ((List.mem_append.mp known).resolve_right gone)
  refine ⟨act, member, ?_⟩
  intro other there
  have distinct : (h.handed.map Prod.snd).Nodup := k.out_distinct.of_map
  have same := List.inj_on_of_nodup_map distinct there member rfl
  exact congrArg Prod.fst same

/-- A job is in one of the three places, and in no two of them. -/
theorem Kept.places (k : h.Kept) {done : List Job}
    (placed : h.out.Perm (h.queue.inFlight ++ done)) :
    h.enqueued.Perm (h.queue.ready ++ h.queue.inFlight ++ done) ∧
      ∀ job ∈ h.enqueued,
        job ∈ h.queue.ready ∧ job ∉ h.queue.inFlight ∧ job ∉ done ∨
        job ∉ h.queue.ready ∧ job ∈ h.queue.inFlight ∧ job ∉ done ∨
        job ∉ h.queue.ready ∧ job ∉ h.queue.inFlight ∧ job ∈ done := by
  have all : h.enqueued.Perm (h.queue.ready ++ h.queue.inFlight ++ done) := by
    rw [k.turns, List.append_assoc]
    exact List.perm_append_comm.trans (placed.append_left _)
  refine ⟨all, ?_⟩
  intro job known
  have distinct : (h.queue.ready ++ h.queue.inFlight ++ done).Nodup :=
    all.nodup_iff.mp k.distinct.of_map
  rw [List.append_assoc] at distinct
  obtain ⟨-, out, waits⟩ := List.nodup_append'.mp distinct
  obtain ⟨-, -, flies⟩ := List.nodup_append'.mp out
  have member := all.mem_iff.mp known
  rw [List.append_assoc] at member
  rcases List.mem_append.mp member with ready | taken
  · refine .inl ⟨ready, fun inFlight => ?_, fun completed => ?_⟩
    · exact waits ready (List.mem_append_left _ inFlight)
    · exact waits ready (List.mem_append_right _ completed)
  · have gone : job ∉ h.queue.ready := fun ready => waits ready taken
    rcases List.mem_append.mp taken with inFlight | completed
    · exact .inr (.inl ⟨gone, inFlight, flies inFlight⟩)
    · exact .inr (.inr ⟨gone, fun inFlight => flies inFlight completed, completed⟩)

end History

/-- After every history each job that has been enqueued waits, is in flight or has been completed,
and is in one of these places only. Jobs are numbered as they come. They leave the queue in their
order, so that those that wait are in order and come behind all that have been taken, and each goes
to one act. A completion is confirmed if the job is in flight, and then removes that job; else it
changes nothing. -/
theorem jobs_conserved (acts : List Act) :
    let h := run acts
    -- numbers
    h.enqueued.map Job.id = List.range h.enqueued.length ∧
    h.queue.nextId = h.enqueued.length ∧
    -- places
    (∃ done : List Job, done.map Job.id = h.acknowledged ∧
      h.enqueued.Perm (h.queue.ready ++ h.queue.inFlight ++ done) ∧
      ∀ job ∈ h.enqueued,
        job ∈ h.queue.ready ∧ job ∉ h.queue.inFlight ∧ job ∉ done ∨
        job ∉ h.queue.ready ∧ job ∈ h.queue.inFlight ∧ job ∉ done ∨
        job ∉ h.queue.ready ∧ job ∉ h.queue.inFlight ∧ job ∈ done) ∧
    -- turns
    h.enqueued = h.handed.map Prod.snd ++ h.queue.ready ∧
    (h.queue.ready.map Job.id).Pairwise (· < ·) ∧
    (∀ taken ∈ h.handed, ∀ job ∈ h.queue.ready, taken.2.id < job.id) ∧
    (∀ job ∈ h.enqueued, job ∉ h.queue.ready → ∃! act, (act, job) ∈ h.handed) ∧
    -- completions
    ∀ id,
      ((h.queue.acknowledge id).1 = true ↔ ∃ job ∈ h.queue.inFlight, job.id = id) ∧
      (∀ job ∈ h.queue.inFlight,
        h.queue.inFlight.Perm (job :: (h.queue.acknowledge job.id).2.inFlight)) ∧
      (h.queue.acknowledge id).2.ready = h.queue.ready ∧
      (h.queue.acknowledge id).2.nextId = h.queue.nextId ∧
      ((h.queue.acknowledge id).1 = false → (h.queue.acknowledge id).2 = h.queue) := by
  intro h
  have kept : h.Kept := run_kept acts
  obtain ⟨done, completed, placed⟩ := kept.placed
  obtain ⟨perm, exclusive⟩ := kept.places placed
  obtain ⟨ordered, behind⟩ := kept.ready_ascending
  refine ⟨?_, kept.length, ⟨done, completed, perm, exclusive⟩, kept.turns, ordered, behind, ?_, ?_⟩
  · rw [← kept.length]
    exact kept.numbered
  · intro job known gone
    exact kept.handed_once known gone
  · intro id
    refine ⟨acknowledge_known _ _, ?_, rfl, rfl, acknowledge_unknown⟩
    intro job member
    exact kept.completed member

end JobQueue
end PullStream
