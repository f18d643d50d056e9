import PullStream.Proofs.JobQueue
import PullStream.Proofs.Polling

/-!
The polls of a consuming sequence.

A consuming sequence learns one poll later what a round has come to: the round that found
nothing is followed by a wait, and one that found jobs brings the delay back. Here its
polls are written down with the queue before and after each. Between them anybody may
enqueue, take and complete jobs or set the stop, and they may come at any instants, so
that a pending pull may be abandoned and taken up again later. What each poll comes to is then
said by the polls before it, without the state of the sequence.

* `Polled` — what a poll comes to, by the polls before it.
* `shift_polled` — every poll is one of these.
* `consumers_serve` — consuming sequences hand over what they take, stop, and wait between
  rounds as they should.
-/

namespace PullStream.JobQueue

variable {α : Type} {m : Machine Workplace α} {settings : Settings.Backoff}
  {jobs : α → List Job} {limit : Nat}

/-! ### Polls and what is owed -/

/-- A poll of a consuming sequence, with what would be drawn for a wait that it begins, and with
the queue before and after it. -/
structure Note (α : Type) where
  now : Time
  stopped : Bool
  draw : Binary64
  answer : Answer α
  found : JobQueue
  left : JobQueue

/-- How many rounds have found nothing since the last that found jobs. -/
def streak (log : List (Note α)) : Nat :=
  log.foldl (fun k n =>
    match n.answer with
    | .item _ => 0
    | .skip => k + 1
    | _ => k) 0

/-- The delay behind so many waits. -/
def delayBehind (settings : Settings.Backoff) : Nat → Backoff
  | 0 => { settings, current := settings.initial }
  | k + 1 => (delayBehind settings k).advance

theorem delayBehind_settings (settings : Settings.Backoff) (k : Nat) :
    (delayBehind settings k).settings = settings := by
  induction k with
  | zero => rfl
  | succ k ih => exact ih

/-- The end has been reported. -/
def Over (log : List (Note α)) : Prop :=
  ∃ n ∈ log, n.answer = .done

/-- When the wait behind a round that found nothing is over: the first poll behind that round
begins it, and its length is that of the delay with what is drawn then. `now` and `draw` are those
of a poll that would be the first. -/
def waitDue (settings : Settings.Backoff) (earlier waits : List (Note α)) (now : Time)
    (draw : Binary64) : Time :=
  (waits.head?.map Note.now).getD now +
    (delayBehind settings (streak earlier)).length ((waits.head?.map Note.draw).getD draw)

/-- The last round found nothing, and a poll at `now` is in the wait behind it, which ends at
`due`. -/
def Owes (settings : Settings.Backoff) (log : List (Note α)) (now : Time) (draw : Binary64)
    (due : Time) : Prop :=
  ∃ earlier empty waits, log = earlier ++ empty :: waits ∧ empty.answer = .skip ∧
    (∀ n ∈ waits, n.answer = .wait) ∧ due = waitDue settings earlier waits now draw

/-- What a poll comes to, by the polls before it. -/
inductive Polled (settings : Settings.Backoff) (jobs : α → List Job) (limit : Nat)
    (log : List (Note α)) (n : Note α) : Prop where
  | late : Over log → n.answer = .spent → n.left = n.found → Polled settings jobs limit log n
  | stops : ¬ Over log → n.stopped = true → n.answer = .done → n.left = n.found →
      Polled settings jobs limit log n
  | waits {due} : ¬ Over log → n.stopped = false → Owes settings log n.now n.draw due →
      n.now < due → n.answer = .wait → n.left = n.found → Polled settings jobs limit log n
  | empty : ¬ Over log → n.stopped = false →
      (∀ due, Owes settings log n.now n.draw due → due ≤ n.now) →
      n.found.ready = [] → n.answer = .skip → n.left = n.found → Polled settings jobs limit log n
  | hands {a} : ¬ Over log → n.stopped = false →
      (∀ due, Owes settings log n.now n.draw due → due ≤ n.now) →
      n.found.ready ≠ [] → n.answer = .item a → jobs a = (n.found.dequeueMany limit).1 →
      n.left = (n.found.dequeueMany limit).2 → Polled settings jobs limit log n

/-- A log is not over while the sequence goes on, poll by poll. -/
theorem over_snoc {log : List (Note α)} {n : Note α} :
    Over (log ++ [n]) ↔ Over log ∨ n.answer = .done := by
  constructor
  · rintro ⟨e, member, isDone⟩
    rcases List.mem_append.mp member with old | new
    · exact .inl ⟨e, old, isDone⟩
    · exact .inr (List.mem_singleton.mp new ▸ isDone)
  · rintro (⟨e, old, isDone⟩ | isDone)
    · exact ⟨e, List.mem_append_left _ old, isDone⟩
    · exact ⟨n, by simp, isDone⟩

theorem streak_snoc (log : List (Note α)) (n : Note α) :
    streak (log ++ [n]) =
      match n.answer with
      | .item _ => 0
      | .skip => streak log + 1
      | _ => streak log := by
  rw [streak, List.foldl_append]
  rfl

/-- Waiting does not count as a round. -/
theorem streak_waits (log : List (Note α)) {waits : List (Note α)}
    (waiting : ∀ n ∈ waits, n.answer = .wait) : streak (log ++ waits) = streak log := by
  induction waits using List.reverseRecOn with
  | nil => rw [List.append_nil]
  | append_singleton waits n ih =>
    have isWait : n.answer = .wait := waiting n (by simp)
    rw [← List.append_assoc, streak_snoc, isWait]
    exact ih fun e member => waiting e (List.mem_append_left _ member)

/-- Only a round that found nothing, with waits behind it, makes one wait. -/
theorem owes_snoc {log : List (Note α)} {n : Note α} {now due : Time}
    {draw : Binary64} (owes : Owes settings (log ++ [n]) now draw due) :
    n.answer = .skip ∨ n.answer = .wait := by
  obtain ⟨earlier, empty, waits, same, isEmpty, waiting, -⟩ := owes
  rcases List.eq_nil_or_concat' waits with rfl | ⟨front, last, rfl⟩
  · obtain ⟨-, single⟩ := List.append_inj' same rfl
    obtain rfl := List.singleton_inj.mp single
    exact .inl isEmpty
  · rw [← List.cons_append, ← List.append_assoc] at same
    obtain ⟨-, single⟩ := List.append_inj' same rfl
    obtain rfl := List.singleton_inj.mp single
    exact .inr (waiting n (by simp))

/-- The last round that found nothing is the last one that did not wait. -/
theorem split_unique {log earlier earlier' waits waits' : List (Note α)} {e e' : Note α}
    (first : log = earlier ++ e :: waits) (second : log = earlier' ++ e' :: waits')
    (isRound : e.answer ≠ .wait) (isRound' : e'.answer ≠ .wait)
    (waiting : ∀ n ∈ waits, n.answer = .wait) (waiting' : ∀ n ∈ waits', n.answer = .wait) :
    earlier = earlier' ∧ e = e' ∧ waits = waits' := by
  rcases List.append_eq_append_iff.mp (first.symm.trans second) with
    ⟨middle, rfl, same⟩ | ⟨middle, rfl, same⟩
  · cases middle with
    | nil => simpa using same
    | cons x middle =>
      obtain ⟨rfl, rfl⟩ := List.cons.inj same
      exact absurd (waiting e' (by simp)) isRound'
  · cases middle with
    | nil => simpa [eq_comm] using same
    | cons x middle =>
      obtain ⟨rfl, rfl⟩ := List.cons.inj same
      exact absurd (waiting' e (by simp)) isRound

/-! ### Where the generator stands -/

/-- Where a generator stands after these polls. -/
inductive Stands (settings : Settings.Backoff) : List (Note α) → Polling.Generator → Prop where
  | fresh : Stands settings [] { backoff := delayBehind settings 0 }
  | served {log n a b} : ¬ Over log → n.answer = .item a → b.settings = settings →
      Stands settings (log ++ [n]) { backoff := b, phase := .out false }
  | idle {log e} : ¬ Over log → e.answer = .skip →
      Stands settings (log ++ [e])
        { backoff := delayBehind settings (streak log), phase := .out true }
  | waiting {log e waits due} : ¬ Over log → e.answer = .skip → (∀ n ∈ waits, n.answer = .wait) →
      (∀ now draw, due = waitDue settings log waits now draw) →
      Stands settings (log ++ e :: waits)
        { backoff := delayBehind settings (streak log), phase := .waiting due }
  | spent {log b} : Over log → Stands settings log { backoff := b, phase := .spent }

/-- What the generator answers to a poll at `now`, and where it stands then. -/
inductive Upcoming (settings : Settings.Backoff) (log : List (Note α)) (now : Time)
    (draw : Binary64) (stopped : Bool) : Polling.Answer × Polling.Generator → Prop where
  | late {b} : Over log →
      Upcoming settings log now draw stopped (.misused, { backoff := b, phase := .spent })
  | stop {b} : ¬ Over log → stopped = true →
      Upcoming settings log now draw stopped (.stop, { backoff := b, phase := .spent })
  | wait {due g} : ¬ Over log → stopped = false → Owes settings log now draw due → now < due →
      (∀ n : Note α, n.now = now → n.draw = draw → n.answer = .wait →
        Stands settings (log ++ [n]) g) →
      Upcoming settings log now draw stopped (.wait, g)
  | round : ¬ Over log → stopped = false → (∀ due, Owes settings log now draw due → due ≤ now) →
      Upcoming settings log now draw stopped
        (.round, { backoff := delayBehind settings (streak log), phase := .out false })

/-- Unless it is stopped, a generator that is not in a wait hands out a round. -/
theorem upcoming_handOut {log : List (Note α)} {now : Time} {draw : Binary64}
    (g : Polling.Generator) (stopped : Bool)
    (going : ¬ Over log) (delay : stopped = false → g.backoff = delayBehind settings (streak log))
    (settled : stopped = false → ∀ due, Owes settings log now draw due → due ≤ now) :
    Upcoming settings log now draw stopped (g.handOut stopped) := by
  cases stopped with
  | true => exact .stop going rfl
  | false =>
    simp only [Polling.Generator.handOut, Bool.false_eq_true, if_false]
    rw [delay rfl]
    exact .round going rfl (settled rfl)

theorem over_round {log waits : List (Note α)} {e : Note α} (going : ¬ Over log)
    (isEmpty : e.answer = .skip) (waiting : ∀ n ∈ waits, n.answer = .wait) :
    ¬ Over (log ++ e :: waits) := by
  rintro ⟨n, member, isDone⟩
  rcases List.mem_append.mp member with old | new
  · exact going ⟨n, old, isDone⟩
  · rcases List.mem_cons.mp new with rfl | wait
    · cases isEmpty.symm.trans isDone
    · cases (waiting n wait).symm.trans isDone

/-- Nothing but the wait behind the last round is owed. -/
theorem owes_iff {log waits : List (Note α)} {e : Note α} (isEmpty : e.answer = .skip)
    (waiting : ∀ n ∈ waits, n.answer = .wait) (now : Time) (draw : Binary64) (due : Time) :
    Owes settings (log ++ e :: waits) now draw due ↔
      due = waitDue settings log waits now draw := by
  constructor
  · rintro ⟨earlier, empty, waits', same, isEmpty', waiting', rfl⟩
    have isRound : e.answer ≠ .wait := by
      rw [isEmpty]
      simp
    have isRound' : empty.answer ≠ .wait := by
      rw [isEmpty']
      simp
    obtain ⟨rfl, rfl, rfl⟩ := split_unique rfl same isRound isRound' waiting waiting'
    rfl
  · intro same
    exact ⟨log, e, waits, rfl, isEmpty, waiting, same⟩

/-- A generator that is in a wait, or about to begin one, goes on with it. -/
theorem upcoming_keepWaiting {log waits : List (Note α)} {e : Note α} {now due : Time}
    {draw : Binary64} (phase : Polling.Phase) (stopped : Bool) (going : ¬ Over log)
    (isEmpty : e.answer = .skip)
    (waiting : ∀ n ∈ waits, n.answer = .wait)
    (isDue : due = waitDue settings log waits now draw) :
    Upcoming settings (log ++ e :: waits) now draw stopped
      (({ backoff := delayBehind settings (streak log), phase } : Polling.Generator).keepWaiting
        due now stopped) := by
  have stillGoing := over_round going isEmpty waiting
  have owes : Owes settings (log ++ e :: waits) now draw due :=
    (owes_iff isEmpty waiting now draw due).mpr isDue
  have counted : streak (log ++ e :: waits) = streak log + 1 := by
    rw [List.append_cons, streak_waits _ waiting, streak_snoc, isEmpty]
  by_cases past : stopped = true ∨ due ≤ now
  · rw [Polling.Generator.keepWaiting, if_pos past]
    apply upcoming_handOut
    · exact stillGoing
    · intro _
      rw [counted]
      rfl
    · rintro rfl due' owes'
      have same := (owes_iff isEmpty waiting now draw due').mp owes'
      rw [same, ← isDue]
      exact past.resolve_left Bool.false_ne_true
  · rw [Polling.Generator.keepWaiting, if_neg past]
    obtain ⟨running, early⟩ := not_or.mp past
    refine .wait stillGoing (by simpa using running) owes (Nat.lt_of_not_le early) ?_
    intro n here drawn isWait
    rw [List.append_assoc, List.cons_append]
    refine .waiting going isEmpty ?_ ?_
    · intro w member
      rcases List.mem_append.mp member with old | new
      · exact waiting w old
      · exact List.mem_singleton.mp new ▸ isWait
    · intro now' draw'
      rw [isDue]
      cases waits with
      | nil => simp [waitDue, here, drawn]
      | cons first rest => rfl

theorem Stands.upcoming {log : List (Note α)} {g : Polling.Generator}
    (stands : Stands settings log g) (now : Time) (draw : Binary64) (stopped : Bool) :
    Upcoming settings log now draw stopped (g.next draw now stopped) := by
  cases stands with
  | fresh =>
    refine upcoming_handOut _ stopped ?_ (fun _ => rfl) ?_
    · rintro ⟨n, member, -⟩
      exact absurd member List.not_mem_nil
    · rintro - due ⟨earlier, empty, waits, same, -⟩
      simp at same
  | @served log n a b going item own =>
    refine upcoming_handOut { backoff := b.reset, phase := .out false } stopped ?_ (fun _ => ?_) ?_
    · rw [over_snoc, item]
      simpa using going
    · rw [streak_snoc, item, Backoff.reset, own]
      rfl
    · intro _ due owes
      rcases owes_snoc owes with isSkip | isWait
      · cases item.symm.trans isSkip
      · cases item.symm.trans isWait
  | @idle log e going isEmpty =>
    exact upcoming_keepWaiting (.out true) stopped going isEmpty (by simp) rfl
  | @waiting log e waits due going isEmpty waits isDue =>
    exact upcoming_keepWaiting (.waiting due) stopped going isEmpty waits (isDue now draw)
  | spent isOver => exact .late isOver

/-! ### A shift -/

/-- What may happen around a consuming sequence. -/
inductive Happening where
  | enqueue (payload : String)
  /-- Somebody else takes jobs. -/
  | take (limit : Nat)
  | acknowledge (id : Nat)
  /-- The stop is set, for good. -/
  | stop
  /-- Something else would be drawn from now on. -/
  | shuffle (draw : Binary64)
  /-- The sequence is polled: at first, again after an answer, or after it has been left alone. -/
  | poll (now : Time)

/-- A consuming sequence at work. -/
structure Shift (m : Machine Workplace α) where
  place : Workplace := {}
  state : m.State
  /-- The jobs that have been enqueued. -/
  enqueued : List Job := []
  log : List (Note α) := []

/-- A poll, written down. -/
def note (m : Machine Workplace α) (state : m.State) (now : Time) (w : Workplace) : Note α where
  now
  stopped := w.stopped
  draw := w.draw
  answer := (m.poll state now w).1
  found := w.queue
  left := (m.poll state now w).2.2.queue

/-- One thing that happens. -/
def Shift.after (s : Shift m) : Happening → Shift m
  | .enqueue payload =>
    let (id, queue) := s.place.queue.enqueue payload
    { s with place := { s.place with queue }, enqueued := s.enqueued ++ [⟨id, payload⟩] }
  | .take limit => { s with place := { s.place with queue := (s.place.queue.dequeueMany limit).2 } }
  | .acknowledge id =>
    { s with place := { s.place with queue := (s.place.queue.acknowledge id).2 } }
  | .stop => { s with place := { s.place with stopped := true } }
  | .shuffle draw => { s with place := { s.place with draw } }
  | .poll now =>
    let (_, state, place) := m.poll s.state now s.place
    { s with place, state, log := s.log ++ [note m s.state now s.place] }

/-- What has happened since the sequence was made, from an empty queue. -/
def shift (m : Machine Workplace α) (happenings : List Happening) : Shift m :=
  happenings.foldl Shift.after { state := m.start }

theorem shift_snoc (happenings : List Happening) (h : Happening) :
    shift m (happenings ++ [h]) = (shift m happenings).after h :=
  List.foldl_append

/-- A round with these jobs takes up to `limit` of them, if there are any. -/
def Rounds (take : JobQueue → Option α × JobQueue) (jobs : α → List Job) (limit : Nat) : Prop :=
  ∀ q : JobQueue,
    q.ready = [] ∧ take q = (none, q) ∨
    q.ready ≠ [] ∧ ∃ a, take q = (some a, (q.dequeueMany limit).2) ∧
      jobs a = (q.dequeueMany limit).1

/-- Nothing comes out of an empty queue. -/
theorem dequeueMany_empty {q : JobQueue} (none : q.ready = []) (limit : Nat) :
    q.dequeueMany limit = ([], q) := by
  obtain ⟨nextId, ready, inFlight⟩ := q
  obtain rfl : ready = [] := none
  simp [dequeueMany]

theorem dequeue_rounds : Rounds dequeue (fun job => [job]) 1 := by
  intro q
  by_cases none : q.ready = []
  · refine .inl ⟨none, ?_⟩
    simp [dequeue, dequeueMany_empty none]
  · obtain ⟨job, rest, ready⟩ := List.exists_cons_of_ne_nil none
    exact .inr ⟨none, job, by simp [dequeue, dequeueMany, ready], by simp [dequeueMany, ready]⟩

theorem batches_round {size : Nat} (some : size ≠ 0) (settings : Settings.Backoff) :
    ∃ take, Rounds take id size ∧
      batchConsumer size settings =
        (Polling.Generator.create settings).map fun g => consumerWith g take := by
  refine ⟨_, ?_, if_neg some⟩
  intro q
  by_cases none : q.ready = []
  · refine .inl ⟨none, ?_⟩
    simp [dequeueMany_empty none]
  · have found : (q.dequeueMany size).1 ≠ [] := by
      simp [dequeueMany, none, some]
    refine .inr ⟨none, (q.dequeueMany size).1, ?_, rfl⟩
    beta_reduce
    split
    · rename_i nothing
      rw [nothing] at found
      exact absurd rfl found
    · rename_i same
      rw [same]

/-! ### Poll by poll -/

section Polls

variable {g : Polling.Generator} {take : JobQueue → Option α × JobQueue}

/-- A poll of a consuming sequence is one of those that it should be, and leaves the generator where
it should stand. -/
theorem poll_stands (rounds : Rounds take jobs limit) {log : List (Note α)}
    {state : Polling.Generator} (stands : Stands settings log state) (now : Time) (w : Workplace) :
    let n := note (consumerWith g take) state now w
    Polled settings jobs limit log n ∧
      Stands settings (log ++ [n]) ((consumerWith g take).poll state now w).2.1 := by
  have upcoming := stands.upcoming now w.draw w.stopped
  simp only [note, consumerWith]
  generalize state.next w.draw now w.stopped = result at upcoming
  cases upcoming with
  | late isOver =>
    refine ⟨.late isOver rfl rfl, .spent ?_⟩
    rw [over_snoc]
    exact .inl isOver
  | stop going stopped =>
    refine ⟨.stops going stopped rfl rfl, .spent ?_⟩
    rw [over_snoc]
    exact .inr rfl
  | wait going running owes early stands' =>
    exact ⟨.waits going running owes early rfl rfl, stands' _ rfl rfl rfl⟩
  | round going running settled =>
    rcases rounds w.queue with ⟨none, took⟩ | ⟨some, a, took, given⟩
    · simp only [took]
      exact ⟨.empty going running settled none rfl rfl, .idle going rfl⟩
    · simp only [took]
      refine ⟨.hands going running settled some rfl given rfl, .served going rfl ?_⟩
      exact delayBehind_settings settings _

end Polls

/-- A poll hands over the jobs that it takes, or leaves the queue alone. -/
theorem Polled.hands_or_quiet {log : List (Note α)} {n : Note α}
    (polled : Polled settings jobs limit log n) :
    (∃ a, n.answer = .item a ∧ n.found.ready ≠ [] ∧ jobs a = (n.found.dequeueMany limit).1 ∧
      n.left = (n.found.dequeueMany limit).2) ∨
    (∃ signal, n.answer = .signal signal) ∧ n.left = n.found := by
  cases polled with
  | late _ answer left => exact .inr ⟨⟨_, answer⟩, left⟩
  | stops _ _ answer left => exact .inr ⟨⟨_, answer⟩, left⟩
  | waits _ _ _ _ answer left => exact .inr ⟨⟨_, answer⟩, left⟩
  | empty _ _ _ _ answer left => exact .inr ⟨⟨_, answer⟩, left⟩
  | hands _ _ _ some answer given left => exact .inl ⟨_, answer, some, given, left⟩

/-- What a poll takes out of the queue is what it hands over. -/
theorem Polled.conserves {log : List (Note α)} {n : Note α}
    (polled : Polled settings jobs limit log n) :
    n.found.ready = handedOver jobs n.answer ++ n.left.ready ∧
      n.left.inFlight = n.found.inFlight ++ handedOver jobs n.answer := by
  rcases polled.hands_or_quiet with ⟨a, item, -, given, left⟩ | ⟨⟨signal, quiet⟩, left⟩
  · rw [item, left, handedOver, given]
    exact ⟨(List.take_append_drop _ _).symm, rfl⟩
  · rw [quiet, left]
    exact ⟨rfl, (List.append_nil _).symm⟩

/-! ### Whole shifts -/

section Shifts

variable {g : Polling.Generator} {take : JobQueue → Option α × JobQueue}

/-- What holds after anything has happened. -/
structure Worked (settings : Settings.Backoff) (jobs : α → List Job) (limit : Nat)
    (s : Shift (consumerWith g take)) : Prop where
  stands : Stands settings s.log s.state
  polled : ∀ before n after, s.log = before ++ n :: after → Polled settings jobs limit before n
  order : ∃ taken, s.enqueued = taken ++ s.place.queue.ready ∧
    (s.log.flatMap fun n => handedOver jobs n.answer).Sublist taken

theorem Worked.poll (rounds : Rounds take jobs limit) {s : Shift (consumerWith g take)}
    (w : Worked settings jobs limit s) (now : Time) :
    Worked settings jobs limit (s.after (.poll now)) := by
  obtain ⟨stands, polled, taken, all, order⟩ := w
  obtain ⟨last, stands'⟩ := poll_stands (g := g) rounds stands now s.place
  refine ⟨stands', ?_, ?_⟩
  · intro before n after same
    rcases List.eq_nil_or_concat' after with rfl | ⟨front, e, rfl⟩
    · obtain ⟨rfl, single⟩ := List.append_inj' same rfl
      obtain rfl := List.singleton_inj.mp single
      exact last
    · rw [← List.cons_append, ← List.append_assoc] at same
      obtain ⟨older, -⟩ := List.append_inj' same rfl
      exact polled before n front older
  · have conserves := last.conserves.1
    refine ⟨taken ++ handedOver jobs (note (consumerWith g take) s.state now s.place).answer,
      ?_, ?_⟩
    · rw [List.append_assoc]
      exact all.trans (congrArg (taken ++ ·) conserves)
    · simp only [Shift.after, List.flatMap_append]
      exact order.append (by simp)

theorem Worked.after (rounds : Rounds take jobs limit) {s : Shift (consumerWith g take)}
    (w : Worked settings jobs limit s) (h : Happening) :
    Worked settings jobs limit (s.after h) := by
  cases h with
  | poll now => exact w.poll rounds now
  | enqueue payload =>
    obtain ⟨stands, polled, taken, all, order⟩ := w
    refine ⟨stands, polled, taken, ?_, order⟩
    simp only [Shift.after, enqueue]
    rw [all, List.append_assoc]
  | take limit =>
    obtain ⟨stands, polled, taken, all, order⟩ := w
    refine ⟨stands, polled, taken ++ (s.place.queue.dequeueMany limit).1, ?_, ?_⟩
    · simp only [Shift.after, dequeueMany]
      rw [all, List.append_assoc, List.take_append_drop]
    · exact order.trans (List.sublist_append_left _ _)
  | acknowledge id => exact ⟨w.stands, w.polled, w.order⟩
  | stop => exact ⟨w.stands, w.polled, w.order⟩
  | shuffle => exact ⟨w.stands, w.polled, w.order⟩

theorem shift_worked (rounds : Rounds take jobs limit) (happenings : List Happening) :
    Worked settings jobs limit
      (shift (consumerWith { backoff := delayBehind settings 0 } take) happenings) := by
  induction happenings using List.reverseRecOn with
  | nil => exact ⟨.fresh, by simp [shift], [], rfl, List.Sublist.refl _⟩
  | append_singleton happenings h ih =>
    rw [shift_snoc]
    exact ih.after rounds h

end Shifts

/-! ### The contract -/

/-- A consuming sequence does its work: between the polls of `s` anything may have happened. -/
structure Serves (settings : Settings.Backoff) (jobs : α → List Job) (limit : Nat)
    (s : Shift m) : Prop where
  /-- The jobs that a poll takes out of the queue are handed over by that poll. -/
  conserves : ∀ n ∈ s.log,
    n.found.ready = handedOver jobs n.answer ++ n.left.ready ∧
      n.left.inFlight = n.found.inFlight ++ handedOver jobs n.answer
  /-- What is handed over is never empty, and never more than `limit`. -/
  sizes : ∀ n ∈ s.log, ∀ a, n.answer = .item a → jobs a ≠ [] ∧ (jobs a).length ≤ limit
  /-- All together is in the order of the queue. -/
  order : (s.log.flatMap fun n => handedOver jobs n.answer).Sublist s.enqueued
  /-- Once the stop is set, nothing is taken any more and the end is reported. -/
  stops : ∀ before n after, s.log = before ++ n :: after → n.stopped = true →
    n.left = n.found ∧ (n.answer = .done ∨ Over before ∧ n.answer = .spent)
  /-- A poll waits exactly in the wait that the last round has made necessary, and not longer than
  until the stop. -/
  waits : ∀ before n after, s.log = before ++ n :: after →
    (n.answer = .wait ↔
      n.stopped = false ∧ ∃ due, Owes settings before n.now n.draw due ∧ n.now < due)
  /-- Every other poll before the end is a round, which finds jobs if there are any. -/
  works : ∀ before n after, s.log = before ++ n :: after → n.stopped = false →
    ¬ Over before → n.answer ≠ .wait →
      n.found.ready = [] ∧ n.answer = .skip ∨ n.found.ready ≠ [] ∧ ∃ a, n.answer = .item a

/-- Nothing is owed once the end has been reported, since no round comes after it. -/
theorem not_owes_of_over {log : List (Note α)} {now due : Time} {draw : Binary64}
    (polled : ∀ before n after, log = before ++ n :: after → Polled settings jobs limit before n)
    (isOver : Over log) : ¬ Owes settings log now draw due := by
  rintro ⟨earlier, empty, waits, same, isEmpty, waiting, -⟩
  by_cases before : Over earlier
  · cases polled earlier empty waits same with
    | late _ answer _ => cases isEmpty.symm.trans answer
    | stops going => exact going before
    | waits going => exact going before
    | empty going => exact going before
    | hands going => exact going before
  · rw [same] at isOver
    exact over_round before isEmpty waiting isOver

theorem Worked.serves {g : Polling.Generator} {take : JobQueue → Option α × JobQueue}
    (some : limit ≠ 0) {s : Shift (consumerWith g take)} (w : Worked settings jobs limit s) :
    Serves settings jobs limit s := by
  obtain ⟨-, polled, taken, all, order⟩ := w
  refine ⟨?_, ?_, ?_, ?_, ?_, ?_⟩
  · intro n member
    obtain ⟨before, after, same⟩ := List.append_of_mem member
    exact (polled before n after same).conserves
  · intro n member a item
    obtain ⟨before, after, same⟩ := List.append_of_mem member
    rcases (polled before n after same).hands_or_quiet with
      ⟨b, item', found, given, -⟩ | ⟨⟨_, quiet⟩, -⟩
    · cases item.symm.trans item'
      rw [given]
      exact ⟨by simp [dequeueMany, found, some], List.length_take_le _ _⟩
    · cases item.symm.trans quiet
  · rw [all]
    exact order.trans (List.sublist_append_left _ _)
  · intro before n after same stopped
    cases polled before n after same with
    | late isOver answer left => exact ⟨left, .inr ⟨isOver, answer⟩⟩
    | stops _ _ answer left => exact ⟨left, .inl answer⟩
    | waits _ running => cases stopped.symm.trans running
    | empty _ running => cases stopped.symm.trans running
    | hands _ running => cases stopped.symm.trans running
  · intro before n after same
    have earlier : ∀ b e a, before = b ++ e :: a → Polled settings jobs limit b e := by
      rintro b e a rfl
      exact polled b e (a ++ n :: after) (by simp [same])
    cases polled before n after same with
    | late isOver answer _ =>
      rw [answer]
      constructor
      · intro isWait
        cases isWait
      · rintro ⟨-, due, owes, -⟩
        exact absurd owes (not_owes_of_over earlier isOver)
    | stops _ stopped answer _ =>
      rw [answer, stopped]
      constructor
      · intro isWait
        cases isWait
      · rintro ⟨running, -⟩
        cases running
    | waits _ running owes early answer _ =>
      exact ⟨fun _ => ⟨running, _, owes, early⟩, fun _ => answer⟩
    | empty _ _ settled _ answer _ =>
      rw [answer]
      constructor
      · intro isWait
        cases isWait
      · rintro ⟨-, due, owes, early⟩
        exact absurd early (Nat.not_lt_of_le (settled due owes))
    | hands _ _ settled _ answer _ _ =>
      rw [answer]
      constructor
      · intro isWait
        cases isWait
      · rintro ⟨-, due, owes, early⟩
        exact absurd early (Nat.not_lt_of_le (settled due owes))
  · intro before n after same running going noWait
    cases polled before n after same with
    | late isOver => exact absurd isOver going
    | stops _ stopped => cases stopped.symm.trans running
    | waits _ _ _ _ answer => exact absurd answer noWait
    | empty _ _ _ none answer => exact .inl ⟨none, answer⟩
    | hands _ _ _ found answer => exact .inr ⟨found, _, answer⟩

/-- Under settings that can be used, the sequences of single jobs and of batches are made, and do
their work in every shift. Without jitter the wait behind so many rounds that found nothing is as
long as the delay then, whatever is drawn, which is the initial one behind a round that found
jobs. -/
theorem consumers_serve (settings : Settings.Backoff) (valid : settings.validate = .ok ())
    (size : Nat) (some : 1 ≤ size) :
    (∃ m, consumer settings = .ok m ∧
      ∀ happenings, Serves settings (fun job => [job]) 1 (shift m happenings)) ∧
    (∃ m, batchConsumer size settings = .ok m ∧
      ∀ happenings, Serves settings id size (shift m happenings)) ∧
    (settings.jitter.atMost (.zero false) = true → ∀ k draw,
      (delayBehind settings k).length draw = (delayBehind settings k).current) := by
  have created : Polling.Generator.create settings = .ok { backoff := delayBehind settings 0 } := by
    rw [Polling.Generator.create, Backoff.create, valid]
    rfl
  refine ⟨?_, ?_, ?_⟩
  · refine ⟨_, by rw [consumer, created]; rfl, fun happenings => ?_⟩
    exact (shift_worked dequeue_rounds happenings).serves (by decide)
  · obtain ⟨take, rounds, built⟩ := batches_round (Nat.ne_of_gt some) settings
    refine ⟨_, by rw [built, created]; rfl, fun happenings => ?_⟩
    exact (shift_worked rounds happenings).serves (Nat.ne_of_gt some)
  · intro steady k draw
    apply Polling.length_of_steady
    rw [delayBehind_settings]
    exact steady

/-- Three jobs in batches of two; then two rounds that find nothing, with a wait behind each, of
which the first is over at 100, and the second, of 200 from 130 on, is cut short by the stop. -/
theorem consumers_serve_cut :
    let settings := Settings.Backoff.exponential 100 (.ofNat 2) 5000
    settings.validate = .ok () ∧ 1 ≤ 2 ∧
      ∃ m, batchConsumer 2 settings = .ok m ∧
        (∀ happenings, Serves settings id 2 (shift m happenings)) ∧
        (shift m [.enqueue "a", .enqueue "b", .enqueue "c", .poll 0, .poll 0, .poll 0, .poll 0,
            .poll 99, .poll 120, .poll 130, .poll 329, .enqueue "d", .stop, .poll 329]).log.map
          Note.answer =
            [.item [⟨0, "a"⟩, ⟨1, "b"⟩], .item [⟨2, "c"⟩], .skip, .wait, .wait, .skip, .wait,
              .wait, .done] := by
  intro settings
  have valid : settings.validate = .ok () := by
    rw [Settings.Backoff.validate, if_neg (by decide +kernel), if_neg (by decide +kernel),
      if_neg (by decide +kernel), if_neg (by decide +kernel), if_neg (by decide +kernel)]
  obtain ⟨-, ⟨m, built, serves⟩, -⟩ := consumers_serve settings valid 2 (by decide)
  refine ⟨valid, by decide, m, built, serves, ?_⟩
  have same := built
  rw [batchConsumer, Polling.Generator.create, Backoff.create, valid] at same
  obtain rfl := Except.ok.inj same
  decide +kernel

end PullStream.JobQueue
