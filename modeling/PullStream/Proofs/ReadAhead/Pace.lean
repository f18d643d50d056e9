import Mathlib.Logic.Relation
import PullStream.Proofs.Parallel.Reference
import PullStream.Proofs.ReadAhead.Course

/-!
How far a read-ahead pump gets ahead.

The pump looks at the backlog before it asks its source, and only the consumer works on the
backlog in between, so there is still room when the source answers. What has come from the source
is with the consumer or in the backlog: the items that have been taken are those handed out and
at most `size` more. A pump that waits for room has a full backlog in front of it, or a waiter
that has been woken.

* `Kept`, `Reaches.kept` — what holds between any two steps, under every schedule.
* `Reaches.parked` — a pump that can do nothing by itself has asked its source, or is full.
* `Relays` — courses over a source that hands out a list.
* `Relays.delivers`, `Relays.waits` — there the consumer gets the list, and waits for the source
  only.
-/

namespace PullStream.ReadAhead

open Feed (Consumed)

variable {α : Type}

/-! ### Calls of the consumer and of the source -/

theorem poll_of_idle {p : ReadAhead α} (idle : p.phase = .idle) :
    p.poll = (.skip, { p with phase := .surveying }) :=
  if_pos idle

theorem poll_of_started {p : ReadAhead α} (started : p.phase ≠ .idle) :
    p.poll = (p.feed.poll.1, { p with feed := p.feed.poll.2 }) :=
  if_neg started

/-- An open feed takes the item. -/
theorem pulled_open {p : ReadAhead α} (isOpen : p.feed.closed = false) (a : α) :
    ∃ f, p.feed.feed a = .ok f ∧ p.pulled a = { p with phase := .surveying, feed := f } := by
  obtain ⟨f, fed⟩ := Feed.feed_open isOpen a
  refine ⟨f, fed, ?_⟩
  simp only [pulled, fed]

/-- An open feed takes the failure. -/
theorem pulledFailure_open {p : ReadAhead α} (isOpen : p.feed.closed = false) (e : Failure) :
    ∃ f, p.feed.throw e = .ok f ∧ p.pulledFailure e = { p with phase := .stopped, feed := f } := by
  obtain ⟨f, thrown⟩ := Feed.throw_open isOpen e
  refine ⟨f, thrown, ?_⟩
  simp only [pulledFailure, thrown]

namespace Course

variable {s s' : Course α} {size : Nat}

/-! ### Between any two steps -/

/-- What holds at a pump and its consumer. -/
structure Kept (s : Course α) : Prop where
  sound : s.pump.feed.Sound s.told s.answers
  counted : s.pump.feed.Counted
  fresh : s.pump.phase = .idle → s.told = [] ∧ s.answers = []
  isOpen : s.pump.phase ≠ .stopped → s.pump.feed.closed = false
  /-- What has been taken from the source has been handed out or is pending. -/
  balance : (itemsOf s.told).length =
    (itemsOf (outputs s.answers)).length + s.pump.feed.pending
  within : s.pump.feed.pending ≤ s.pump.size
  room : s.pump.phase = .pulling → s.pump.feed.pending < s.pump.size
  /-- What leaves the backlog in front of a waiting pump wakes it. -/
  full : ∀ {read}, s.pump.phase = .waiting read →
    s.pump.size + read.seen ≤ s.pump.feed.pending + s.pump.feed.reads

namespace Kept

theorem start (size : Nat) : Kept ({ pump := { size } } : Course α) where
  sound := .start
  counted := .start
  fresh _ := ⟨rfl, rfl⟩
  isOpen _ := rfl
  balance := rfl
  within := Nat.zero_le _
  room phase := by cases phase
  full phase := by cases phase

/-- The pump goes to another place, from which it sees what it has to. -/
theorem moved (v : Kept s) {phase : Phase} {stage : Stage} (started : phase ≠ .idle)
    (going : phase ≠ .stopped → s.pump.phase ≠ .stopped)
    (room : phase = .pulling → s.pump.feed.pending < s.pump.size)
    (full : ∀ {read}, phase = .waiting read →
      s.pump.size + read.seen ≤ s.pump.feed.pending + s.pump.feed.reads) :
    Kept (s.moved phase stage) where
  sound := v.sound
  counted := v.counted
  fresh idle := absurd idle started
  isOpen running := v.isOpen (going running)
  balance := v.balance
  within := v.within
  room := room
  full := full

/-- The consumer works on the backlog. -/
theorem consumed (v : Kept s) {f : Feed α} {answers : List (Answer α)}
    (sound : f.Sound s.told answers) (counted : f.Counted)
    (closed : f.closed = s.pump.feed.closed)
    (balance : (itemsOf (outputs answers)).length + f.pending =
      (itemsOf (outputs s.answers)).length + s.pump.feed.pending)
    (fewer : f.pending ≤ s.pump.feed.pending) (took : Consumed s.pump.feed f)
    (started : s.pump.phase = .idle → answers = []) :
    Kept { s with pump := { s.pump with feed := f }, answers } where
  sound := sound
  counted := counted
  fresh idle := ⟨(v.fresh idle).1, started idle⟩
  isOpen running := closed.trans (v.isOpen running)
  balance := v.balance.trans balance.symm
  within := Nat.le_trans fewer v.within
  room phase := Nat.lt_of_le_of_lt fewer (v.room phase)
  full phase := Nat.le_trans (v.full phase) took.counts

end Kept

/-- A pump that does something by itself has been started and has not stopped. -/
theorem Works.going (works : Works s s') (poised : Poised s.pump s.stage) :
    s.pump.phase ≠ .idle ∧ s.pump.phase ≠ .stopped := by
  cases works with
  | register _ phase => simp [phase]
  | leave stage =>
    rw [stage] at poised
    simp [poised.1]
  | stay stage =>
    rw [stage] at poised
    simp [poised.1]
  | full stage =>
    rw [stage] at poised
    simp [poised.1]
  | room stage =>
    rw [stage] at poised
    simp [poised.1]
  | notice _ phase => simp [phase]

theorem Works.kept (works : Works s s') (poised : Poised s.pump s.stage) (v : Kept s) :
    Kept s' := by
  have going := (works.going poised).2
  cases works with
  | register => exact v.moved (by simp) (fun _ => going) (by simp) (by simp)
  | leave => exact v.moved (by simp) (fun _ => going) (by simp) (by simp)
  | stay => exact v.moved (by simp) (fun _ => going) (by simp) (by simp)
  | @full read stage full =>
    rw [stage] at poised
    refine v.moved (by simp) (fun _ => going) (by simp) fun {read'} waiting => ?_
    cases waiting
    exact Nat.add_le_add full poised.2.made.2
  | room _ room => exact v.moved (by simp) (fun _ => going) (fun _ => room) (by simp)
  | notice => exact v.moved (by simp) (fun _ => going) (by simp) (by simp)

theorem Meets.kept (meets : Meets s s') (v : Kept s) : Kept s' := by
  cases meets with
  | @item a resting phase =>
    have isOpen := v.isOpen (by simp [phase])
    have room := v.room phase
    obtain ⟨f, fed, next⟩ := pulled_open isOpen a
    have pending := (Feed.feed_counts fed).1
    rw [next]
    refine ⟨v.sound.feed fed, v.counted.feed fed, by simp, fun _ => ?_, ?_, ?_, by simp, by simp⟩
    · exact (Feed.feed_ok fed).2.2.1.trans isOpen
    · rw [itemsOf_append, List.length_append, v.balance, pending]
      rfl
    · exact pending ▸ room
  | @fail e resting phase =>
    have isOpen := v.isOpen (by simp [phase])
    obtain ⟨f, thrown, next⟩ := pulledFailure_open isOpen e
    have pending := (Feed.throw_counts thrown).1
    rw [next]
    refine ⟨v.sound.throw thrown, v.counted.throw thrown, by simp, by simp, ?_, ?_, by simp,
      by simp⟩
    · rw [itemsOf_append, List.length_append, v.balance, pending]
      rfl
    · exact pending ▸ v.within
  | finish resting phase =>
    exact ⟨v.sound.close, v.counted.close, by simp [pulledEnd], by simp [pulledEnd], v.balance,
      v.within, by simp [pulledEnd], by simp [pulledEnd]⟩
  | broke => exact v.moved (by simp) (by simp) (by simp) (by simp)

/-- A poll hands out what leaves the backlog. -/
theorem poll_balance {f : Feed α} (counted : f.Counted) (present : f.abandoned = false)
    (answers : List (Answer α)) :
    (itemsOf (outputs (answers ++ [f.poll.1]))).length + f.poll.2.pending =
      (itemsOf (outputs answers)).length + f.pending := by
  have moves := Feed.poll_counts counted present
  rcases f.poll_count with ⟨a, isItem, pending, reads⟩ | ⟨noItem, pending, reads⟩
  · have one : itemsOf (outputs [f.poll.1]) = [a] := by
      rw [isItem]
      rfl
    rw [outputs_append, itemsOf_append, one, List.length_append, List.length_singleton]
    omega
  · have none : itemsOf (outputs [f.poll.1]) = [] := by
      cases answer : f.poll.1 with
      | item a => exact absurd answer (noItem a)
      | signal g => cases g <;> rfl
    rw [outputs_append, itemsOf_append, none, List.append_nil, pending]

theorem Step.kept (step : Step s s') (poised : Poised s.pump s.stage) (v : Kept s) :
    Kept s' := by
  cases step with
  | works works => exact works.kept poised v
  | meets meets => exact meets.kept v
  | refill =>
    exact v.consumed v.sound.refill v.counted.refill s.pump.feed.refill_untouched.closed
      (by rw [Feed.refill_pending]) (Nat.le_of_eq (Feed.refill_pending _))
      (Feed.refill_consumed _) fun idle => (v.fresh idle).2
  | poll present =>
    by_cases idle : s.pump.phase = .idle
    · rw [poll_of_idle idle]
      refine ⟨v.sound.skip, v.counted, by simp, fun _ => v.isOpen (by simp [idle]), ?_, v.within,
        by simp, by simp⟩
      rw [outputs_append, outputs_skip, List.append_nil]
      exact v.balance
    · rw [poll_of_started idle]
      exact v.consumed (v.sound.poll present) (v.counted.poll v.sound present)
        s.pump.feed.poll_untouched.closed (poll_balance v.counted present _)
        (Feed.poll_pending_le _) (Feed.poll_consumed v.counted present) (absurd · idle)
  | drop present =>
    have dropped : Kept { s with pump := { s.pump with feed := s.pump.feed.drop } } :=
      v.consumed v.sound.drop v.counted.drop rfl rfl (Nat.le_refl _) (Feed.drop_consumed _)
        fun idle => (v.fresh idle).2
    by_cases idle : s.pump.phase = .idle
    · have same : s.pump.drop = { s.pump with phase := .stopped, feed := s.pump.feed.drop } := by
        simp [ReadAhead.drop, idle]
      rw [same]
      exact dropped.moved (by simp) (by simp) (by simp) (by simp)
    · have same : s.pump.drop = { s.pump with feed := s.pump.feed.drop } := by
        simp [ReadAhead.drop, idle]
      rw [same]
      exact dropped

theorem Reaches.kept (reached : Reaches size s) : Kept s := by
  induction reached with
  | start => exact .start size
  | step reached step ih => exact step.kept reached.poised ih

/-! ### The size -/

theorem Meets.constant (meets : Meets s s') : s'.pump.size = s.pump.size := by
  cases meets with
  | item =>
    simp only [pulled]
    split <;> rfl
  | fail =>
    simp only [pulledFailure]
    split <;> rfl
  | finish => rfl
  | broke => rfl

theorem Step.constant (step : Step s s') : s'.pump.size = s.pump.size := by
  cases step with
  | works works => cases works <;> rfl
  | meets meets => exact meets.constant
  | refill => rfl
  | poll =>
    simp only [ReadAhead.poll]
    split <;> rfl
  | drop => rfl

theorem Reaches.constant (reached : Reaches size s) : s.pump.size = size := by
  induction reached with
  | start => rfl
  | step _ step ih => exact step.constant.trans ih

/-! ### Rest -/

/-- A pump that waits for room, and has not been woken, has a full backlog in front of it, and its
consumer is there. -/
theorem Reaches.full (reached : Reaches size s) (resting : s.stage = .resting)
    {read : Feed.Waiter} (phase : s.pump.phase = .waiting read)
    (unresolved : read.resolved s.pump.feed = false) :
    s.pump.feed.abandoned = false ∧ (itemsOf s.pump.feed.backlog).length = size := by
  have kept := reached.kept
  have poised := reached.poised
  rw [resting] at poised
  have alerted := poised phase
  have same := alerted.made.reads_eq unresolved
  have present : s.pump.feed.abandoned = false := by
    by_contra gone
    have later := alerted.gone (by simpa using gone)
    omega
  have exactly := kept.counted.exact present
  have full := kept.full phase
  have within := kept.within
  have size := reached.constant
  exact ⟨present, by omega⟩

/-- Between two calls it does nothing away from the head of the loop, as long as its waiter has not
been woken. -/
theorem still_of_resting (resting : s.stage = .resting) (away : s.pump.phase ≠ .surveying)
    (asleep : ∀ {read}, s.pump.phase = .waiting read → read.resolved s.pump.feed = false) :
    ∀ s', ¬ Works s s' := by
  intro s' works
  cases works with
  | register _ calls => exact away calls
  | leave stage => cases resting.symm.trans stage
  | stay stage => cases resting.symm.trans stage
  | full stage => cases resting.symm.trans stage
  | room stage => cases resting.symm.trans stage
  | notice _ waits woken => cases woken.symm.trans (asleep waits)

theorem still_of_waiting (resting : s.stage = .resting) {read : Feed.Waiter}
    (phase : s.pump.phase = .waiting read) (unresolved : read.resolved s.pump.feed = false) :
    ∀ s', ¬ Works s s' := by
  refine still_of_resting resting (by simp [phase]) fun waits => ?_
  cases phase.symm.trans waits
  exact unresolved

/-- A pump that can do nothing by itself has asked its source, or its backlog is full. -/
theorem Reaches.parked (reached : Reaches size s) (started : s.pump.phase ≠ .idle)
    (going : s.pump.phase ≠ .stopped) (still : ∀ s', ¬ Works s s') :
    s.stage = .resting ∧ (s.pump.phase = .pulling ∨
      s.pump.feed.abandoned = false ∧ (itemsOf s.pump.feed.backlog).length = size) := by
  cases stage : s.stage with
  | resting =>
    refine ⟨rfl, ?_⟩
    cases phase : s.pump.phase with
    | idle => exact absurd phase started
    | stopped => exact absurd phase going
    | pulling => exact .inl rfl
    | surveying => exact absurd (.register stage phase) (still _)
    | waiting read =>
      cases woken : read.resolved s.pump.feed with
      | true => exact absurd (.notice stage phase woken) (still _)
      | false => exact .inr (reached.full stage phase woken)
  | registered read =>
    cases gone : s.pump.feed.abandoned with
    | true => exact absurd (.leave stage gone) (still _)
    | false => exact absurd (.stay stage gone) (still _)
  | attended read =>
    rcases Nat.lt_or_ge s.pump.feed.pending s.pump.size with room | full
    · exact absurd (.room stage room) (still _)
    · exact absurd (.full stage full) (still _)

/-- How many steps a waiter leads to that has been woken, at most. -/
def wakes (s : Course α) (read : Feed.Waiter) : Nat :=
  if read.resolved s.pump.feed then 4 else 0

/-- How many steps a pump has before it, by itself, at most. -/
def steps (s : Course α) : Nat :=
  match s.stage, s.pump.phase with
  | .resting, .surveying => 3
  | .resting, .waiting read => s.wakes read
  | .resting, _ => 0
  | .registered read, _ => 2 + s.wakes read
  | .attended read, _ => 1 + s.wakes read

/-- By itself a pump comes to rest. -/
theorem Works.steps_lt (works : Works s s') : s'.steps < s.steps := by
  cases works with
  | register stage phase =>
    simp [steps, wakes, moved, stage, phase, Feed.waiter, Feed.Waiter.resolved]
  | @leave read stage =>
    have before : s.steps = 2 + s.wakes read := by simp only [steps, stage]
    have after : (s.moved .stopped .resting).steps = 0 := rfl
    omega
  | @stay read stage =>
    have before : s.steps = 2 + s.wakes read := by simp only [steps, stage]
    have after : (s.moved .surveying (.attended read)).steps = 1 + s.wakes read := rfl
    omega
  | @full read stage =>
    have before : s.steps = 1 + s.wakes read := by simp only [steps, stage]
    have after : (s.moved (.waiting read) .resting).steps = s.wakes read := rfl
    omega
  | @room read stage =>
    have before : s.steps = 1 + s.wakes read := by simp only [steps, stage]
    have after : (s.moved .pulling .resting).steps = 0 := rfl
    omega
  | notice stage phase woken => simp [steps, wakes, noticedRead, stage, phase, woken]

/-! ### Over a list -/

/-- What courses lead to over a source that hands out a list, entry by entry, and then ends. -/
inductive Relays (list : List (Except Failure α)) (size : Nat) : Course α → Prop where
  | start : Relays list size { pump := { size } }
  | works {s s' : Course α} : Relays list size s → Works s s' → Relays list size s'
  | item {s : Course α} {a} : Relays list size s → s.stage = .resting → s.pump.phase = .pulling →
      list[s.told.length]? = some (.ok a) →
      Relays list size { s with pump := s.pump.pulled a, told := s.told ++ [.ok a] }
  | fail {s : Course α} {e} : Relays list size s → s.stage = .resting → s.pump.phase = .pulling →
      list[s.told.length]? = some (.error e) →
      Relays list size { s with pump := s.pump.pulledFailure e, told := s.told ++ [.error e] }
  | finish {s : Course α} : Relays list size s → s.stage = .resting → s.pump.phase = .pulling →
      s.told = list → Relays list size { s with pump := s.pump.pulledEnd }
  | refill {s : Course α} : Relays list size s →
      Relays list size { s with pump := { s.pump with feed := s.pump.feed.refill } }
  | poll {s : Course α} : Relays list size s → s.pump.feed.abandoned = false →
      Relays list size { s with pump := s.pump.poll.2, answers := s.answers ++ [s.pump.poll.1] }
  | drop {s : Course α} : Relays list size s → s.pump.feed.abandoned = false →
      Relays list size { s with pump := s.pump.drop }

variable {list : List (Except Failure α)} {xs : List α} {fault : Option Failure}

theorem Relays.reaches (relayed : Relays list size s) : Reaches size s := by
  induction relayed with
  | start => exact .start
  | works _ works ih => exact ih.works works
  | item _ resting phase _ ih => exact ih.step (.meets (.item resting phase))
  | fail _ resting phase _ ih => exact ih.step (.meets (.fail resting phase))
  | finish _ resting phase _ ih => exact ih.step (.meets (.finish resting phase))
  | refill _ ih => exact ih.step .refill
  | poll _ present ih => exact ih.step (.poll present)
  | drop _ present ih => exact ih.step (.drop present)

/-- A first part of a list, and the entry behind it. -/
theorem prefix_concat {told : List (Except Failure α)} (first : told <+: list)
    {r : Except Failure α} (next : list[told.length]? = some r) : told ++ [r] <+: list := by
  obtain ⟨rest, rfl⟩ := first
  rw [List.getElem?_append_right (Nat.le_refl _), Nat.sub_self] at next
  obtain ⟨rest, rfl⟩ := List.head?_eq_some_iff.mp (List.head?_eq_getElem? ▸ next)
  exact ⟨rest, by simp⟩

/-- What the source has said, and what follows from where the pump is. -/
structure Spoken (list : List (Except Failure α)) (s : Course α) : Prop where
  told : s.told <+: list
  closed : s.pump.feed.closed = true → s.told = list
  stopped : s.pump.phase = .stopped →
    s.pump.feed.closed = true ∨ s.pump.feed.abandoned = true

theorem Relays.spoken (relayed : Relays (sourceOf xs fault) size s) :
    Spoken (sourceOf xs fault) s := by
  induction relayed with
  | start =>
    exact ⟨List.nil_prefix, fun closed => absurd closed Bool.false_ne_true,
      fun phase => by cases phase⟩
  | works relayed works ih =>
    obtain ⟨told, closed, stopped⟩ := ih
    cases works with
    | leave stage gone => exact ⟨told, closed, fun _ => .inr gone⟩
    | _ => exact ⟨told, closed, fun phase => by cases phase⟩
  | @item s a relayed resting phase next ih =>
    have isOpen := relayed.reaches.kept.isOpen (by simp [phase])
    obtain ⟨f, fed, after⟩ := pulled_open isOpen a
    have still := (Feed.feed_ok fed).2.2.1
    rw [after]
    exact ⟨prefix_concat ih.told next, fun closed => by simp [still, isOpen] at closed, by simp⟩
  | @fail s e relayed resting phase next ih =>
    have isOpen := relayed.reaches.kept.isOpen (by simp [phase])
    obtain ⟨f, thrown, after⟩ := pulledFailure_open isOpen e
    have first := prefix_concat ih.told next
    have whole := told_of_failed first (e := e) (by simp)
    rw [after]
    exact ⟨first, fun _ => whole, fun _ => .inl (Feed.throw_ok thrown).2.2.1⟩
  | finish relayed resting phase all ih => exact ⟨ih.told, fun _ => all, fun _ => .inl rfl⟩
  | @refill s relayed ih =>
    have frame := s.pump.feed.refill_untouched
    exact ⟨ih.told, fun closed => ih.closed (frame.closed ▸ closed),
      fun phase => by rw [frame.closed, frame.abandoned]; exact ih.stopped phase⟩
  | @poll s relayed present ih =>
    have frame := s.pump.feed.poll_untouched
    by_cases idle : s.pump.phase = .idle
    · rw [poll_of_idle idle]
      exact ⟨ih.told, ih.closed, by simp⟩
    · rw [poll_of_started idle]
      exact ⟨ih.told, fun closed => ih.closed (frame.closed ▸ closed),
        fun phase => by rw [frame.closed, frame.abandoned]; exact ih.stopped phase⟩
  | drop relayed present ih => exact ⟨ih.told, ih.closed, fun _ => .inr rfl⟩

/-- The consumer gets the list from its beginning, and reports the end or the failure behind all
of it. -/
theorem Relays.delivers (relayed : Relays (sourceOf xs fault) size s) :
    outputs s.answers <+: sourceOf xs fault ∧
      (.done ∈ s.answers → outputs s.answers = sourceOf xs fault) ∧
      ∀ before e after, s.answers = before ++ .fail e :: after →
        outputs before ++ [.error e] = sourceOf xs fault ∧ outputs after = [] := by
  have spoken := relayed.spoken
  have sound := relayed.reaches.kept.sound
  refine ⟨sound.outputs_prefix.trans spoken.told, fun done => ?_, ?_⟩
  · obtain ⟨-, closed, all⟩ := sound.ended done
    exact all.trans (spoken.closed closed)
  · intro before e after failed
    obtain ⟨all, none⟩ := sound.failure_last failed
    have entry : .error e ∈ s.told := by
      rw [all]
      simp
    exact ⟨all.symm.trans (told_of_failed spoken.told entry), none⟩

/-- A consumer that has to wait waits for the source: the pump comes to ask it by itself. -/
theorem Relays.waits (positive : 0 < size) (relayed : Relays (sourceOf xs fault) size s)
    (started : s.pump.phase ≠ .idle) (present : s.pump.feed.abandoned = false)
    (waits : s.pump.poll.1 = .wait) :
    ∃ s', Relation.ReflTransGen Works s s' ∧ s'.stage = .resting ∧ s'.pump.phase = .pulling := by
  have feedWaits : s.pump.feed.poll.1 = .wait := by
    rwa [poll_of_started started] at waits
  have empty : s.pump.feed.backlog = [] ∧ s.pump.feed.closed = false := by
    have spec := s.pump.feed.poll_spec
    rw [feedWaits] at spec
    cases spec with
    | waiting _ none isOpen => exact ⟨none, isOpen⟩
  induction count : s.steps using Nat.strongRecOn generalizing s with
  | ind n ih =>
    have going : s.pump.phase ≠ .stopped := by
      intro stopped
      rcases relayed.spoken.stopped stopped with closed | gone
      · cases closed.symm.trans empty.2
      · cases gone.symm.trans present
    by_cases still : ∀ s', ¬ Works s s'
    · obtain ⟨resting, pulling | ⟨-, full⟩⟩ := relayed.reaches.parked started going still
      · exact ⟨s, .refl, resting, pulling⟩
      · rw [empty.1] at full
        exact absurd full (Nat.ne_of_lt positive)
    · obtain ⟨s', works⟩ := not_forall_not.mp still
      have same : s'.pump.feed = s.pump.feed := by cases works <;> rfl
      have nearer := works.steps_lt
      have started' : s'.pump.phase ≠ .idle := by cases works <;> simp [moved, noticedRead]
      rw [← same] at feedWaits empty present
      obtain ⟨last, rest, pulling⟩ := ih s'.steps (count ▸ nearer) (relayed.works works) started'
        present (by rwa [poll_of_started started']) feedWaits empty rfl
      exact ⟨last, .head works rest, pulling⟩

end Course
end PullStream.ReadAhead
