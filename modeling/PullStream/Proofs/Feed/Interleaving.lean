import PullStream.Proofs.Feed.Counter

/-!
The single steps of a feed.

A call on a feed is not one step. Producers do all of theirs under the lock of the
shared buffer, but the consumer takes an item out of its batch, lowers the counter and
sets off the signals one after the other without it, and so does its drop. A `Scene` is a
ledger together with how far the consumer has come, and `Scene.after` lets anybody
take one step; a list of acts is then an interleaving.

* `Scene.run_calls` — with nobody in between, the steps make up the calls of a ledger.
* `Scene.after_outcome` — what a step comes to.
* `Scene.run_valid` — what holds between any two steps.
-/

namespace PullStream.Feed

variable {α : Type} {f f' : Feed α} {accepted : List (Except Failure α)}
  {answers : List (Answer α)}

/-! ### Steps -/

/-- How far the consumer has come in the call that it is in. -/
inductive Within (α : Type) where
  /-- In no call. -/
  | resting
  /-- In a poll that has not come upon an entry. -/
  | looking
  /-- An item is out of the batch, and still counts as pending. -/
  | holding (item : α)
  /-- The item does not count any more, and `left` items do; no signal has gone off. -/
  | counted (item : α) (left : Nat)
  /-- The read has been signalled. The item was the last one that counted. -/
  | told (item : α)
  /-- In the drop: the flag is up, and no signal has gone off. -/
  | leaving
  /-- In the drop: the read has been signalled. -/
  | left
  deriving DecidableEq, Repr

namespace Within

/-- The answer that the consumer is about to give. -/
def coming : Within α → List (Answer α)
  | .holding a | .counted a _ | .told a => [.item a]
  | _ => []

/-- The items that do not count as pending any more and have not been answered yet. -/
def handed : Within α → List α
  | .counted a _ | .told a => [a]
  | _ => []

/-- Whether the consumer is in no call. -/
def rests : Within α → Bool
  | .resting => true
  | _ => false

/-- Whether the consumer is in a poll. -/
def polls : Within α → Bool
  | .looking | .holding _ | .counted _ _ | .told _ => true
  | _ => false

/-- Whether the consumer is in its drop. -/
def leaves : Within α → Bool
  | .leaving | .left => true
  | _ => false

end Within

/-- A feed with its books, between two steps. -/
structure Scene (α : Type) extends Ledger α where
  within : Within α := .resting

/-- What may happen next. The producers' acts may come from any handle. -/
inductive Act (α : Type) where
  | feed (value : α)
  | throw (failure : Failure)
  | close
  | consume
  /-- The consumer is asked for an item. -/
  | poll
  /-- The consumer is dropped. -/
  | drop
  /-- The consumer goes on with the call that it is in. -/
  | step

/-- One item less is pending. -/
def countOut (f : Feed α) : Feed α :=
  { f with pending := f.pending - 1 }

/-- A signal goes off. -/
def signal (f : Feed α) : Event → Feed α
  | .read => { f with reads := f.reads + 1 }
  | .empty => { f with empties := f.empties + 1 }

namespace Scene

/-- Whether there is a consumer that a call may begin on. -/
def free (s : Scene α) : Bool :=
  s.attended && s.within.rests

@[simp] theorem free_resting (l : Ledger α) : (⟨l, .resting⟩ : Scene α).free = l.attended :=
  Bool.and_true _

/-- The consumer's call is over, with this answer. -/
def answer (s : Scene α) (a : Answer α) (f : Feed α) : Scene α :=
  { s with feed := f, answers := s.answers ++ [a], within := .resting }

/-- The next step of the call that the consumer is in. -/
def step (s : Scene α) : Scene α :=
  match s.within with
  | .resting => s
  | .looking =>
    if s.feed.finished then s.answer .done s.feed
    else
      match s.feed.drained, s.feed.shared with
      | .item a :: rest, _ =>
        { s with feed := { s.feed with drained := rest }, within := .holding a }
      -- The shared buffer is taken under the lock, and the batch looked at again.
      | [], _ :: _ => { s with feed := s.feed.refill }
      | _, _ => s.answer s.feed.handOut.1 s.feed.handOut.2
  | .holding a =>
    { s with feed := s.feed.countOut, within := .counted a (s.feed.pending - 1) }
  | .counted a left =>
    if left = 0 then { s with feed := s.feed.signal .read, within := .told a }
    else s.answer (.item a) (s.feed.signal .read)
  | .told a => s.answer (.item a) (s.feed.signal .empty)
  | .leaving => { s with feed := s.feed.signal .read, within := .left }
  | .left =>
    { s with
      feed := { s.feed.signal .empty with drained := [], finished := true }
      within := .resting }

/-- One step of anybody. A producer's call is one step; a call of the consumer begins when
there is a consumer and it is in no other. -/
def after (s : Scene α) : Act α → Scene α
  | .feed a => { s with toLedger := s.toLedger.after (.feed a) }
  | .throw e => { s with toLedger := s.toLedger.after (.throw e) }
  | .close => { s with toLedger := s.toLedger.after .close }
  | .consume => { s with toLedger := s.toLedger.after .consume }
  | .poll => if s.free then { s with within := .looking } else s
  | .drop =>
    if s.free then
      { s with feed := { s.feed with abandoned := true }, within := .leaving }
    else s
  | .step => s.step

/-- An interleaving of steps on a new feed. -/
def run (acts : List (Act α)) : Scene α :=
  acts.foldl after {}

theorem run_append (acts more : List (Act α)) :
    run (acts ++ more) = more.foldl after (run acts) :=
  List.foldl_append

theorem run_snoc (acts : List (Act α)) (act : Act α) :
    run (acts ++ [act]) = (run acts).after act :=
  run_append acts [act]

end Scene

/-! ### Whole calls -/

/-- A swap that would bring nothing changes nothing. -/
theorem refill_taken (taken : f.drained = [] → f.shared = []) : f.refill = f := by
  unfold refill
  split
  · rename_i empty
    have batch := List.isEmpty_iff.mp empty
    have shared := taken batch
    cases f
    simp_all
  · rfl

/-- The steps of a call with nobody in between. A poll takes five at most; the swap is one of
them, and no call of its own. -/
def Call.acts : Call α → List (Act α)
  | .feed a => [.feed a]
  | .throw e => [.throw e]
  | .close => [.close]
  | .consume => [.consume]
  | .refill => []
  | .poll => [.poll, .step, .step, .step, .step, .step]
  | .drop => [.drop, .step, .step]

/-- A poll that has nothing to swap hands out at once. -/
theorem poll_taken (running : f.finished = false) (taken : f.drained = [] → f.shared = []) :
    f.poll = f.handOut := by
  rw [poll, running, refill_taken taken]
  rfl

namespace Scene

/-- An item in front of the batch is handed out in four steps. -/
theorem steps_item (l : Ledger α) {a : α} {rest : List (Entry α)}
    (running : l.feed.finished = false) (batch : l.feed.drained = .item a :: rest) :
    (⟨l, .looking⟩ : Scene α).step.step.step.step =
      ⟨{ l with feed := l.feed.handOut.2, answers := l.answers ++ [l.feed.handOut.1] },
        .resting⟩ := by
  by_cases last : l.feed.pending - 1 = 0
  · simp [step, answer, handOut, countOut, signal, running, batch, last]
  · simp [step, answer, handOut, countOut, signal, running, batch, last]

/-- Anything else is answered in one step, if there is nothing to be taken. -/
theorem step_answer (l : Ledger α) (running : l.feed.finished = false)
    (noItem : ∀ a rest, l.feed.drained ≠ .item a :: rest)
    (taken : l.feed.drained = [] → l.feed.shared = []) :
    (⟨l, .looking⟩ : Scene α).step =
      ⟨{ l with feed := l.feed.handOut.2, answers := l.answers ++ [l.feed.handOut.1] },
        .resting⟩ := by
  cases batch : l.feed.drained with
  | nil => simp [step, answer, running, batch, taken batch]
  | cons entry rest =>
    cases entry with
    | item a => exact absurd batch (noItem a rest)
    | failure e => simp [step, answer, running, batch]

/-- A batch that has been filled is handed out in four steps at most. -/
theorem steps_handOut (l : Ledger α) (running : l.feed.finished = false)
    (taken : l.feed.drained = [] → l.feed.shared = []) :
    (⟨l, .looking⟩ : Scene α).step.step.step.step =
      ⟨{ l with feed := l.feed.handOut.2, answers := l.answers ++ [l.feed.handOut.1] },
        .resting⟩ := by
  by_cases item : ∃ a rest, l.feed.drained = .item a :: rest
  · obtain ⟨a, rest, batch⟩ := item
    exact steps_item l running batch
  · rw [step_answer l running (fun a rest batch => item ⟨a, rest, batch⟩) taken]
    rfl

/-- The steps of a poll, one after the other, are the poll. -/
theorem steps_poll (l : Ledger α) :
    (⟨l, .looking⟩ : Scene α).step.step.step.step.step =
      ⟨{ l with feed := l.feed.poll.2, answers := l.answers ++ [l.feed.poll.1] },
        .resting⟩ := by
  cases running : l.feed.finished with
  | true => simp [step, answer, running, poll]
  | false =>
    rw [poll, running, if_neg (by decide)]
    by_cases dry : l.feed.drained = [] ∧ l.feed.shared ≠ []
    · obtain ⟨batch, some⟩ := dry
      obtain ⟨entry, rest, shared⟩ := List.exists_cons_of_ne_nil some
      have swap :
          (⟨l, .looking⟩ : Scene α).step = ⟨{ l with feed := l.feed.refill }, .looking⟩ := by
        simp [step, running, batch, shared]
      rw [swap]
      refine steps_handOut { l with feed := l.feed.refill } (by simpa using running) ?_
      intro none
      simp [refill, batch, shared] at none
    · have taken : l.feed.drained = [] → l.feed.shared = [] := by
        intro batch
        by_contra some
        exact dry ⟨batch, some⟩
      rw [steps_handOut l running taken, refill_taken taken]
      rfl

/-- The steps of a drop, one after the other, are the drop. -/
theorem steps_drop (l : Ledger α) :
    (⟨{ l with feed := { l.feed with abandoned := true } }, .leaving⟩ : Scene α).step.step =
      ⟨{ l with feed := l.feed.drop }, .resting⟩ :=
  rfl

/-- With nobody in between, the steps of a call are the call. -/
theorem acts_after (l : Ledger α) {call : Call α} (whole : call ≠ .refill) :
    call.acts.foldl after ⟨l, .resting⟩ = (⟨l.after call, .resting⟩ : Scene α) := by
  cases call with
  | feed a => rfl
  | throw e => rfl
  | close => rfl
  | consume => rfl
  | refill => exact absurd rfl whole
  | poll =>
    simp only [Call.acts, List.foldl_cons, List.foldl_nil, after, free_resting, Ledger.after]
    split
    · exact steps_poll l
    · rfl
  | drop =>
    simp only [Call.acts, List.foldl_cons, List.foldl_nil, after, free_resting, Ledger.after]
    split
    · exact steps_drop l
    · rfl

/-- A history of whole calls is one of the interleavings. -/
theorem run_calls (calls : List (Call α)) (whole : .refill ∉ calls) :
    run (calls.flatMap Call.acts) = ⟨Ledger.run calls, .resting⟩ := by
  induction calls using List.reverseRecOn with
  | nil => rfl
  | append_singleton calls call ih =>
    have before : .refill ∉ calls := fun h => whole (List.mem_append_left _ h)
    have last : call ≠ .refill := by
      rintro rfl
      exact whole (by simp)
    rw [List.flatMap_append, run_append, ih before, Ledger.run_snoc]
    simpa using acts_after (Ledger.run calls) last

/-! ### What a step comes to -/

/-- What a step comes to: nothing, a producer's call that went through, the beginning of a
call of the consumer, or one step of it. -/
inductive Outcome (s : Scene α) : Act α → Scene α → Prop where
  | refused {act} : act ≠ .step → Outcome s act s
  | fed {a g} : s.feed.feed a = .ok g →
      Outcome s (.feed a) { s with feed := g, accepted := s.accepted ++ [.ok a] }
  | thrown {e g} : s.feed.throw e = .ok g →
      Outcome s (.throw e) { s with feed := g, accepted := s.accepted ++ [.error e] }
  | closed : Outcome s .close { s with feed := s.feed.close }
  | attached {g} : s.feed.consume = .ok g →
      Outcome s .consume { s with feed := g, attachments := s.attachments + 1 }
  | asked : s.within = .resting → s.feed.abandoned = false →
      Outcome s .poll { s with within := .looking }
  | raised : s.within = .resting → s.feed.abandoned = false →
      Outcome s .drop { s with feed := { s.feed with abandoned := true }, within := .leaving }
  | rested : s.within = .resting → Outcome s .step s
  | late : s.within = .looking → s.feed.finished = true →
      Outcome s .step (s.answer .done s.feed)
  | swapped : s.within = .looking → s.feed.drained = [] → s.feed.shared ≠ [] →
      Outcome s .step { s with feed := s.feed.refill }
  | took {a rest} : s.within = .looking → s.feed.finished = false →
      s.feed.drained = .item a :: rest →
      Outcome s .step { s with feed := { s.feed with drained := rest }, within := .holding a }
  | settled : s.within = .looking → s.feed.finished = false →
      (∀ a rest, s.feed.drained ≠ .item a :: rest) → (s.feed.drained = [] → s.feed.shared = []) →
      Outcome s .step (s.answer s.feed.handOut.1 s.feed.handOut.2)
  | lowered {a} : s.within = .holding a →
      Outcome s .step
        { s with feed := s.feed.countOut, within := .counted a (s.feed.pending - 1) }
  | signalled {a left} : s.within = .counted a left → left ≠ 0 →
      Outcome s .step (s.answer (.item a) (s.feed.signal .read))
  | signalledLast {a} : s.within = .counted a 0 →
      Outcome s .step { s with feed := s.feed.signal .read, within := .told a }
  | emptied {a} : s.within = .told a →
      Outcome s .step (s.answer (.item a) (s.feed.signal .empty))
  | leftReads : s.within = .leaving →
      Outcome s .step { s with feed := s.feed.signal .read, within := .left }
  | gone : s.within = .left →
      Outcome s .step
        { s with
          feed := { s.feed.signal .empty with drained := [], finished := true }
          within := .resting }

theorem step_outcome (s : Scene α) : Outcome s .step s.step := by
  unfold step
  split
  · rename_i within
    exact .rested within
  · rename_i within
    split
    · rename_i finished
      exact .late within finished
    · rename_i running
      have running : s.feed.finished = false := by simpa using running
      split
      · rename_i a rest batch
        exact .took within running batch
      · rename_i batch shared
        exact .swapped within batch (by simp [shared])
      · rename_i noItem noSwap
        refine .settled within running noItem fun batch => ?_
        by_contra some
        obtain ⟨entry, rest, shared⟩ := List.exists_cons_of_ne_nil some
        exact noSwap _ _ batch shared
  · rename_i within
    exact .lowered within
  · rename_i within
    split
    · rename_i last
      exact .signalledLast (last ▸ within)
    · rename_i more
      exact .signalled within more
  · rename_i within
    exact .emptied within
  · rename_i within
    exact .leftReads within
  · rename_i within
    exact .gone within

theorem free_resting_present {s : Scene α} (h : s.free = true) :
    s.within = .resting ∧ s.feed.abandoned = false := by
  have both : s.attended = true ∧ s.within.rests = true := by simpa [free] using h
  refine ⟨?_, Ledger.attended_present both.1⟩
  cases within : s.within with
  | resting => rfl
  | _ => simp [within, Within.rests] at both

theorem after_outcome (s : Scene α) (act : Act α) : Outcome s act (s.after act) := by
  cases act with
  | feed a =>
    simp only [after, Ledger.after]
    split
    · rename_i f h
      exact .fed h
    · exact .refused (by simp)
  | throw e =>
    simp only [after, Ledger.after]
    split
    · rename_i f h
      exact .thrown h
    · exact .refused (by simp)
  | close => exact .closed
  | consume =>
    simp only [after, Ledger.after]
    split
    · rename_i f h
      exact .attached h
    · exact .refused (by simp)
  | poll =>
    simp only [after]
    split
    · rename_i h
      exact .asked (free_resting_present h).1 (free_resting_present h).2
    · exact .refused (by simp)
  | drop =>
    simp only [after]
    split
    · rename_i h
      exact .raised (free_resting_present h).1 (free_resting_present h).2
    · exact .refused (by simp)
  | step => exact s.step_outcome

/-! ### Between two steps -/

/-- What holds between any two steps. -/
structure Valid (s : Scene α) : Prop where
  /-- The books are right, the answer that is coming included. -/
  sound : Sound s.feed s.accepted (s.answers ++ s.within.coming)
  /-- What is pending and what has been handed out make up what was accepted. -/
  balance : s.feed.pending + (itemsOf (outputs s.answers) ++ s.within.handed).length =
    (itemsOf s.accepted).length
  /-- A consumer that waits to be woken has nothing to find, and is in no hand-out. -/
  asleep : s.feed.parked = true →
    s.feed.drained = [] ∧ s.feed.shared = [] ∧ s.feed.closed = false ∧ s.within.coming = []
  /-- Only a consumer that is there polls. -/
  polling : s.within.polls = true → s.feed.abandoned = false
  /-- The flag is up during the drop. -/
  leaving : s.within.leaves = true → s.feed.abandoned = true

end Scene

/-- A feed that is being left: its backlog may go, its books stay. -/
theorem Sound.left (s : Sound f accepted answers) (gone : f'.abandoned = true)
    (closed : f'.closed = f.closed) (finished : f.finished = true → f'.finished = true) :
    Sound f' accepted answers where
  conserved := by
    obtain ⟨waiting, same, -⟩ := s.conserved
    exact ⟨waiting, same, fun present => absurd present (by simp [gone])⟩
  terminal := s.terminal
  shut e member := closed.trans (s.shut e member)
  settled present := absurd present (by simp [gone])
  ended member :=
    ⟨finished (s.ended member).1, closed.trans (s.ended member).2.1, (s.ended member).2.2⟩
  failed e member := finished (s.failed e member)

/-- Taking an item out of the batch is all that a poll does to the backlog. -/
theorem Sound.took {a : α} {rest : List (Entry α)} (s : Sound f accepted answers)
    (present : f.abandoned = false) (running : f.finished = false)
    (batch : f.drained = .item a :: rest) :
    Sound { f with drained := rest } accepted (answers ++ [.item a]) := by
  have polled : f.poll = f.handOut := poll_taken running fun none => by simp [batch] at none
  have sound := s.poll present
  rw [polled, handOut, batch] at sound
  exact sound.congr rfl rfl rfl rfl

/-- A hand-out that delivers no item: it leaves the counter and the shared buffer alone, and
parks the consumer only when there is nothing to be found. -/
structure NoItem (f : Feed α) (result : Answer α × Feed α) : Prop where
  nothing : itemsOf (outputs [result.1]) = []
  pending : result.2.pending = f.pending
  shared : result.2.shared = f.shared
  closed : result.2.closed = f.closed
  abandoned : result.2.abandoned = f.abandoned
  drained : result.2.drained = []
  parked : result.2.parked = true → f.parked = true ∨ f.drained = [] ∧ f.closed = false

theorem handOut_noItem (noItem : ∀ a rest, f.drained ≠ .item a :: rest) :
    NoItem f f.handOut := by
  unfold handOut
  split
  · rename_i a rest batch
    exact absurd batch (noItem a rest)
  · exact ⟨rfl, rfl, rfl, rfl, rfl, rfl, .inl⟩
  · rename_i batch
    split
    · exact ⟨rfl, rfl, rfl, rfl, rfl, batch, .inl⟩
    · rename_i isOpen
      exact ⟨rfl, rfl, rfl, rfl, rfl, batch, fun _ => .inr ⟨batch, by simpa using isOpen⟩⟩

theorem consume_attaches (h : f.consume = .ok f') :
    f.attached = false ∧ f' = { f with attached := true } := by
  unfold consume at h
  split at h
  · cases h
  · rename_i free
    cases h
    exact ⟨by simpa using free, rfl⟩

theorem feed_awake {a : α} (h : f.feed a = .ok f') : f'.parked = false := by
  unfold feed at h
  split at h
  · cases h
  · cases h
    rfl

theorem throw_awake {e : Failure} (h : f.throw e = .ok f') : f'.parked = false := by
  unfold throw at h
  split at h
  · cases h
  · cases h
    rfl

namespace Scene

/-- An item that the consumer holds counts as pending. -/
theorem Valid.held {s : Scene α} (v : s.Valid) {a : α} (within : s.within = .holding a) :
    0 < s.feed.pending := by
  have balance := v.balance
  obtain ⟨waiting, same, -⟩ := v.sound.conserved
  simp only [within, Within.handed, Within.coming, List.append_nil] at balance same
  rw [same, itemsOf_append, outputs_append, itemsOf_append, outputs_item] at balance
  simp [itemsOf, Except.toOption] at balance
  omega

theorem start_valid : ({} : Scene α).Valid where
  sound := Sound.start
  balance := rfl
  asleep h := by cases h
  polling h := by cases h
  leaving h := by cases h

/-- The consumer has given the answer that was coming. -/
theorem Valid.answered {s : Scene α} (v : s.Valid) {a : α} (event : Event)
    (coming : s.within.coming = [.item a]) (handed : s.within.handed = [a]) :
    (s.answer (.item a) (s.feed.signal event)).Valid := by
  have same : (s.feed.signal event).backlog = s.feed.backlog ∧
      (s.feed.signal event).pending = s.feed.pending ∧
      (s.feed.signal event).closed = s.feed.closed ∧
      (s.feed.signal event).finished = s.feed.finished ∧
      (s.feed.signal event).abandoned = s.feed.abandoned ∧
      (s.feed.signal event).parked = s.feed.parked := by
    cases event <;> exact ⟨rfl, rfl, rfl, rfl, rfl, rfl⟩
  obtain ⟨backlog, pending, closed, finished, abandoned, parked⟩ := same
  refine ⟨?_, ?_, fun isParked => ?_, nofun, nofun⟩
  · have sound := v.sound
    rw [coming] at sound
    simpa [answer, Within.coming] using sound.congr backlog closed finished abandoned
  · have balance := v.balance
    rw [handed] at balance
    simpa [answer, pending, Within.handed, itemsOf, Except.toOption] using balance
  · have asleep := (v.asleep (parked.symm.trans isParked)).2.2.2
    rw [coming] at asleep
    cases asleep

theorem after_valid {s : Scene α} (v : s.Valid) (act : Act α) : (s.after act).Valid := by
  have outcome := s.after_outcome act
  generalize s.after act = s' at outcome
  have held := @v.held
  have answered := @v.answered
  obtain ⟨sound, balance, asleep, polling, leaving⟩ := v
  cases outcome with
  | refused other => exact ⟨sound, balance, asleep, polling, leaving⟩
  | rested within => exact ⟨sound, balance, asleep, polling, leaving⟩
  | @fed a g h =>
    have abandoned := (feed_ok h).2.2.2.abandoned
    refine ⟨sound.feed h, ?_, fun parked => ?_, fun polls => ?_, fun leaves => ?_⟩
    · have more : (itemsOf (s.accepted ++ [.ok a])).length = (itemsOf s.accepted).length + 1 := by
        rw [itemsOf_append, List.length_append]
        rfl
      have pending := (feed_counts h).1
      simp only [more, pending]
      omega
    · cases parked.symm.trans (feed_awake h)
    · exact abandoned.trans (polling polls)
    · exact abandoned.trans (leaving leaves)
  | @thrown e g h =>
    have abandoned := (throw_ok h).2.2.2.abandoned
    refine ⟨sound.throw h, ?_, fun parked => ?_, fun polls => ?_, fun leaves => ?_⟩
    · have same : itemsOf (s.accepted ++ [.error e]) = itemsOf s.accepted := by
        rw [itemsOf_append]
        exact List.append_nil _
      have pending := (throw_counts h).1
      simp only [same, pending]
      exact balance
    · cases parked.symm.trans (throw_awake h)
    · exact abandoned.trans (polling polls)
    · exact abandoned.trans (leaving leaves)
  | closed => exact ⟨sound.close, balance, nofun, polling, leaving⟩
  | attached h =>
    obtain ⟨-, rfl⟩ := consume_attaches h
    exact ⟨sound.congr rfl rfl rfl rfl, balance, asleep, polling, leaving⟩
  | asked within present =>
    rw [within] at sound balance asleep
    exact ⟨sound, balance, asleep, fun _ => present, nofun⟩
  | raised within present =>
    rw [within] at sound balance asleep
    exact ⟨sound.left rfl rfl id, balance, asleep, nofun, fun _ => rfl⟩
  | late within finished =>
    rw [within] at sound balance asleep polling
    refine ⟨?_, ?_, asleep, nofun, nofun⟩
    · have polled := sound.poll (polling rfl)
      simpa [poll_of_finished finished, answer, Within.coming] using polled
    · simpa [answer, Within.handed] using balance
  | swapped within batch some =>
    refine ⟨sound.refill, ?_, fun parked => ?_, fun polls => ?_, fun leaves => ?_⟩
    · simpa using balance
    · have parked : s.feed.parked = true := by simpa [refill, batch] using parked
      exact absurd (asleep parked).2.1 some
    · exact s.feed.refill_untouched.abandoned.trans (polling polls)
    · exact s.feed.refill_untouched.abandoned.trans (leaving leaves)
  | @took a rest within running batch =>
    rw [within] at sound balance polling
    refine ⟨?_, balance, fun parked => ?_, fun _ => polling rfl, nofun⟩
    · simpa [Within.coming] using sound.took (polling rfl) running batch
    · have none := (asleep parked).1
      rw [batch] at none
      cases none
  | settled within running noItem taken =>
    rw [within] at sound balance polling
    have quiet := handOut_noItem noItem
    refine ⟨?_, ?_, fun parked => ?_, nofun, nofun⟩
    · have polled := sound.poll (polling rfl)
      simpa [poll_taken running taken, answer, Within.coming] using polled
    · simpa [answer, quiet.pending, quiet.nothing, Within.handed] using balance
    · refine ⟨quiet.drained, quiet.shared.trans ?_, quiet.closed.trans ?_, rfl⟩
      · rcases quiet.parked parked with before | ⟨none, -⟩
        · exact (asleep before).2.1
        · exact taken none
      · rcases quiet.parked parked with before | ⟨-, isOpen⟩
        · exact (asleep before).2.2.1
        · exact isOpen
  | @lowered a within =>
    have some := held within
    rw [within] at sound balance asleep polling
    refine ⟨sound.congr rfl rfl rfl rfl, ?_, fun parked => ?_, fun _ => polling rfl,
      nofun⟩
    · simp only [countOut, Within.handed, List.append_nil, List.length_append,
        List.length_singleton] at balance ⊢
      omega
    · cases (asleep parked).2.2.2
  | signalled within more => exact answered .read (by rw [within]; rfl) (by rw [within]; rfl)
  | signalledLast within =>
    rw [within] at sound balance asleep polling
    exact ⟨sound.congr rfl rfl rfl rfl, balance, asleep, polling, nofun⟩
  | emptied within => exact answered .empty (by rw [within]; rfl) (by rw [within]; rfl)
  | leftReads within =>
    rw [within] at sound balance asleep leaving
    exact ⟨sound.congr rfl rfl rfl rfl, balance, asleep, nofun, leaving⟩
  | gone within =>
    rw [within] at sound balance asleep leaving
    refine ⟨sound.left (leaving rfl) rfl fun _ => rfl, balance, fun parked => ?_,
      nofun, nofun⟩
    exact ⟨rfl, (asleep parked).2⟩

theorem run_valid (acts : List (Act α)) : (run acts).Valid := by
  induction acts using List.reverseRecOn with
  | nil => exact start_valid
  | append_singleton acts act ih =>
    rw [run_snoc]
    exact after_valid ih act

end Scene
end PullStream.Feed
