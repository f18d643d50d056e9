import Mathlib.Data.List.Induction
import PullStream.Proofs.Feed.Backlog

/-!
The ledger of a feed: what producers have put in and what the consumer got out.

`Sound` relates a feed to the list of what it has accepted and to the answers its
consumer has had. It is kept by every operation, so it holds after every history
of calls, whoever makes them and in whatever order (`Ledger.run_valid`). The swap of
the shared buffer and the hand-out of its first entry are separate calls, so that
producers may act in between.

* `Sound.conserved` — deliveries, then backlog, is what was accepted.
* `Sound.terminal`, `Sound.shut` — a failure is the last thing a feed accepts.
* `Ledger.run_valid` — a feed is sound after every history of calls.
* `lossless_fifo` — the contract of a feed, spelled out.
-/

namespace PullStream.Feed

variable {α : Type} {f f' : Feed α} {accepted : List (Except Failure α)}
  {answers : List (Answer α)}

/-! ### The invariant -/

/-- The feed `f` has accepted `accepted`, and its consumer has been given
`answers`. After the drop of the consumer only the past is spoken of. -/
structure Sound (f : Feed α) (accepted : List (Except Failure α))
    (answers : List (Answer α)) : Prop where
  conserved : ∃ waiting, accepted = outputs answers ++ waiting ∧
    (f.abandoned = false → f.backlog = waiting)
  terminal : ∀ e, .error e ∉ accepted.dropLast
  shut : ∀ e, .error e ∈ accepted → f.closed = true
  settled : f.abandoned = false → f.finished = true → f.closed = true ∧ f.backlog = []
  ended : .done ∈ answers → f.finished = true ∧ f.closed = true ∧ outputs answers = accepted
  failed : ∀ e, .fail e ∈ answers → f.finished = true

namespace Sound

theorem start : Sound ({} : Feed α) [] [] where
  conserved := ⟨[], rfl, fun _ => rfl⟩
  terminal _ := List.not_mem_nil
  shut _ h := absurd h List.not_mem_nil
  settled _ h := absurd h (by simp)
  ended h := absurd h List.not_mem_nil
  failed _ h := absurd h List.not_mem_nil

/-- What has been delivered is a first part of what was accepted. -/
theorem outputs_prefix (s : Sound f accepted answers) : outputs answers <+: accepted := by
  obtain ⟨waiting, same, -⟩ := s.conserved
  exact ⟨waiting, same.symm⟩

/-- An open feed has accepted items only. -/
theorem error_not_mem (s : Sound f accepted answers) (isOpen : f.closed = false) (e : Failure) :
    .error e ∉ accepted := by
  intro member
  exact absurd (s.shut e member) (by simp [isOpen])

/-- A failure that has been delivered came last, and nothing came after it. -/
theorem failure_last (s : Sound f accepted answers) {before after : List (Answer α)} {e : Failure}
    (same : answers = before ++ .fail e :: after) :
    accepted = outputs before ++ [.error e] ∧ outputs after = [] := by
  obtain ⟨waiting, split, -⟩ := s.conserved
  have split : accepted = outputs before ++ .error e :: (outputs after ++ waiting) := by
    rw [split, same, ← List.singleton_append, outputs_append, outputs_append, outputs_fail]
    simp
  cases rest : outputs after ++ waiting with
  | nil => exact ⟨by rw [split, rest], (List.append_eq_nil_iff.mp rest).1⟩
  | cons r rs =>
    refine absurd ?_ (s.terminal e)
    rw [split, rest, List.dropLast_append_of_ne_nil (List.cons_ne_nil _ _)]
    simp

/-- While its consumer is there, only a closed feed is finished. -/
theorem running (s : Sound f accepted answers) (present : f.abandoned = false)
    (isOpen : f.closed = false) : f.finished = false := by
  cases finished : f.finished with
  | false => rfl
  | true => exact absurd (s.settled present finished).1 (by simp [isOpen])

/-! ### Producers -/

theorem feed (s : Sound f accepted answers) {a : α} (h : f.feed a = .ok f') :
    Sound f' (accepted ++ [.ok a]) answers := by
  obtain ⟨isOpen, backlog, -, finished, -, abandoned⟩ := feed_ok h
  obtain ⟨waiting, same, queue⟩ := s.conserved
  have items := s.error_not_mem isOpen
  refine ⟨⟨waiting ++ [.ok a], ?_, fun present => ?_⟩, fun e => ?_, fun e member => ?_,
    fun present isOver => ?_, fun member => ?_, fun e member => ?_⟩
  · rw [same, List.append_assoc]
  · rw [backlog, queue (abandoned ▸ present)]
  · rw [List.dropLast_concat]
    exact items e
  · exact absurd member (by simpa using items e)
  · rw [finished, s.running (abandoned ▸ present) isOpen] at isOver
    cases isOver
  · exact absurd (s.ended member).2.1 (by simp [isOpen])
  · exact finished ▸ s.failed e member

theorem throw (s : Sound f accepted answers) {e : Failure} (h : f.throw e = .ok f') :
    Sound f' (accepted ++ [.error e]) answers := by
  obtain ⟨isOpen, backlog, closed, finished, -, abandoned⟩ := throw_ok h
  obtain ⟨waiting, same, queue⟩ := s.conserved
  refine ⟨⟨waiting ++ [.error e], ?_, fun present => ?_⟩, fun e' => ?_, fun _ _ => closed,
    fun present isOver => ?_, fun member => ?_, fun e' member => ?_⟩
  · rw [same, List.append_assoc]
  · rw [backlog, queue (abandoned ▸ present)]
  · rw [List.dropLast_concat]
    exact s.error_not_mem isOpen e'
  · rw [finished, s.running (abandoned ▸ present) isOpen] at isOver
    cases isOver
  · exact absurd (s.ended member).2.1 (by simp [isOpen])
  · exact finished ▸ s.failed e' member

theorem close (s : Sound f accepted answers) : Sound f.close accepted answers where
  conserved := s.conserved
  terminal := s.terminal
  shut _ _ := rfl
  settled present isOver := ⟨rfl, (s.settled present isOver).2⟩
  ended member := ⟨(s.ended member).1, rfl, (s.ended member).2.2⟩
  failed := s.failed

/-! ### The consumer -/

/-- The invariant reads a feed through its backlog and its flags only. -/
theorem congr (s : Sound f accepted answers) (backlog : f'.backlog = f.backlog)
    (closed : f'.closed = f.closed) (finished : f'.finished = f.finished)
    (abandoned : f'.abandoned = f.abandoned) : Sound f' accepted answers := by
  obtain ⟨conserved, terminal, shut, settled, ended, failed⟩ := s
  exact ⟨by rwa [backlog, abandoned], terminal, by rwa [closed],
    by rwa [backlog, closed, finished, abandoned], by rwa [closed, finished], by rwa [finished]⟩

theorem refill (s : Sound f accepted answers) : Sound f.refill accepted answers :=
  s.congr f.refill_backlog f.refill_untouched.closed f.refill_finished f.refill_untouched.abandoned

theorem drop (s : Sound f accepted answers) : Sound f.drop accepted answers where
  conserved := by
    obtain ⟨waiting, same, -⟩ := s.conserved
    exact ⟨waiting, same, fun present => absurd present (by simp [Feed.drop])⟩
  terminal := s.terminal
  shut := s.shut
  settled present := absurd present (by simp [Feed.drop])
  ended member := ⟨rfl, (s.ended member).2⟩
  failed _ _ := rfl

/-- An answer that delivers nothing and does not end changes no book. -/
theorem skip (s : Sound f accepted answers) : Sound f accepted (answers ++ [.skip]) := by
  have deliveries : outputs (answers ++ [.skip]) = outputs answers := by
    rw [outputs_append, outputs_skip, List.append_nil]
  obtain ⟨conserved, terminal, shut, settled, ended, failed⟩ := s
  refine ⟨by rwa [deliveries], terminal, shut, settled, fun member => ?_, fun e member => ?_⟩
  · have old : .done ∈ answers := by simpa using member
    rw [deliveries]
    exact ended old
  · have old : .fail e ∈ answers := by simpa using member
    exact failed e old

theorem poll (s : Sound f accepted answers) (present : f.abandoned = false) :
    Sound f.poll.2 accepted (answers ++ [f.poll.1]) := by
  have frame := f.poll_untouched
  have spec := f.poll_spec
  generalize f.poll = result at frame spec
  obtain ⟨answer, f'⟩ := result
  obtain ⟨waiting, same, queue⟩ := s.conserved
  have queue := queue present
  have closed : f'.closed = f.closed := frame.closed
  cases spec with
  | late finished unchanged =>
    obtain ⟨isClosed, empty⟩ := s.settled present finished
    have all : outputs answers = accepted := by rw [same, ← queue, empty, List.append_nil]
    cases unchanged
    refine ⟨⟨waiting, by simpa using same, fun _ => queue⟩, s.terminal, s.shut, s.settled,
      fun _ => ⟨finished, isClosed, by simpa using all⟩, fun _ _ => finished⟩
  | @item a rest running front backlog going =>
    have noEnd : ∀ b ∈ answers ++ [.item a], b ≠ .done ∧ ∀ e, b ≠ .fail e := by
      intro b member
      rcases List.mem_append.mp member with old | new
      · exact ⟨fun h => absurd (s.ended (h ▸ old)).1 (by simp [running]),
          fun e h => absurd (s.failed e (h ▸ old)) (by simp [running])⟩
      · simp [List.mem_singleton.mp new]
    refine ⟨⟨rest, ?_, fun _ => backlog⟩, s.terminal, fun e member => closed ▸ s.shut e member,
      fun _ isOver => absurd (going.symm.trans isOver) Bool.false_ne_true,
      fun member => absurd rfl (noEnd _ member).1,
      fun e member => absurd rfl ((noEnd _ member).2 e)⟩
    rw [same, ← queue, front, outputs_append, outputs_item]
    simp
  | @failure e rest running front backlog isOver =>
    have isClosed : f.closed = true := s.shut e (by rw [same, ← queue, front]; simp)
    have last : rest = [] := by
      cases rest with
      | nil => rfl
      | cons r rs =>
        refine absurd ?_ (s.terminal e)
        rw [same, ← queue, front, List.dropLast_append_of_ne_nil (List.cons_ne_nil _ _)]
        simp
    refine ⟨⟨[], ?_, fun _ => backlog last⟩, s.terminal, fun _ _ => closed.trans isClosed,
      fun _ _ => ⟨closed.trans isClosed, backlog last⟩, fun member => ?_, fun _ _ => isOver⟩
    · rw [same, ← queue, front, last, outputs_append, outputs_fail, List.append_nil]
    · have old : .done ∈ answers := by simpa using member
      exact absurd (s.ended old).1 (by simp [running])
  | ended running none isClosed backlog isOver =>
    have all : outputs answers = accepted := by rw [same, ← queue, none, List.append_nil]
    exact ⟨⟨[], by simp [all], fun _ => backlog⟩, s.terminal, fun _ _ => closed.trans isClosed,
      fun _ _ => ⟨closed.trans isClosed, backlog⟩,
      fun _ => ⟨isOver, closed.trans isClosed, by simpa using all⟩, fun _ _ => isOver⟩
  | waiting running none isOpen backlog going =>
    have all : outputs answers = accepted := by rw [same, ← queue, none, List.append_nil]
    refine ⟨⟨[], by simp [all], fun _ => backlog⟩, s.terminal,
      fun e member => closed ▸ s.shut e member,
      fun _ isOver => absurd (going.symm.trans isOver) Bool.false_ne_true, fun member => ?_,
      fun e member => ?_⟩
    · have old : .done ∈ answers := by simpa using member
      exact absurd (s.ended old).1 (by simp [running])
    · have old : .fail e ∈ answers := by simpa using member
      exact absurd (s.failed e old) (by simp [running])

end Sound

/-! ### Histories -/

/-- What may happen to a feed. The producers' calls may come from any handle. -/
inductive Call (α : Type) where
  | feed (value : α)
  | throw (failure : Failure)
  | close
  | consume
  /-- The consumer takes the shared buffer. -/
  | refill
  /-- The consumer is asked for an item. -/
  | poll
  /-- The consumer is dropped. -/
  | drop

/-- A feed with its books. -/
structure Ledger (α : Type) where
  feed : Feed α := {}
  /-- What was accepted, in the order of acceptance. -/
  accepted : List (Except Failure α) := []
  /-- What the consumer was answered. -/
  answers : List (Answer α) := []
  /-- How many calls have attached a consumer. -/
  attachments : Nat := 0

namespace Ledger

/-- Whether there is a consumer now. -/
def attended (s : Ledger α) : Bool :=
  s.feed.attached && !s.feed.abandoned

/-- One call, with the books kept. The consumer's calls need a consumer. -/
def after (s : Ledger α) : Call α → Ledger α
  | .feed a =>
    match s.feed.feed a with
    | .ok f => { s with feed := f, accepted := s.accepted ++ [.ok a] }
    | .error _ => s
  | .throw e =>
    match s.feed.throw e with
    | .ok f => { s with feed := f, accepted := s.accepted ++ [.error e] }
    | .error _ => s
  | .close => { s with feed := s.feed.close }
  | .consume =>
    match s.feed.consume with
    | .ok f => { s with feed := f, attachments := s.attachments + 1 }
    | .error _ => s
  | .refill => if s.attended then { s with feed := s.feed.refill } else s
  | .poll =>
    if s.attended then
      { s with feed := s.feed.poll.2, answers := s.answers ++ [s.feed.poll.1] }
    else s
  | .drop => if s.attended then { s with feed := s.feed.drop } else s

/-- A history of calls on a new feed. -/
def run (calls : List (Call α)) : Ledger α :=
  calls.foldl after {}

/-- What a call comes to: nothing, or one operation that went through. -/
inductive Outcome (s : Ledger α) : Ledger α → Prop where
  | refused : Outcome s s
  | fed {a g} : s.feed.feed a = .ok g →
      Outcome s { s with feed := g, accepted := s.accepted ++ [.ok a] }
  | thrown {e g} : s.feed.throw e = .ok g →
      Outcome s { s with feed := g, accepted := s.accepted ++ [.error e] }
  | closed : Outcome s { s with feed := s.feed.close }
  | attached {g} : s.feed.consume = .ok g →
      Outcome s { s with feed := g, attachments := s.attachments + 1 }
  | refilled : Outcome s { s with feed := s.feed.refill }
  | polled : s.feed.abandoned = false →
      Outcome s { s with feed := s.feed.poll.2, answers := s.answers ++ [s.feed.poll.1] }
  | dropped : Outcome s { s with feed := s.feed.drop }

theorem attended_present {s : Ledger α} (h : s.attended = true) : s.feed.abandoned = false := by
  have both : s.feed.attached = true ∧ s.feed.abandoned = false := by simpa [attended] using h
  exact both.2

theorem after_outcome (s : Ledger α) (call : Call α) : Outcome s (s.after call) := by
  cases call with
  | feed a =>
    simp only [after]
    split
    · rename_i f h
      exact .fed h
    · exact .refused
  | throw e =>
    simp only [after]
    split
    · rename_i f h
      exact .thrown h
    · exact .refused
  | close => exact .closed
  | consume =>
    simp only [after]
    split
    · rename_i f h
      exact .attached h
    · exact .refused
  | refill =>
    simp only [after]
    split
    · exact .refilled
    · exact .refused
  | poll =>
    simp only [after]
    split
    · rename_i h
      exact .polled (attended_present h)
    · exact .refused
  | drop =>
    simp only [after]
    split
    · exact .dropped
    · exact .refused

/-- The books are right, and the feed has had one consumer at most. -/
structure Valid (s : Ledger α) : Prop where
  sound : Sound s.feed s.accepted s.answers
  booked : s.attachments = s.feed.attached.toNat

theorem after_valid {s : Ledger α} (v : s.Valid) (call : Call α) : (s.after call).Valid := by
  obtain ⟨sound, booked⟩ := v
  have outcome := s.after_outcome call
  generalize s.after call = s' at outcome
  cases outcome with
  | refused => exact ⟨sound, booked⟩
  | fed h => exact ⟨sound.feed h, booked.trans (congrArg _ (feed_ok h).2.2.2.attached.symm)⟩
  | thrown h => exact ⟨sound.throw h, booked.trans (congrArg _ (throw_ok h).2.2.2.attached.symm)⟩
  | closed => exact ⟨sound.close, booked⟩
  | attached h =>
    obtain ⟨free, backlog, attached, closed, finished, abandoned⟩ := consume_ok h
    exact ⟨sound.congr backlog closed finished abandoned, by simp [booked, free, attached]⟩
  | refilled =>
    exact ⟨sound.refill, booked.trans (congrArg _ s.feed.refill_untouched.attached.symm)⟩
  | polled present =>
    exact ⟨sound.poll present, booked.trans (congrArg _ s.feed.poll_untouched.attached.symm)⟩
  | dropped => exact ⟨sound.drop, booked⟩

theorem run_snoc (calls : List (Call α)) (call : Call α) :
    run (calls ++ [call]) = (run calls).after call := by
  rw [run, List.foldl_append, ← run, List.foldl_cons, List.foldl_nil]

theorem run_valid (calls : List (Call α)) : (run calls).Valid := by
  -- From the end of the history, so that one more call is one more step.
  induction calls using List.reverseRecOn with
  | nil => exact ⟨Sound.start, rfl⟩
  | append_singleton calls call ih =>
    rw [run_snoc]
    exact after_valid ih call

/-- No call opens a closed feed. -/
theorem after_closed {s : Ledger α} (closed : s.feed.closed = true) (call : Call α) :
    (s.after call).feed.closed = true := by
  have outcome := s.after_outcome call
  generalize s.after call = s' at outcome
  cases outcome with
  | refused => exact closed
  | fed h => exact absurd (feed_ok h).1 (by simp [closed])
  | thrown h => exact (throw_ok h).2.2.1
  | closed => rfl
  | attached h => exact (consume_ok h).2.2.2.1.trans closed
  | refilled => exact s.feed.refill_untouched.closed.trans closed
  | polled _ => exact s.feed.poll_untouched.closed.trans closed
  | dropped => exact closed

theorem run_closed {calls : List (Call α)} (closed : (run calls).feed.closed = true)
    (more : List (Call α)) : (run (calls ++ more)).feed.closed = true := by
  induction more using List.reverseRecOn with
  | nil => simpa using closed
  | append_singleton more call ih =>
    rw [← List.append_assoc, run_snoc]
    exact after_closed ih call

/-- A closed feed refuses an item, and nothing about it changes. -/
theorem after_feed_closed {s : Ledger α} (closed : s.feed.closed = true) (a : α) :
    s.after (.feed a) = s := by
  simp only [after, feed_closed closed]

/-- A closed feed refuses a failure, and nothing about it changes. -/
theorem after_throw_closed {s : Ledger α} (closed : s.feed.closed = true) (e : Failure) :
    s.after (.throw e) = s := by
  simp only [after, throw_closed closed]

end Ledger

/-! ### The contract -/

/-- A feed is a lossless queue with a terminal close, after every history of calls. -/
theorem lossless_fifo (calls : List (Call α)) :
    let s := Ledger.run calls
    -- deliveries, batch and shared buffer make up what was accepted, in that order
    (s.feed.abandoned = false →
      outputs s.answers ++ s.feed.drained.map Entry.output ++ s.feed.shared.map Entry.output =
        s.accepted) ∧
    -- a failure is delivered once, behind all that was accepted, and is the last delivery
    (∀ before e after, s.answers = before ++ .fail e :: after →
      s.accepted = outputs before ++ [.error e] ∧ outputs after = []) ∧
    -- the end is reported when the feed is closed and everything has been handed out
    (.done ∈ s.answers → s.feed.closed = true ∧ outputs s.answers = s.accepted) ∧
    (∀ e, .done ∈ s.answers ∨ .fail e ∈ s.answers → s.feed.poll.1 = .done) ∧
    -- a closed feed stays closed and refuses, unchanged
    (s.feed.closed = true →
      (∀ more, (Ledger.run (calls ++ more)).feed.closed = true) ∧
      (∀ a, ∃ r, s.feed.feed a = .error r ∧ r.kind = .feedClosed ∧ s.after (.feed a) = s) ∧
      (∀ e, ∃ r, s.feed.throw e = .error r ∧ r.kind = .feedClosed ∧ s.after (.throw e) = s)) ∧
    s.attachments ≤ 1 := by
  intro s
  obtain ⟨sound, booked⟩ := Ledger.run_valid calls
  refine ⟨fun present => ?_, fun before e after same => sound.failure_last same,
    fun member => (sound.ended member).2, fun e isOver => ?_,
    fun closed => ⟨?_, fun a => ?_, fun e => ?_⟩, ?_⟩
  · obtain ⟨waiting, same, queue⟩ := sound.conserved
    rw [same, ← queue present, backlog, List.map_append, List.append_assoc]
  · have finished : s.feed.finished = true := by
      rcases isOver with done | failed
      · exact (sound.ended done).1
      · exact sound.failed e failed
    rw [poll, if_pos finished]
  · exact Ledger.run_closed closed
  · exact ⟨_, feed_closed closed a, rfl, Ledger.after_feed_closed closed a⟩
  · exact ⟨_, throw_closed closed e, rfl, Ledger.after_throw_closed closed e⟩
  · rw [booked]
    exact Bool.toNat_le _

end PullStream.Feed
