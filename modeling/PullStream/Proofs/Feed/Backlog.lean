import PullStream.Feed
import PullStream.Proofs.Outputs

/-!
The backlog of a feed: what it has accepted and not handed out.

The consumer's batch and the shared buffer are one queue, the batch in front. The
swap that refills the batch does not change that queue, producers work on its end,
and a poll works on its front. Everything else about an operation is what it leaves
alone (`Untouched`).

* `feed_ok`, `throw_ok` — what is accepted is accepted by an open feed, at the end
  of its backlog.
* `refill_backlog` — the swap is invisible.
* `poll_spec` — what a poll comes to, by the front of the backlog.
-/

namespace PullStream.Feed

variable {α : Type}

/-- What an entry delivers. -/
def Entry.output : Feed.Entry α → Except Failure α
  | .item a => .ok a
  | .failure e => .error e

/-- What has been accepted and not handed out, in order. -/
def backlog (f : Feed α) : List (Except Failure α) :=
  (f.drained ++ f.shared).map Entry.output

/-- The two feeds agree on who may use them. -/
structure Untouched (f f' : Feed α) : Prop where
  closed : f'.closed = f.closed
  attached : f'.attached = f.attached
  abandoned : f'.abandoned = f.abandoned

/-- What a producer's call leaves alone: everything that only the consumer changes. -/
structure Produced (f f' : Feed α) : Prop where
  finished : f'.finished = f.finished
  attached : f'.attached = f.attached
  abandoned : f'.abandoned = f.abandoned

theorem Produced.refl (f : Feed α) : Produced f f :=
  ⟨rfl, rfl, rfl⟩

theorem Produced.trans {f g h : Feed α} (first : Produced f g) (second : Produced g h) :
    Produced f h :=
  ⟨second.finished.trans first.finished, second.attached.trans first.attached,
    second.abandoned.trans first.abandoned⟩

/-! ### Producers -/

theorem feed_open {f : Feed α} (isOpen : f.closed = false) (a : α) : ∃ f', f.feed a = .ok f' :=
  ⟨_, if_neg (by simp [isOpen])⟩

theorem feed_ok {f f' : Feed α} {a : α} (h : f.feed a = .ok f') :
    f.closed = false ∧ f'.backlog = f.backlog ++ [.ok a] ∧ f'.closed = f.closed ∧
      Produced f f' := by
  unfold feed at h
  split at h
  · cases h
  · rename_i isOpen
    cases h
    exact ⟨by simpa using isOpen, by simp [backlog, Entry.output], rfl, ⟨rfl, rfl, rfl⟩⟩

theorem feed_closed {f : Feed α} (closed : f.closed = true) (a : α) :
    f.feed a = .error .feedClosed :=
  if_pos closed

theorem throw_open {f : Feed α} (isOpen : f.closed = false) (e : Failure) :
    ∃ f', f.throw e = .ok f' :=
  ⟨_, if_neg (by simp [isOpen])⟩

theorem throw_ok {f f' : Feed α} {e : Failure} (h : f.throw e = .ok f') :
    f.closed = false ∧ f'.backlog = f.backlog ++ [.error e] ∧ f'.closed = true ∧
      Produced f f' := by
  unfold throw at h
  split at h
  · cases h
  · rename_i isOpen
    cases h
    exact ⟨by simpa using isOpen, by simp [backlog, Entry.output], rfl, ⟨rfl, rfl, rfl⟩⟩

theorem throw_closed {f : Feed α} (closed : f.closed = true) (e : Failure) :
    f.throw e = .error .throwClosed :=
  if_pos closed

@[simp] theorem close_backlog (f : Feed α) : f.close.backlog = f.backlog := rfl

@[simp] theorem close_closed (f : Feed α) : f.close.closed = true := rfl

theorem close_produced (f : Feed α) : Produced f f.close :=
  ⟨rfl, rfl, rfl⟩

/-! ### The consumer -/

theorem consume_ok {f f' : Feed α} (h : f.consume = .ok f') :
    f.attached = false ∧ f'.backlog = f.backlog ∧ f'.attached = true ∧ f'.closed = f.closed ∧
      f'.finished = f.finished ∧ f'.abandoned = f.abandoned := by
  unfold consume at h
  split at h
  · cases h
  · rename_i free
    cases h
    exact ⟨by simpa using free, rfl, rfl, rfl, rfl, rfl⟩

/-- Taking the shared buffer changes no place in the queue. -/
@[simp] theorem refill_backlog (f : Feed α) : f.refill.backlog = f.backlog := by
  unfold refill
  split
  · rename_i h
    simp [backlog, List.isEmpty_iff.mp h]
  · rfl

theorem refill_untouched (f : Feed α) : Untouched f f.refill := by
  unfold refill
  split <;> exact ⟨rfl, rfl, rfl⟩

@[simp] theorem refill_finished (f : Feed α) : f.refill.finished = f.finished := by
  unfold refill
  split <;> rfl

/-- After a refill the batch is empty only if the whole backlog is. -/
theorem backlog_of_refill_drained {f : Feed α} (h : f.refill.drained = []) : f.backlog = [] := by
  unfold refill at h
  split at h
  · rename_i empty
    simp [backlog, List.isEmpty_iff.mp empty, show f.shared = [] from h]
  · rename_i nonempty
    simp [h] at nonempty

/-- What a poll comes to, by the front of the backlog. -/
inductive PollSpec (f f' : Feed α) : Answer α → Prop where
  | late : f.finished = true → f' = f → PollSpec f f' .done
  | item {a rest} : f.finished = false → f.backlog = .ok a :: rest → f'.backlog = rest →
      f'.finished = false → PollSpec f f' (.item a)
  | failure {e rest} : f.finished = false → f.backlog = .error e :: rest →
      (rest = [] → f'.backlog = []) → f'.finished = true → PollSpec f f' (.fail e)
  | ended : f.finished = false → f.backlog = [] → f.closed = true → f'.backlog = [] →
      f'.finished = true → PollSpec f f' .done
  | waiting : f.finished = false → f.backlog = [] → f.closed = false → f'.backlog = [] →
      f'.finished = false → PollSpec f f' .wait

theorem poll_spec (f : Feed α) : PollSpec f f.poll.2 f.poll.1 := by
  unfold poll
  split
  · rename_i finished
    exact .late finished rfl
  · rename_i running
    have running : f.finished = false := by simpa using running
    have same := f.refill_backlog
    cases batch : f.refill.drained with
    | nil =>
      have none := backlog_of_refill_drained batch
      have noShared : f.refill.shared = [] := by
        simpa [backlog, batch] using same.trans none
      have closed := f.refill_untouched.closed
      cases h : f.closed with
      | true =>
        simp only [handOut, batch, closed, h, if_true]
        exact .ended running none h (by simp [backlog, noShared]) rfl
      | false =>
        simp only [handOut, batch, closed, h, Bool.false_eq_true, if_false]
        exact .waiting running none h (by simp [backlog, noShared]) (by simp [running])
    | cons entry rest =>
      have front : f.backlog = (entry :: rest ++ f.refill.shared).map Entry.output := by
        rw [← same, backlog, batch]
      cases entry with
      | item a =>
        simp only [handOut, batch]
        exact .item running front rfl (by simp [running])
      | failure e =>
        simp only [handOut, batch]
        refine .failure running front (fun h => ?_) rfl
        have nothing : rest ++ f.refill.shared = [] := List.map_eq_nil_iff.mp h
        simp [backlog, (List.append_eq_nil_iff.mp nothing).2]

theorem poll_of_finished {f : Feed α} (finished : f.finished = true) : f.poll = (.done, f) :=
  if_pos finished

/-- The end is reported by a finished consumer. -/
theorem finished_of_poll_done {f : Feed α} (h : f.poll.1 = .done) : f.poll.2.finished = true := by
  have spec := f.poll_spec
  rw [h] at spec
  cases spec with
  | late finished same => rw [same, finished]
  | ended _ _ _ _ finished => exact finished

theorem finished_of_poll_fail {f : Feed α} {e : Failure} (h : f.poll.1 = .fail e) :
    f.poll.2.finished = true := by
  have spec := f.poll_spec
  rw [h] at spec
  cases spec with
  | failure _ _ _ finished => exact finished

theorem poll_untouched (f : Feed α) : Untouched f f.poll.2 := by
  have frame := f.refill_untouched
  unfold poll
  split
  · exact ⟨rfl, rfl, rfl⟩
  · unfold handOut
    split
    · exact ⟨frame.closed, frame.attached, frame.abandoned⟩
    · exact ⟨frame.closed, frame.attached, frame.abandoned⟩
    · split <;> exact ⟨frame.closed, frame.attached, frame.abandoned⟩

end PullStream.Feed
