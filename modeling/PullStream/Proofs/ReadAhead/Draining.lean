import PullStream.Proofs.Feed.Ledger
import PullStream.Proofs.Machine.Draining
import PullStream.Proofs.ReadAhead

/-!
A read-ahead stage hands on what its pump has got.

The pump asks its source, up to the first failure or the end, and puts everything into its feed in
its turn. So what has arrived from the stage is always a first part of what has arrived from its
source, whoever asked when; in between it is in the feed.

* `reach_fed` — what is in the feed, after any use.
* `arrivals_prefix`, `readAhead_resumable` — what arrives from the stage.
-/

namespace PullStream.ReadAhead

variable {ω α : Type} {source : Machine ω α} {size : Nat} {asked : List (Arrival α)}
  {answers : List (Answer α)} {s : source.State × ReadAhead α}

/-- The pump has got `asked` from its source, the consumer has been given `answers`, and what is
between them is in the feed. The pump goes on as long as more may arrive, and closes the feed when
it has got the last of it. -/
structure Fed (source : Machine ω α) (asked : List (Arrival α)) (answers : List (Answer α))
    (s : source.State × ReadAhead α) : Prop where
  drained : ∃ r, source.Draining r asked ∧
    (s.2.phase ≠ .stopped → r = s.1 ∧ Unended asked ∧ s.2.feed.closed = false)
  sound : Feed.Sound s.2.feed (resultsIn asked) answers
  present : s.2.feed.abandoned = false
  shut : s.2.feed.closed = true → ¬ Unended asked

namespace Fed

theorem start : Fed source [] [] (source.start, { size }) where
  drained := ⟨_, .start, fun _ => ⟨rfl, .nil, rfl⟩⟩
  sound := Feed.Sound.start
  present := rfl
  shut closed := absurd closed (by simp)

/-- A pump that goes on has drained its source up to here. -/
theorem going (fed : Fed source asked answers s) (started : s.2.phase ≠ .stopped) :
    source.Draining s.1 asked ∧ Unended asked ∧ s.2.feed.closed = false := by
  obtain ⟨r, draining, here⟩ := fed.drained
  obtain ⟨rfl, more, isOpen⟩ := here started
  exact ⟨draining, more, isOpen⟩

/-- A pump that goes on asks its source, which has been drained by one more poll then. -/
theorem asks (fed : Fed source asked answers s) (started : s.2.phase ≠ .stopped) {now : Time}
    {w w' : ω} {a : Answer α} {r : source.State} (answer : source.poll s.1 now w = (a, r, w')) :
    source.Draining r (asked ++ a.arrival?.toList) ∧ Unended asked ∧ s.2.feed.closed = false := by
  obtain ⟨draining, more, isOpen⟩ := fed.going started
  have next := draining.poll more now w
  rw [answer] at next
  exact ⟨next, more, isOpen⟩

/-- The pump moves to another place, and its source does not. -/
theorem moved (fed : Fed source asked answers s) (started : s.2.phase ≠ .stopped) (phase : Phase)
    (goesOn : phase ≠ .stopped) :
    Fed source asked answers (settle source s.1 s.2 { s.2 with phase }) := by
  obtain ⟨draining, more, isOpen⟩ := fed.going started
  refine ⟨⟨s.1, draining, fun _ => ⟨?_, more, isOpen⟩⟩, fed.sound, fed.present, fed.shut⟩
  simp [settle, goesOn]

/-- The source has answered with something, and the feed takes it. -/
theorem took (fed : Fed source asked answers s) {a : Arrival α} {r : source.State}
    {p : ReadAhead α} (draining : source.Draining r (asked ++ [a]))
    (sound : Feed.Sound p.feed (resultsIn (asked ++ [a])) answers)
    (abandoned : p.feed.abandoned = s.2.feed.abandoned)
    (goesOn : p.phase ≠ .stopped → Unended (asked ++ [a]) ∧ p.feed.closed = false)
    (shut : p.feed.closed = true → a.isLast = true) :
    Fed source (asked ++ [a]) answers (settle source r s.2 p) := by
  refine ⟨⟨r, draining, fun going => ⟨?_, goesOn going⟩⟩, sound, abandoned.trans fed.present, ?_⟩
  · have going : p.phase ≠ .stopped := going
    simp [settle, going]
  · intro closed more
    have goesOn := more a (by simp)
    rw [shut closed] at goesOn
    cases goesOn

theorem advance (fed : Fed source asked answers s) (now : Time) (w : ω) :
    ∃ asked, Fed source asked answers (advance source s now w).2.1 := by
  have step := advance_cases source s now w
  generalize (ReadAhead.advance source s now w).2.1 = s' at step
  cases step with
  | still => exact ⟨asked, fed⟩
  | surveyed phase =>
    refine ⟨asked, ?_⟩
    unfold survey
    rw [if_neg (by simp [fed.present])]
    split
    · exact fed.moved (by simp [phase]) _ (by simp)
    · exact fed.moved (by simp [phase]) _ (by simp)
  | noticed phase _ => exact ⟨asked, fed.moved (by simp [phase]) _ (by simp)⟩
  | @pulled a r w' phase answer =>
    obtain ⟨next, more, isOpen⟩ := fed.asks (by simp [phase]) answer
    obtain ⟨f, taken⟩ := Feed.feed_open isOpen a
    obtain ⟨-, -, closed, produced⟩ := Feed.feed_ok taken
    have pulled : s.2.pulled a = { s.2 with phase := .surveying, feed := f } := by
      simp [ReadAhead.pulled, taken]
    have sound := fed.sound.feed taken
    rw [pulled]
    refine ⟨_, fed.took next ?_ produced.abandoned (fun _ => ⟨?_, closed.trans isOpen⟩) ?_⟩
    · rwa [resultsIn_append]
    · exact unended_append.mpr ⟨more, by simp [Unended, Arrival.isLast]⟩
    · intro isClosed
      cases (closed.trans isOpen).symm.trans isClosed
  | @failed e r w' phase answer =>
    obtain ⟨next, more, isOpen⟩ := fed.asks (by simp [phase]) answer
    obtain ⟨f, thrown⟩ := Feed.throw_open isOpen e
    obtain ⟨-, -, closed, produced⟩ := Feed.throw_ok thrown
    have pulled : s.2.pulledFailure e = { s.2 with phase := .stopped, feed := f } := by
      simp [ReadAhead.pulledFailure, thrown]
    have sound := fed.sound.throw thrown
    rw [pulled]
    refine ⟨_, fed.took next ?_ produced.abandoned (fun going => absurd rfl going) fun _ => rfl⟩
    rwa [resultsIn_append]
  | @ended r w' phase answer =>
    obtain ⟨next, more, isOpen⟩ := fed.asks (by simp [phase]) answer
    refine ⟨_, fed.took next ?_ rfl (fun going => absurd rfl going) fun _ => rfl⟩
    rw [resultsIn_append, resultsIn_ended, List.append_nil]
    exact fed.sound.close
  | @broke message r w' phase answer =>
    obtain ⟨draining, more, isOpen⟩ := fed.going (by simp [phase])
    exact ⟨asked, ⟨s.1, draining, fun going => absurd rfl going⟩, fed.sound, fed.present, fed.shut⟩
  | @asked g r w' phase answer notFail notDone =>
    obtain ⟨next, more, isOpen⟩ := fed.asks (by simp [phase]) answer
    refine ⟨asked, ⟨r, ?_, fun _ => ⟨rfl, more, isOpen⟩⟩, fed.sound, fed.present, fed.shut⟩
    rwa [Answer.arrival?_signal notFail notDone, Option.toList_none, List.append_nil] at next

theorem poll (fed : Fed source asked answers s) :
    Fed source asked (answers ++ [s.2.poll.1]) (s.1, s.2.poll.2) := by
  unfold ReadAhead.poll
  split
  · rename_i idle
    obtain ⟨draining, more, isOpen⟩ := fed.going (by simp [idle])
    exact ⟨⟨s.1, draining, fun _ => ⟨rfl, more, isOpen⟩⟩, fed.sound.skip, fed.present, fed.shut⟩
  · have untouched := s.2.feed.poll_untouched
    obtain ⟨r, draining, here⟩ := fed.drained
    refine ⟨⟨r, draining, fun going => ?_⟩, fed.sound.poll fed.present,
      untouched.abandoned.trans fed.present, fun closed => fed.shut (untouched.closed ▸ closed)⟩
    obtain ⟨same, more, isOpen⟩ := here going
    exact ⟨same, more, untouched.closed.trans isOpen⟩

end Fed

theorem reach_fed {t : (source.readAhead size).State} {answers : List (Answer α)}
    (reached : (source.readAhead size).Reach t answers) :
    ∃ asked, Fed source asked answers t.1 := by
  induction reached with
  | start => exact ⟨[], .start⟩
  | poll _ now w ih =>
    obtain ⟨asked, fed⟩ := ih
    exact ⟨asked, fed.poll⟩
  | @tick t answers _ now w ih =>
    refine Turn.step_preserves (fun s => ∃ asked, Fed source asked answers s) ?_ ?_ t.2 t.1 w ih
    · rintro s w ⟨asked, ⟨r, draining, here⟩, sound, present, shut⟩
      by_cases started : s.2.phase = .stopped
      · exact ⟨asked, ⟨r, draining, fun going => absurd started going⟩, sound, present, shut⟩
      · obtain ⟨rfl, more, isOpen⟩ := here started
        exact ⟨asked, ⟨_, draining.tick now w, fun _ => ⟨rfl, more, isOpen⟩⟩, sound, present, shut⟩
    · rintro s w ⟨asked, fed⟩
      exact fed.advance now w

/-- What has arrived from the stage is a first part of what has arrived from its source. -/
theorem arrivals_prefix {t : (source.readAhead size).State} {as : List (Arrival α)}
    (draining : (source.readAhead size).Draining t as) :
    ∃ r asked, source.Draining r asked ∧ as <+: asked := by
  have front := draining.unended_dropLast
  obtain ⟨answers, reached, rfl⟩ := draining.reach
  obtain ⟨asked, fed⟩ := reach_fed reached
  obtain ⟨r, below, -⟩ := fed.drained
  refine ⟨r, asked, below, prefix_of_resultsIn front below.unended_dropLast ?_ ?_⟩
  · rw [resultsIn_arrivals]
    exact fed.sound.outputs_prefix
  · intro ended
    obtain ⟨-, closed, all⟩ := fed.sound.ended (ended_mem_arrivals.mp ended)
    rw [resultsIn_arrivals]
    exact ⟨all, fed.shut closed⟩

end PullStream.ReadAhead

namespace PullStream

theorem Machine.readAhead_resumable {ω α : Type} {source : Machine ω α}
    (resumable : source.Resumable) (size : Nat) : (source.readAhead size).Resumable := by
  intro t as t' as' draining draining'
  obtain ⟨r, asked, below, first⟩ := ReadAhead.arrivals_prefix draining
  obtain ⟨r', asked', below', first'⟩ := ReadAhead.arrivals_prefix draining'
  rcases resumable below below' with ahead | behind
  · exact List.prefix_or_prefix_of_prefix (first.trans ahead) first'
  · exact List.prefix_or_prefix_of_prefix first (first'.trans behind)

end PullStream
