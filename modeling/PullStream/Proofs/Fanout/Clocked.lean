import PullStream.Proofs.Fanout
import PullStream.Proofs.Fanout.Pace

/-!
A fan-out over a machine follows a course.

A hub is used by asking and dropping its outputs and by steps of its background work, in any
order, at any instants and in any worlds (`Hub.Reach`); an output that has been dropped is not
used again. Whatever the outputs of a fan-out are used for, a course may do, with the same
feeds and the same answers, and what the source has said in the course its machine has
answered.

* `Hub.Reach` — uses of a hub.
* `Fanout.Follows` — the relation, `Fanout.reach_follows` for every use.
-/

namespace PullStream

variable {ω α : Type}

/-- A state that uses of a hub lead to, with the answers at each output, and the outputs that
have been dropped. -/
inductive Hub.Reach (hub : Hub ω α) : hub.State → (Nat → List (Answer α)) → (Nat → Bool) → Prop
  where
  | start : Reach hub hub.start (fun _ => []) fun _ => false
  | poll {s answers gone k} : Reach hub s answers gone → k < hub.outputs → gone k = false →
      ∀ now w, Reach hub (hub.poll k s now w).2.1
        (Function.update answers k (answers k ++ [(hub.poll k s now w).1])) gone
  | tick {s answers gone} : Reach hub s answers gone → ∀ now w,
      Reach hub (hub.tick s now w).2.1 answers gone
  | drop {s answers gone k} : Reach hub s answers gone → k < hub.outputs → gone k = false →
      Reach hub (hub.drop k s) answers (Function.update gone k true)

namespace Fanout

variable {source : Machine ω α} {count buffer : Nat} {answers : Nat → List (Answer α)}
  {gone : Nat → Bool} {s : source.State × Fanout α}

/-- The fan-out `s` over `source` whose outputs have been given `answers` is that of a course
`c`. What the source has said there it has answered when it was asked; it is not asked any more
when the pump has stopped. -/
structure Tracks (source : Machine ω α) (count buffer : Nat) (answers : Nat → List (Answer α))
    (s : source.State × Fanout α) (c : Course α) : Prop where
  reached : c.Reaches count buffer
  fanout : c.fanout = s.2
  answers : c.answers = answers
  resting : c.stage = .resting
  asked : ∃ replies r, source.Reach r replies ∧ outputs replies = c.told ∧
    (c.ended = true → .done ∈ replies) ∧ (s.2.phase ≠ .stopped → s.1 = r)

/-- Such a course, and which outputs have been dropped. -/
structure Follows (source : Machine ω α) (count buffer : Nat) (answers : Nat → List (Answer α))
    (gone : Nat → Bool) (s : source.State × Fanout α) : Prop where
  course : ∃ c : Course α, Tracks source count buffer answers s c
  gone : ∀ (k : Nat) f, s.2.feeds[k]? = some f → f.abandoned = gone k

namespace Tracks

variable {c : Course α}

/-- The pump goes on as in the course, and its source is left alone. -/
theorem works {c' : Course α} (t : Tracks source count buffer answers s c)
    (reached : c'.Reaches count buffer) (answers' : c'.answers = c.answers)
    (stage : c'.stage = .resting) (told : c'.told = c.told) (ended : c'.ended = c.ended)
    (running : s.2.phase ≠ .stopped) {p : Fanout α} (fanout : c'.fanout = p) :
    Tracks source count buffer answers (settle source s.1 s.2 p) c' := by
  obtain ⟨replies, r, used, same, complete, there⟩ := t.asked
  refine ⟨reached, fanout, answers'.trans t.answers, stage, replies, r, used, told ▸ same,
    ended ▸ complete, fun going => ?_⟩
  have going : p.phase ≠ .stopped := going
  simpa [settle, going] using there running

/-- The source has been asked. -/
theorem replied {c' : Course α} (t : Tracks source count buffer answers s c)
    (phase : s.2.phase = .pulling) {now : Time} {w w' : ω} {a : Answer α} {r : source.State}
    (asked : source.poll s.1 now w = (a, r, w')) (reached : c'.Reaches count buffer)
    (answers' : c'.answers = c.answers) (stage : c'.stage = .resting)
    (told : c'.told = c.told ++ a.output?.toList)
    (ended : c'.ended = true → a = .done ∨ c.ended = true)
    {s' : source.State × Fanout α} (fanout : c'.fanout = s'.2)
    (state : s'.2.phase ≠ .stopped → s'.1 = r) :
    Tracks source count buffer answers s' c' := by
  obtain ⟨replies, r', used, same, before, there⟩ := t.asked
  have here : s.1 = r' := there (by simp [phase])
  have next := (here ▸ used).poll now w
  rw [asked] at next
  refine ⟨reached, fanout, answers'.trans t.answers, stage, _, _, next, ?_, fun complete => ?_,
    state⟩
  · rw [outputs_append, outputs_singleton, same, told]
  · rcases ended complete with rfl | already
    · simp
    · exact List.mem_append_left _ (before already)

/-- The source has said something, and the outputs have got it. -/
theorem answered (t : Tracks source count buffer answers s c) (phase : s.2.phase = .pulling)
    {now : Time} {w w' : ω} {a : Answer α} {r : source.State}
    (asked : source.poll s.1 now w = (a, r, w')) (said : Option (Except Failure α))
    (delivered : a.output? = said) (last : said = none → a = .done) :
    ∃ c', Tracks source count buffer answers (settle source r s.2 (s.2.answered said)) c' := by
  have pulling : c.fanout.phase = .pulling := t.fanout ▸ phase
  refine ⟨_, t.replied phase asked (t.reached.answered t.resting pulling said) rfl t.resting ?_ ?_
    ?_ ?_⟩
  · rw [Course.told, Course.told, delivered, t.resting]
    simp [Stage.saying]
  · intro complete
    exact .inl (last (Option.isNone_iff_eq_none.mp complete))
  · rw [t.fanout]
    rfl
  · intro going
    have going : (s.2.answered said).phase ≠ .stopped := going
    simp [settle, going]

theorem advance (t : Tracks source count buffer answers s c) (now : Time) (w : ω) :
    ∃ c', Tracks source count buffer answers (Fanout.advance source s now w).2.1 c' := by
  have step := advance_cases source s now w
  generalize (Fanout.advance source s now w).2.1 = s' at step
  have fanout := t.fanout
  cases step with
  | still => exact ⟨c, t⟩
  | checked phase =>
    have checked := t.reached.checked t.resting (fanout ▸ phase)
    refine ⟨_, t.works checked rfl t.resting rfl rfl (by simp [phase]) ?_⟩
    rw [fanout]
  | @noticed k read phase resolved =>
    have waiting : c.fanout.phase = .waiting k read := fanout ▸ phase
    obtain ⟨-, f, there, -⟩ := t.reached.watched.waiting waiting
    have woken : read.resolved f = true := by
      rw [← fanout, there] at resolved
      exact resolved
    have noticed := t.reached.works (.notice t.resting waiting there woken)
    refine ⟨_, t.works noticed rfl rfl ?_ rfl (by simp [phase]) ?_⟩
    · rw [Course.told_quiet rfl, Course.told_quiet (by rw [t.resting]; rfl)]
      rfl
    · rw [← fanout]
      rfl
  | pulled phase asked => exact t.answered phase asked (some (.ok _)) rfl (by simp)
  | failed phase asked => exact t.answered phase asked (some (.error _)) rfl (by simp)
  | ended phase asked => exact t.answered phase asked none rfl fun _ => rfl
  | @broke message r w' phase asked =>
    have broke := t.reached.step (.meets (.broke t.resting (fanout ▸ phase)))
    refine ⟨_, t.replied phase asked broke rfl rfl ?_ .inr ?_ ?_⟩
    · rw [Course.told_quiet rfl, Course.told_quiet (by rw [t.resting]; rfl)]
      simp [Course.moved, Answer.output?]
    · rw [← fanout]
      rfl
    · exact fun going => absurd rfl going
  | @asked g r w' phase asked notFail _ =>
    refine ⟨c, t.replied phase asked t.reached rfl t.resting ?_ .inr fanout fun _ => rfl⟩
    rw [Answer.output?_signal notFail]
    simp

/-- A pump without a step to take can do nothing by itself in the course, and if it has asked its
source, this waits. -/
theorem blocked (t : Tracks source count buffer answers s c) (now : Time) (w : ω)
    (blocked : (Fanout.advance source s now w).1 = .blocked) :
    (∀ c', ¬ Course.Works c c') ∧
      (s.2.phase = .pulling → (source.poll s.1 now w).1 = .wait) := by
  obtain ⟨r, p⟩ := s
  have fanout : c.fanout = p := t.fanout
  cases phase : p.phase with
  | idle =>
    exact ⟨Course.still_of_resting t.resting (by simp [fanout, phase]) (by simp [fanout, phase]),
      by simp⟩
  | stopped =>
    exact ⟨Course.still_of_resting t.resting (by simp [fanout, phase]) (by simp [fanout, phase]),
      by simp⟩
  | checking k => simp [Fanout.advance, phase] at blocked
  | waiting k read =>
    subst fanout
    obtain ⟨-, f, there, -⟩ := t.reached.watched.waiting phase
    cases woken : read.resolved f with
    | true => simp [Fanout.advance, phase, there, woken] at blocked
    | false => exact ⟨Course.still_of_waiting t.resting phase there woken, by simp⟩
  | pulling =>
    refine ⟨Course.still_of_resting t.resting (by simp [fanout, phase]) (by simp [fanout, phase]),
      fun _ => ?_⟩
    simp only [Fanout.advance, phase] at blocked
    split at blocked <;> cases blocked
    rename_i polled
    exact congrArg Prod.fst polled

/-- The source works on its own. -/
theorem below (t : Tracks source count buffer answers s c) (now : Time) (w : ω) :
    Tracks source count buffer answers ((source.tick s.1 now w).2.1, s.2) c := by
  obtain ⟨replies, r, used, same, complete, there⟩ := t.asked
  exact ⟨t.reached, t.fanout, t.answers, t.resting, replies, _, used.tick now w, same, complete,
    fun going => by rw [there going]⟩

/-- An output that is there is asked. -/
theorem poll (t : Tracks source count buffer answers s c) {k : Nat} {f : Feed α}
    (there : s.2.feeds[k]? = some f) (present : f.abandoned = false) :
    ∃ c', Tracks source count buffer
      (Function.update answers k (answers k ++ [(s.2.poll k).1])) (s.1, (s.2.poll k).2) c' := by
  have fanout := t.fanout
  obtain ⟨replies, r, used, same, complete, state⟩ := t.asked
  have polled := t.reached.step (.poll (fanout ▸ there) present)
  refine ⟨_, polled, ?_, ?_, t.resting, replies, r, used, same, complete, fun going => state ?_⟩
  · rw [fanout]
  · rw [fanout, t.answers]
  · intro stopped
    rw [poll_of_started there (by simp [stopped])] at going
    exact going stopped

/-- An output that is there is dropped. -/
theorem drop (t : Tracks source count buffer answers s c) {k : Nat} {f : Feed α}
    (there : s.2.feeds[k]? = some f) (present : f.abandoned = false) :
    ∃ c', Tracks source count buffer answers (settle source s.1 s.2 (s.2.drop k)) c' := by
  have fanout := t.fanout
  obtain ⟨replies, r, used, same, complete, state⟩ := t.asked
  have dropped := t.reached.step (.drop (fanout ▸ there) present)
  refine ⟨_, dropped, ?_, t.answers, t.resting, replies, r, used, same, complete, fun going => ?_⟩
  · rw [fanout]
    rfl
  · have going : (s.2.drop k).phase ≠ .stopped := going
    have before : s.2.phase ≠ .stopped := by
      rcases drop_cases there with only | ⟨idle, -, -⟩
      · rwa [only] at going
      · simp [idle]
    simpa [settle, going] using state before

end Tracks

namespace Follows

theorem start : Follows source count buffer (fun _ => []) (fun _ => false)
    (source.start, .create count buffer) where
  course := ⟨_, .start, rfl, rfl, rfl, [], _, .start, rfl, (by simp), fun _ => rfl⟩
  gone k f there := by rw [create_feed there]

theorem advance (v : Follows source count buffer answers gone s) (now : Time) (w : ω) :
    Follows source count buffer answers gone (Fanout.advance source s now w).2.1 := by
  obtain ⟨⟨c, t⟩, same⟩ := v
  refine ⟨t.advance now w, ?_⟩
  by_cases idle : s.2.phase = .idle
  · have still : (Fanout.advance source s now w).2.1 = s := by simp [Fanout.advance, idle]
    rwa [still]
  · obtain ⟨-, produce, produced, feeds⟩ := advance_goes source idle now w
    intro k g there
    rw [feeds, List.getElem?_map, Option.map_eq_some_iff] at there
    obtain ⟨f, there, rfl⟩ := there
    exact (produced f).abandoned.trans (same k f there)

theorem below (v : Follows source count buffer answers gone s) (now : Time) (w : ω) :
    Follows source count buffer answers gone ((source.tick s.1 now w).2.1, s.2) := by
  obtain ⟨⟨c, t⟩, same⟩ := v
  exact ⟨⟨c, t.below now w⟩, same⟩

/-- An output that exists has a feed, and is there unless it has been dropped. -/
theorem there (v : Follows source count buffer answers gone s) {k : Nat} (exists' : k < count)
    (present : gone k = false) : ∃ f, s.2.feeds[k]? = some f ∧ f.abandoned = false := by
  obtain ⟨⟨c, t⟩, same⟩ := v
  have size : s.2.feeds.length = count := t.fanout ▸ t.reached.constant.2
  have bound : k < s.2.feeds.length := size ▸ exists'
  have there := List.getElem?_eq_getElem bound
  exact ⟨_, there, (same k _ there).trans present⟩

theorem poll (v : Follows source count buffer answers gone s) {k : Nat} (exists' : k < count)
    (present : gone k = false) :
    Follows source count buffer (Function.update answers k (answers k ++ [(s.2.poll k).1])) gone
      (s.1, (s.2.poll k).2) := by
  obtain ⟨f, there, here⟩ := v.there exists' present
  obtain ⟨⟨c, t⟩, same⟩ := v
  refine ⟨t.poll there here, ?_⟩
  by_cases idle : s.2.phase = .idle
  · rw [poll_of_idle there idle]
    exact same
  · rw [poll_of_started there idle]
    refine at_set (fun j g _ there => same j g there) ?_
    exact f.poll_untouched.abandoned.trans (same k f there)

theorem drop (v : Follows source count buffer answers gone s) {k : Nat} (exists' : k < count)
    (present : gone k = false) :
    Follows source count buffer answers (Function.update gone k true)
      (settle source s.1 s.2 (s.2.drop k)) := by
  obtain ⟨f, there, here⟩ := v.there exists' present
  obtain ⟨⟨c, t⟩, same⟩ := v
  refine ⟨t.drop there here, ?_⟩
  have all : ∀ j g, (s.2.feeds.set k f.drop)[j]? = some g →
      g.abandoned = Function.update gone k true j := by
    refine at_set (fun j g apart there => ?_) ?_
    · rw [Function.update_of_ne apart]
      exact same j g there
    · rw [Function.update_self]
      rfl
  intro j g there'
  have there' : (s.2.drop k).feeds[j]? = some g := there'
  rcases drop_cases there with only | ⟨-, -, last⟩
  · rw [only] at there'
    exact all j g there'
  · rw [last] at there'
    exact all j g there'

end Follows

/-- Every use of the outputs follows a course. -/
theorem reach_follows {t : (source.fanout count buffer).State} {answers : Nat → List (Answer α)}
    {gone : Nat → Bool} (reached : (source.fanout count buffer).Reach t answers gone) :
    Follows source count buffer answers gone t.1 := by
  induction reached with
  | start => exact .start
  | poll _ exists' present now w ih => exact ih.poll exists' present
  | @tick t answers gone _ now w ih =>
    exact Turn.step_preserves (Follows source count buffer answers gone)
      (fun s w v => v.below now w) (fun s w v => v.advance now w) t.2 t.1 w ih
  | drop _ exists' present ih => exact ih.drop exists' present

end Fanout
end PullStream
