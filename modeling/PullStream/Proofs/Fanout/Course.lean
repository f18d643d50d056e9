import Mathlib.Logic.Function.Basic
import PullStream.Fanout
import PullStream.Proofs.Feed.Counter

/-!
The course of a fan-out.

A course is a fan-out at work, with its books, under every schedule. Nobody waits for anybody:
between any two things that the pump does, outputs may be asked and dropped. So the pump looks
for room at an output in three steps (it makes a waiter, looks whether the output is still
there, then at its backlog), looks for somebody who is left output by output, and hands what
the source has said to one output after the other; before an item it looks whether the output
is still there. The source may say anything.

* `Course.Works`, `Course.Meets`, `Course.Step` — what may happen.
* `Course.told`, `Course.given` — what the source has said, and what of it an output has got.
* `Course.Reaches.checked`, `Course.Reaches.answered` — with nobody in between, the steps of a
  call are the pump's own function.
-/

namespace PullStream.Fanout

variable {α : Type}

/-! ### What the source says -/

/-- Puts what the source has said into a feed: an entry, or the end. -/
def put (f : Feed α) : Option (Except Failure α) → Feed α
  | some (.ok a) =>
    match f.feed a with
    | .ok f => f
    | .error _ => f
  | some (.error e) => throwInto e f
  | none => f.close

/-- What an open feed comes to by what the source has said. -/
inductive Gets (f : Feed α) : Option (Except Failure α) → Feed α → Prop where
  | item {a f'} : f.feed a = .ok f' → Gets f (some (.ok a)) f'
  | failure {e f'} : f.throw e = .ok f' → Gets f (some (.error e)) f'
  | finish : Gets f none f.close

theorem put_gets {f : Feed α} (isOpen : f.closed = false) (said : Option (Except Failure α)) :
    Gets f said (put f said) := by
  rcases said with _ | e | a
  · exact .finish
  · obtain ⟨f', thrown⟩ := Feed.throw_open isOpen e
    simp only [put, throwInto, thrown]
    exact .failure thrown
  · obtain ⟨f', fed⟩ := Feed.feed_open isOpen a
    simp only [put, fed]
    exact .item fed

namespace Gets

variable {f f' : Feed α} {said : Option (Except Failure α)} {accepted : List (Except Failure α)}
  {answers : List (Answer α)}

/-- The feed has accepted what has been said. -/
theorem sound (gets : Gets f said f') (s : f.Sound accepted answers) :
    f'.Sound (accepted ++ said.toList) answers := by
  cases gets with
  | item fed => exact s.feed fed
  | failure thrown => exact s.throw thrown
  | finish =>
    rw [Option.toList_none, List.append_nil]
    exact s.close

theorem counted (gets : Gets f said f') (c : f.Counted) : f'.Counted := by
  cases gets with
  | item fed => exact c.feed fed
  | failure thrown => exact c.throw thrown
  | finish => exact c.close

theorem abandoned (gets : Gets f said f') : f'.abandoned = f.abandoned := by
  cases gets with
  | item fed => exact (Feed.feed_ok fed).2.2.2.abandoned
  | failure thrown => exact (Feed.throw_ok thrown).2.2.2.abandoned
  | finish => rfl

theorem pending (gets : Gets f said f') :
    f'.pending = f.pending + (itemsOf said.toList).length := by
  cases gets with
  | item fed => exact (Feed.feed_counts fed).1
  | failure thrown => exact (Feed.throw_counts thrown).1
  | finish => rfl

/-- An item does not close the feed. -/
theorem isOpen {a : α} (gets : Gets f (some (.ok a)) f') : f'.closed = false := by
  cases gets with
  | item fed => exact (Feed.feed_ok fed).2.2.1.trans (Feed.feed_ok fed).1

end Gets

/-- Hands what the source has said to an output. Those that have been dropped get no items. -/
def hand (said : Option (Except Failure α)) (f : Feed α) : Feed α :=
  match said with
  | some (.ok a) => offer a f
  | said => put f said

/-- The source has said something, and the outputs have got it. -/
def answered (p : Fanout α) : Option (Except Failure α) → Fanout α
  | some (.ok a) => p.pulled a
  | some (.error e) => p.pulledFailure e
  | none => p.pulledEnd

/-- Where the pump goes on when the outputs have got what the source has said. -/
def Phase.behind : Option (Except Failure α) → Phase
  | some (.ok _) => .checking 0
  | _ => .stopped

theorem answered_eq (p : Fanout α) (said : Option (Except Failure α)) :
    p.answered said = { p with phase := .behind said, feeds := p.feeds.map (hand said) } := by
  rcases said with _ | e | a <;> rfl

/-! ### Steps -/

/-- Where a pump stands within a call. -/
inductive Stage (α : Type) where
  /-- Between two calls. -/
  | resting
  /-- At an output, with a waiter made. -/
  | registered (output : Nat) (read : Feed.Waiter)
  /-- At an output, having seen that it is there. -/
  | attended (output : Nat) (read : Feed.Waiter)
  /-- About to look whether this output is left. -/
  | looking (output : Nat)
  /-- About to hand what the source has said to this output, which has been seen, if so. -/
  | handing (said : Option (Except Failure α)) (output : Nat) (seen : Bool)

/-- What the source has said and not every output has been seen to. -/
def Stage.saying : Stage α → List (Except Failure α)
  | .handing said _ _ => said.toList
  | _ => []

/-- Whether an output has been seen to since the source has said it. -/
def Stage.served : Stage α → Nat → Bool
  | .handing _ k _, j => decide (j < k)
  | _, _ => false

/-- A fan-out at work, with its books. -/
structure Course (α : Type) where
  fanout : Fanout α
  stage : Stage α := .resting
  /-- How often a pump has been started. -/
  starts : Nat := 0
  /-- What the source has handed out, as far as every output has been seen to. -/
  past : List (Except Failure α) := []
  /-- Whether the source has reported its end. -/
  ended : Bool := false
  /-- The answers at each output. -/
  answers : Nat → List (Answer α) := fun _ => []

namespace Course

/-- All that the source has handed out. -/
def told (s : Course α) : List (Except Failure α) :=
  s.past ++ s.stage.saying

/-- What of it an output has been handed. -/
def given (s : Course α) (k : Nat) : List (Except Failure α) :=
  s.past ++ if s.stage.served k then s.stage.saying else []

/-- The same course with the pump at another place. -/
def moved (s : Course α) (phase : Phase) (stage : Stage α) : Course α :=
  { s with fanout := { s.fanout with phase }, stage }

@[simp] theorem moved_stage (s : Course α) (phase : Phase) (stage : Stage α) :
    (s.moved phase stage).stage = stage :=
  rfl

@[simp] theorem moved_phase (s : Course α) (phase : Phase) (stage : Stage α) :
    (s.moved phase stage).fanout.phase = phase :=
  rfl

/-- The same course with another feed at output `k`. -/
def withFeed (s : Course α) (k : Nat) (f : Feed α) : Course α :=
  { s with fanout := { s.fanout with feeds := s.fanout.feeds.set k f } }

/-- What the pump does by itself. -/
inductive Works (s : Course α) : Course α → Prop where
  /-- Without a limit there is always room. -/
  | pass {k f} : s.stage = .resting → s.fanout.phase = .checking k →
      s.fanout.feeds[k]? = some f → s.fanout.buffer = 0 →
      Works s (s.moved (.checking (k + 1)) .resting)
  /-- It makes a waiter first. -/
  | register {k f} : s.stage = .resting → s.fanout.phase = .checking k →
      s.fanout.feeds[k]? = some f → 0 < s.fanout.buffer →
      Works s (s.moved (.checking k) (.registered k (f.waiter .read)))
  /-- It sees that the output has been dropped. -/
  | skip {k read f} : s.stage = .registered k read → s.fanout.feeds[k]? = some f →
      f.abandoned = true → Works s (s.moved (.checking (k + 1)) .resting)
  /-- It sees that the output is there. -/
  | stay {k read f} : s.stage = .registered k read → s.fanout.feeds[k]? = some f →
      f.abandoned = false → Works s (s.moved (.checking k) (.attended k read))
  /-- There is room. -/
  | room {k read f} : s.stage = .attended k read → s.fanout.feeds[k]? = some f →
      f.pending < s.fanout.buffer → Works s (s.moved (.checking (k + 1)) .resting)
  /-- There is no room, and it waits. -/
  | full {k read f} : s.stage = .attended k read → s.fanout.feeds[k]? = some f →
      s.fanout.buffer ≤ f.pending → Works s (s.moved (.waiting k read) .resting)
  /-- The waiter has been woken. -/
  | notice {k read f} : s.stage = .resting → s.fanout.phase = .waiting k read →
      s.fanout.feeds[k]? = some f → read.resolved f = true →
      Works s (s.moved (.checking k) .resting)
  /-- Past the last output it looks whether anybody is left. -/
  | turn {k} : s.stage = .resting → s.fanout.phase = .checking k →
      s.fanout.feeds[k]? = none → Works s (s.moved (.checking k) (.looking 0))
  /-- This output is not. -/
  | lookOn {k f} : s.stage = .looking k → s.fanout.feeds[k]? = some f → f.abandoned = true →
      Works s { s with stage := .looking (k + 1) }
  /-- This one is, and it asks its source. -/
  | pull {k f} : s.stage = .looking k → s.fanout.feeds[k]? = some f → f.abandoned = false →
      Works s (s.moved .pulling .resting)
  /-- Nobody is left. -/
  | leave {k} : s.stage = .looking k → s.fanout.feeds[k]? = none →
      Works s (s.moved .stopped .resting)
  /-- The output has been dropped and gets no item. -/
  | miss {a k f} : s.stage = .handing (some (.ok a)) k false → s.fanout.feeds[k]? = some f →
      f.abandoned = true → Works s { s with stage := .handing (some (.ok a)) (k + 1) false }
  /-- The output is there. -/
  | see {a k f} : s.stage = .handing (some (.ok a)) k false → s.fanout.feeds[k]? = some f →
      f.abandoned = false → Works s { s with stage := .handing (some (.ok a)) k true }
  /-- The output gets what the source has said; an item, if it has been seen. -/
  | hand {said k seen f} : s.stage = .handing said k seen → s.fanout.feeds[k]? = some f →
      (∀ a, said = some (.ok a) → seen = true) →
      Works s { s.withFeed k (put f said) with stage := .handing said (k + 1) false }
  /-- All outputs have been seen to. -/
  | handed {said k seen} : s.stage = .handing said k seen → s.fanout.feeds[k]? = none →
      Works s { s.moved (.behind said) .resting with past := s.past ++ said.toList }

/-- What the pump meets with when it has asked its source. -/
inductive Meets (s : Course α) : Course α → Prop where
  /-- The source has an item, or fails, or ends. -/
  | hears {said} : s.stage = .resting → s.fanout.phase = .pulling →
      Meets s { s with stage := .handing said 0 false, ended := said.isNone }
  /-- The source breaks down, and the pump with it. -/
  | broke : s.stage = .resting → s.fanout.phase = .pulling →
      Meets s (s.moved .stopped .resting)

/-- One thing that may happen. -/
inductive Step (s : Course α) : Course α → Prop where
  | works {s'} : Works s s' → Step s s'
  | meets {s'} : Meets s s' → Step s s'
  /-- An output takes the shared buffer of its feed. -/
  | refill {k f} : s.fanout.feeds[k]? = some f → f.abandoned = false →
      Step s (s.withFeed k f.refill)
  /-- An output is asked for an item. -/
  | poll {k f} : s.fanout.feeds[k]? = some f → f.abandoned = false →
      Step s { s with
        fanout := (s.fanout.poll k).2
        starts := s.starts + if s.fanout.phase = .idle then 1 else 0
        answers := Function.update s.answers k (s.answers k ++ [(s.fanout.poll k).1]) }
  /-- An output is dropped. -/
  | drop {k f} : s.fanout.feeds[k]? = some f → f.abandoned = false →
      Step s { s with fanout := s.fanout.drop k }

/-- What courses lead to, from a fan-out that has not been asked for anything. -/
inductive Reaches (count buffer : Nat) : Course α → Prop where
  | start : Reaches count buffer { fanout := .create count buffer }
  | step {s s' : Course α} : Reaches count buffer s → Step s s' → Reaches count buffer s'

variable {s s' : Course α} {count buffer : Nat}

/-! ### Books -/

theorem given_of_resting (resting : s.stage = .resting) (k : Nat) : s.given k = s.told := by
  simp [given, told, resting, Stage.served, Stage.saying]

/-- An output has been handed all, or all but the last. -/
theorem given_prefix (s : Course α) (k : Nat) : s.given k <+: s.told := by
  rw [given, told]
  split
  · exact List.prefix_rfl
  · rw [List.append_nil]
    exact List.prefix_append _ _

/-! ### Calls without anybody in between -/

theorem Reaches.works (reached : Reaches count buffer s) (works : Works s s') :
    Reaches count buffer s' :=
  reached.step (.works works)

theorem moved_resting (resting : s.stage = .resting) (phase : Phase) :
    s.moved phase .resting = { s with fanout := { s.fanout with phase } } := by
  rw [moved, ← resting]

/-- The pump looks for somebody who is left, output by output. -/
theorem Reaches.looked (reached : Reaches count buffer s) {j : Nat} (looking : s.stage = .looking j)
    (before : s.fanout.abandoned = (s.fanout.feeds.drop j).all (·.abandoned)) :
    Reaches count buffer
      (s.moved (if s.fanout.abandoned then .stopped else .pulling) .resting) := by
  generalize rest : s.fanout.feeds.drop j = left at before
  induction left generalizing s j with
  | nil =>
    have behind : s.fanout.feeds[j]? = none := by
      rw [← List.head?_drop, rest, List.head?_nil]
    rw [before]
    exact reached.works (.leave looking behind)
  | cons f left ih =>
    have there : s.fanout.feeds[j]? = some f := by
      rw [← List.head?_drop, rest, List.head?_cons]
    cases gone : f.abandoned with
    | false =>
      have some : s.fanout.abandoned = false := by simp [before, gone]
      rw [some]
      exact reached.works (.pull looking there gone)
    | true =>
      have further : s.fanout.feeds.drop (j + 1) = left := by
        rw [← List.tail_drop, rest, List.tail_cons]
      have same : s.fanout.abandoned = left.all (·.abandoned) := by simp [before, gone]
      have looked := ih (reached.works (.lookOn looking there gone)) rfl further same
      exact looked

/-- The steps at an output are the look for room there. -/
theorem Reaches.checked (reached : Reaches count buffer s) (resting : s.stage = .resting) {k : Nat}
    (phase : s.fanout.phase = .checking k) :
    Reaches count buffer { s with fanout := s.fanout.check k } := by
  unfold check
  cases there : s.fanout.feeds[k]? with
  | none =>
    have looked := (reached.works (.turn resting phase there)).looked rfl rfl
    rwa [moved, ← resting] at looked
  | some f =>
    dsimp only
    by_cases unlimited : s.fanout.buffer = 0
    · have passed := reached.works (.pass resting phase there unlimited)
      rw [moved_resting resting] at passed
      simpa [hasRoom, unlimited] using passed
    · have registered := reached.works
        (.register resting phase there (Nat.pos_iff_ne_zero.mpr unlimited))
      cases gone : f.abandoned with
      | true =>
        have skipped := registered.works (.skip rfl there gone)
        simp only [moved, ← resting] at skipped
        simpa [hasRoom, gone] using skipped
      | false =>
        have attended := registered.works (.stay rfl there gone)
        by_cases room : f.pending < s.fanout.buffer
        · have passed := attended.works (.room rfl there room)
          simp only [moved, ← resting] at passed
          simpa [hasRoom, room] using passed
        · have waiting := attended.works (.full rfl there (Nat.le_of_not_lt room))
          simp only [moved, ← resting] at waiting
          simpa [hasRoom, gone, unlimited, room] using waiting

/-- The steps at an output are what it gets. -/
theorem Reaches.handedOne (reached : Reaches count buffer s) {said : Option (Except Failure α)}
    {j : Nat} (handing : s.stage = .handing said j false) {f : Feed α}
    (there : s.fanout.feeds[j]? = some f) :
    Reaches count buffer
      { s.withFeed j (hand said f) with stage := .handing said (j + 1) false } := by
  rcases said with _ | e | a
  · exact reached.works (.hand handing there (by simp))
  · exact reached.works (.hand handing there (by simp))
  · cases gone : f.abandoned with
    | true =>
      have missed := reached.works (.miss handing there gone)
      have same : s.withFeed j (hand (some (.ok a)) f) = s := by
        obtain ⟨bound, entry⟩ := List.getElem?_eq_some_iff.mp there
        have unchanged : hand (some (.ok a)) f = s.fanout.feeds[j] := by
          simp [hand, offer, gone, entry]
        simp [withFeed, unchanged]
      rwa [same]
    | false =>
      have given := (reached.works (.see handing there gone)).works (.hand rfl there fun _ _ => rfl)
      have same : hand (some (.ok a)) f = put f (some (.ok a)) := by
        rw [hand, offer, if_neg (by simp [gone])]
        rfl
      rwa [same]

/-- The steps of a round, from output `j` on, are what is left of the call. -/
theorem Reaches.handedOut (reached : Reaches count buffer s) {said : Option (Except Failure α)}
    {j : Nat} (handing : s.stage = .handing said j false) :
    Reaches count buffer
      { s with
        fanout := { s.fanout with
          phase := .behind said
          feeds := s.fanout.feeds.take j ++ (s.fanout.feeds.drop j).map (hand said) }
        stage := .resting
        past := s.past ++ said.toList } := by
  generalize rest : s.fanout.feeds.drop j = left
  induction left generalizing s j with
  | nil =>
    have behind : s.fanout.feeds[j]? = none := by
      rw [← List.head?_drop, rest, List.head?_nil]
    have all : s.fanout.feeds.take j = s.fanout.feeds :=
      List.take_of_length_le (List.getElem?_eq_none_iff.mp behind)
    rw [all, List.map_nil, List.append_nil]
    exact reached.works (.handed handing behind)
  | cons f left ih =>
    have there : s.fanout.feeds[j]? = some f := by
      rw [← List.head?_drop, rest, List.head?_cons]
    have bound := (List.getElem?_eq_some_iff.mp there).1
    have further : (s.fanout.feeds.set j (hand said f)).drop (j + 1) = left := by
      rw [List.drop_set_of_lt (Nat.lt_succ_self j), ← List.tail_drop, rest, List.tail_cons]
    have next := ih (reached.handedOne handing there) rfl further
    have front : (s.fanout.feeds.set j (hand said f)).take (j + 1) =
        s.fanout.feeds.take j ++ [hand said f] := by
      rw [List.take_add_one, List.take_set_of_le (Nat.le_refl j)]
      simp [bound]
    simpa [withFeed, front] using next

/-- What the source says, and the steps of the round, are the call. -/
theorem Reaches.answered (reached : Reaches count buffer s) (resting : s.stage = .resting)
    (phase : s.fanout.phase = .pulling) (said : Option (Except Failure α)) :
    Reaches count buffer
      { s with
        fanout := s.fanout.answered said
        past := s.past ++ said.toList
        ended := said.isNone } := by
  have heard : Meets s { s with stage := .handing said 0 false, ended := said.isNone } :=
    .hears resting phase
  have handed := (reached.step (.meets heard)).handedOut rfl
  rw [answered_eq]
  simpa [← resting] using handed

end Course
end PullStream.Fanout
