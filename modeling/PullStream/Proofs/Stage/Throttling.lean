import PullStream.Proofs.Machine.Using
import PullStream.Stage.Pacing

/-!
Throttling: one wait before each pull but the first.

What a throttled sequence does is a course of beats: a wait is begun, it ends when it is due, and
the source is asked until something arrives. So whenever the source is asked, as many waits have
begun as have ended, and as many as there are pulls of the source before this one. None comes before
the first pull, and the pull that finds the end is no exception.

* `Beat`, `Beats` — what happens, and in which order.
* `Beats.asks` — how many waits there have been when the source is asked.
* `throttle_keeps_time` — every use of the stage.
-/

namespace PullStream.Throttle

open Transducer (Throttling throttle)

variable {ω ν α : Type}

/-! ### Beats -/

/-- What a throttled sequence does. -/
inductive Beat (α : Type) where
  /-- A wait begins at `now` and takes `delay`. -/
  | begun (now delay : Time)
  /-- The wait has ended at `now`. -/
  | ended (now : Time)
  /-- The source has been asked. -/
  | asked (a : Answer α)

/-- The answers of the source. -/
def answered (beats : List (Beat α)) : List (Answer α) :=
  beats.filterMap fun
    | .asked a => some a
    | _ => none

/-- How many waits have begun. -/
def begun (beats : List (Beat α)) : Nat :=
  beats.countP fun
    | .begun _ _ => true
    | _ => false

/-- How many waits have ended. -/
def ended (beats : List (Beat α)) : Nat :=
  beats.countP fun
    | .ended _ => true
    | _ => false

section Concat

variable (beats : List (Beat α)) (now delay : Time) (a : Answer α)

theorem concat_begun : begun (beats ++ [.begun now delay]) = begun beats + 1 ∧
    ended (beats ++ [.begun now delay]) = ended beats ∧
    answered (beats ++ [.begun now delay]) = answered beats := by
  simp [begun, ended, answered]

theorem concat_ended : begun (beats ++ [.ended now]) = begun beats ∧
    ended (beats ++ [.ended now]) = ended beats + 1 ∧
    answered (beats ++ [.ended now]) = answered beats := by
  simp [begun, ended, answered]

theorem concat_asked : begun (beats ++ [.asked a]) = begun beats ∧
    ended (beats ++ [.asked a]) = ended beats ∧
    answered (beats ++ [.asked a]) = answered beats ++ [a] := by
  simp [begun, ended, answered]

end Concat

/-- Where the source may be asked. -/
inductive MayAsk : Throttling → Prop where
  | first : MayAsk .first
  | asking : MayAsk .asking

/-- What happens next, and where it leads. -/
inductive Move : Throttling → Beat α → Throttling → Prop where
  | begin {now delay} : Move .between (.begun now delay) (.waiting (now + delay))
  | due {due now} : due ≤ now → Move (.waiting due) (.ended now) .asking
  | quiet {m a} : MayAsk m → a.arrival? = none → Move m (.asked a) m
  | arrives {m a b} : MayAsk m → a.arrival? = some b → b ≠ .ended → Move m (.asked a) .between
  | finish {m} : MayAsk m → Move m (.asked .done) .spent

/-- What happens up to the first failure or the end. -/
inductive Beats : List (Beat α) → Throttling → Prop where
  | start : Beats [] .first
  | step {beats m beat m'} : Beats beats m → Move m beat m' → Beats (beats ++ [beat]) m'

/-- How many waits have begun and ended, and how much has arrived. -/
inductive Tally (beats : List (Beat α)) : Throttling → Prop where
  | first : begun beats = 0 → ended beats = 0 → (arrivals (answered beats)).length = 0 →
      Tally beats .first
  | between : begun beats = ended beats → ended beats + 1 = (arrivals (answered beats)).length →
      Tally beats .between
  | waiting {due} : begun beats = ended beats + 1 →
      begun beats = (arrivals (answered beats)).length → Tally beats (.waiting due)
  | asking : begun beats = ended beats → ended beats = (arrivals (answered beats)).length →
      Tally beats .asking
  | spent : Tally beats .spent

theorem Tally.mayAsk {beats : List (Beat α)} {m : Throttling} (tally : Tally beats m)
    (may : MayAsk m) :
    begun beats = ended beats ∧ ended beats = (arrivals (answered beats)).length := by
  cases may with
  | first => cases tally; omega
  | asking => cases tally; omega

/-- In a wait, there has been one for each pull that is over. -/
theorem Tally.waits {beats : List (Beat α)} {due : Time} (tally : Tally beats (.waiting due)) :
    begun beats = (arrivals (answered beats)).length := by
  cases tally with
  | waiting _ counts => exact counts

theorem Move.tally {beats : List (Beat α)} {m m' : Throttling} {beat : Beat α}
    (move : Move m beat m') (tally : Tally beats m) : Tally (beats ++ [beat]) m' := by
  cases move with
  | @begin now delay =>
    obtain ⟨began, finished, same⟩ := concat_begun beats now delay
    cases tally with
    | between => exact .waiting (by omega) (by rw [same]; omega)
  | @due _ now =>
    obtain ⟨began, finished, same⟩ := concat_ended beats now
    cases tally with
    | waiting => exact .asking (by omega) (by rw [same]; omega)
  | @quiet _ a may nothing =>
    obtain ⟨began, finished, same⟩ := concat_asked beats a
    have still : (arrivals (answered beats ++ [a])).length =
        (arrivals (answered beats)).length := by
      rw [arrivals_quiet _ nothing]
    cases may with
    | first =>
      cases tally with
      | first => exact .first (by omega) (by omega) (by rw [same]; omega)
    | asking =>
      cases tally with
      | asking => exact .asking (by omega) (by rw [same]; omega)
  | @arrives _ a b may some =>
    obtain ⟨began, finished, same⟩ := concat_asked beats a
    have more : (arrivals (answered beats ++ [a])).length =
        (arrivals (answered beats)).length + 1 := by
      rw [length_arrivals_concat, some]
      rfl
    obtain ⟨equal, counts⟩ := tally.mayAsk may
    exact .between (by omega) (by rw [same]; omega)
  | finish => exact .spent

theorem Beats.tally {beats : List (Beat α)} {m : Throttling} (course : Beats beats m) :
    Tally beats m := by
  induction course with
  | start => exact .first rfl rfl rfl
  | step _ move ih => exact move.tally ih

theorem Move.mayAsk {m m' : Throttling} {a : Answer α} (move : Move m (.asked a) m') :
    MayAsk m := by
  cases move <;> assumption

/-- Whenever the source is asked, each wait that has begun has ended, and there has been one for
each pull of the source but the first. -/
theorem Beats.asks {beats : List (Beat α)} {m : Throttling} (course : Beats beats m)
    {earlier later : List (Beat α)} {a : Answer α} (split : beats = earlier ++ .asked a :: later) :
    begun earlier = ended earlier ∧ ended earlier + 1 = pullsBegun (answered earlier ++ [a]) := by
  induction course generalizing later with
  | start => exact absurd split (by simp)
  | @step beats m beat m' course move ih =>
    rcases List.eq_nil_or_concat later with rfl | ⟨later, last, rfl⟩
    · obtain ⟨rfl, same⟩ := List.append_inj' split rfl
      obtain rfl := List.singleton_inj.mp same
      obtain ⟨equal, counts⟩ := course.tally.mayAsk move.mayAsk
      exact ⟨equal, by rw [pullsBegun_concat, counts]⟩
    · rw [List.concat_eq_append, ← List.cons_append, ← List.append_assoc] at split
      exact ih (List.append_inj_left' split rfl)

/-! ### Every use -/

variable {source : Machine ω α} {pause : Pause ω} {view : ω → ν} {note : Beat α → ν → ν}
  {before : ν}

/-- What a throttled sequence has come to, with its source in the state `r`. -/
structure Kept (source : Machine ω α) (note : Beat α → ν → ν) (before : ν) (r : source.State)
    (m : Throttling) (x : ν) (answers : List (Answer α)) (beats : List (Beat α)) : Prop where
  course : Beats beats m
  world : x = noted note before beats
  source : ∃ r', source.Reach r' (answered beats) ∧ (m ≠ .spent → r' = r)
  same : arrivals (answered beats) = arrivals answers
  /-- One wait has been begun for each pull but the first. -/
  began : answers ≠ [] → begun beats + 1 = pullsBegun answers
  past : m = .spent → ¬ Unended (arrivals answers)

namespace Kept

variable {r : source.State} {m : Throttling} {x x' : ν} {answers : List (Answer α)}
  {beats : List (Beat α)}

/-- The first beat of a pull is a wait, unless it is the first pull. -/
theorem begin (kept : Kept source note before r .between x answers beats) {now delay : Time}
    (world : x' = note (.begun now delay) x) :
    Kept source note before r (.waiting (now + delay)) x' (answers ++ [.skip])
      (beats ++ [.begun now delay]) := by
  obtain ⟨began, -, rest⟩ := concat_begun beats now delay
  obtain ⟨r', below, same⟩ := kept.source
  have counts : begun beats + 1 = (arrivals (answered beats)).length := by
    cases kept.course.tally with
    | between => omega
  refine ⟨kept.course.step .begin, ?_, ⟨r', rest ▸ below, fun _ => same nofun⟩, ?_, ?_, nofun⟩
  · rw [noted_concat, ← kept.world, world]
  · rw [rest, kept.same, arrivals_quiet answers rfl]
  · intro _
    rw [began, counts, pullsBegun_concat, kept.same]

/-- The wait goes on. -/
theorem wait {due : Time} (kept : Kept source note before r (.waiting due) x answers beats) :
    Kept source note before r (.waiting due) x (answers ++ [.wait]) beats := by
  have counts := kept.course.tally.waits
  refine ⟨kept.course, kept.world, kept.source, ?_, ?_, nofun⟩
  · rw [kept.same, arrivals_quiet answers rfl]
  · intro _
    rw [counts, pullsBegun_concat, kept.same]

/-- The wait ends when it is due. -/
theorem finish {due now : Time} (kept : Kept source note before r (.waiting due) x answers beats)
    (late : due ≤ now) (silent : note (.ended now) x = x) :
    Kept source note before r .asking x (answers ++ [.skip]) (beats ++ [.ended now]) := by
  obtain ⟨began, -, rest⟩ := concat_ended beats now
  obtain ⟨r', below, same⟩ := kept.source
  have counts := kept.course.tally.waits
  refine ⟨kept.course.step (.due late), ?_, ⟨r', rest ▸ below, fun _ => same nofun⟩, ?_, ?_, nofun⟩
  · rw [noted_concat, ← kept.world, silent]
  · rw [rest, kept.same, arrivals_quiet answers rfl]
  · intro _
    rw [began, counts, pullsBegun_concat, kept.same]

/-- The source is asked, and its answer handed on. -/
theorem ask (kept : Kept source note before r m x answers beats) {a : Answer α}
    {m' : Throttling} (move : Move m (.asked a) m') {r' : source.State}
    (below : ∃ r'', source.Reach r'' (answered beats ++ [a]) ∧ (m' ≠ .spent → r'' = r'))
    (world : x' = note (.asked a) x) (past : m' = .spent → a = .done) :
    Kept source note before r' m' x' (answers ++ [a]) (beats ++ [.asked a]) := by
  obtain ⟨began, -, rest⟩ := concat_asked beats a
  obtain ⟨equal, counts⟩ := kept.course.tally.mayAsk move.mayAsk
  refine ⟨kept.course.step move, ?_, rest ▸ below, ?_, ?_, fun spent unended => ?_⟩
  · rw [noted_concat, ← kept.world, world]
  · rw [rest, arrivals_concat, arrivals_concat, kept.same]
  · intro _
    rw [began, equal, counts, pullsBegun_concat, kept.same]
  · cases unended .ended (by simp [arrivals_concat, past spent, Answer.arrival?])

end Kept

/-- It asks its source at the start of the first pull, and behind a wait. -/
theorem mayAsk_of_asks {m : Throttling} {now : Time} {w : ω}
    (asks : (throttle (α := α) pause).before m now w = none) : MayAsk m := by
  cases m with
  | first => exact .first
  | asking => exact .asking
  | between => cases asks
  | spent => cases asks
  | waiting due =>
    simp only [throttle] at asks
    split at asks <;> cases asks

/-- However a throttled sequence is used, up to the first failure or end. -/
theorem throttle_keeps_time (notes : source.Notes view fun a => note (.asked a))
    (pauses : ∀ now w, view (pause now w).2 = note (.begun now (pause now w).1) (view w))
    (silent : ∀ now x, note (.ended now) x = x) {s : (source.via (throttle pause)).State} {x : ν}
    {answers : List (Answer α)} (used : (source.via (throttle pause)).Uses view before s x answers)
    (front : Unended (arrivals answers.dropLast)) :
    ∃ beats, Kept source note before s.1 s.2 x answers beats := by
  induction used with
  | start =>
    exact ⟨[], .start, rfl, ⟨_, .start, fun _ => rfl⟩, rfl, fun some => absurd rfl some, nofun⟩
  | @tick s x answers _ now w same ih =>
    subst same
    obtain ⟨beats, kept⟩ := ih front
    obtain ⟨r', below, position⟩ := kept.source
    refine ⟨beats, kept.course, (notes.tick s.1 now w).trans kept.world, ?_, kept.same, kept.began,
      kept.past⟩
    by_cases spent : s.2 = .spent
    · exact ⟨r', below, fun going => absurd spent going⟩
    · exact ⟨_, below.tick now w, fun _ => position spent ▸ rfl⟩
  | @poll s x answers _ now w same ih =>
    subst same
    rw [List.dropLast_concat] at front
    obtain ⟨beats, kept⟩ := ih front.arrivals_dropLast
    have polled := Machine.via_poll source (throttle pause) s now w
    generalize (source.via (throttle pause)).poll s now w = answer at polled
    obtain ⟨r, m⟩ := s
    have said := notes.poll r now w
    have asked (m' : Throttling) (may : MayAsk m) : ∃ r'',
        source.Reach r'' (answered beats ++ [(source.poll r now w).1]) ∧
          (m' ≠ .spent → r'' = (source.poll r now w).2.1) := by
      obtain ⟨r', below, position⟩ := kept.source
      obtain rfl := position (by rintro rfl; cases may)
      exact ⟨_, below.poll now w, fun _ => rfl⟩
    cases polled with
    | before own =>
      cases m with
      | first => cases own
      | asking => cases own
      | spent => exact absurd front (kept.past rfl)
      | between =>
        cases own
        exact ⟨_, kept.begin (pauses now w)⟩
      | waiting due =>
        simp only [throttle] at own
        split at own
        · cases own
          exact ⟨_, kept.wait⟩
        · rename_i late
          cases own
          exact ⟨_, kept.finish (Nat.le_of_not_lt late) (silent now _)⟩
    | @item a p own answered =>
      have may := mayAsk_of_asks own
      rw [answered] at said asked
      have handed : Kept source note before p.1 .between (view p.2) (answers ++ [.item a])
          (beats ++ [.asked (.item a)]) :=
        kept.ask (.arrives may rfl (by nofun)) (asked _ may) said nofun
      cases may <;> exact ⟨_, handed⟩
    | @fail e p own answered =>
      have may := mayAsk_of_asks own
      rw [answered] at said asked
      have handed : Kept source note before p.1 .between (view p.2) (answers ++ [.fail e])
          (beats ++ [.asked (.fail e)]) :=
        kept.ask (.arrives may rfl (by nofun)) (asked _ may) said nofun
      cases may <;> exact ⟨_, handed⟩
    | done own answered =>
      have may := mayAsk_of_asks own
      rw [answered] at said asked
      obtain ⟨r'', below, -⟩ := asked .spent may
      exact ⟨_, kept.ask (.finish may) ⟨r'', below, absurd rfl⟩ said fun _ => rfl⟩
    | pass own answered notFail notDone =>
      have may := mayAsk_of_asks own
      rw [answered] at said asked
      exact ⟨_, kept.ask (.quiet may (Answer.arrival?_signal notFail notDone)) (asked _ may) said
        (by rintro rfl; cases may)⟩

end PullStream.Throttle
