import PullStream.Proofs.Machine.Pulls
import PullStream.Proofs.Stage.Via
import PullStream.Stage.Elementwise

/-!
Taking the first elements.

A stage that takes so many elements pulls its source so often and no more, however often it is
pulled itself: what arrives from the source it hands on, in the pull in which it comes, and behind
that it reports the end by itself, at once. So it does not matter what the source has behind the
first elements, and whether it has anything there at all.

* `Cut` — when nothing is handed on any more; `Closed` — when the source is not asked any more.
* `guarded_taken` — what taking has come to, however it is used, and what it comes to next.
* `take_goesBy` — the script of the first elements is cut out of the script of the source.
-/

namespace PullStream

variable {ω α : Type} {lasting : Bool} {count : Nat} {source : Machine ω α}

open Transducer (takeFirst)

/-- So much has arrived, or a failure or the end. -/
def Cut (count : Nat) (as : List (Arrival α)) : Prop :=
  as.length = count ∨ ¬ Unended as

/-- What taking `count` elements has come to when the source has answered `asked`. -/
structure Taken (count : Nat) (answers asked : List (Answer α)) : Prop where
  pulls : pullsBegun asked ≤ count
  /-- The source is pulled in the pulls of the stage only. -/
  paced : pullsBegun asked ≤ pullsBegun answers
  handed : ∃ n, arrivals answers = arrivals asked ++ List.replicate n .ended ∧
    (0 < n → Cut count (arrivals asked))

/-- The source is not asked any more: so much has arrived, or a failure. The lasting form does not
ask it behind its end either. -/
def Closed (lasting : Bool) (count : Nat) (asked : List (Answer α)) : Prop :=
  (arrivals asked).length = count ∨ (∃ e, .fail e ∈ asked) ∨ lasting = true ∧ .done ∈ asked

/-- What the next poll of a stage in state `t` comes to, which takes `count` elements and whose
source has answered `asked`. -/
structure Prompt (lasting : Bool) (count : Nat) (source : Machine ω α)
    (t : (source.via (takeFirst lasting count)).guarded.State) (asked : List (Answer α)) :
    Prop where
  /-- The end is reported at once, and nothing else happens. -/
  closed : Closed lasting count asked → ∀ now w,
    (source.via (takeFirst lasting count)).guarded.poll t now w = (.done, t, w)
  /-- What the source answers is the answer, so the stage waits when its source does. -/
  hands : ¬ Closed lasting count asked → ∀ now w,
    let below := source.poll t.1.1 now w
    let polled := (source.via (takeFirst lasting count)).guarded.poll t now w
    polled.1 = below.1 ∧ polled.2.1.1.1 = below.2.1 ∧ polled.2.2 = below.2.2

/-- What is left to take. The lasting form takes nothing behind an end. -/
inductive Remaining (lasting : Bool) (count : Nat) (asked : List (Answer α)) : Nat → Prop where
  | counted {remaining} : remaining + (arrivals asked).length = count →
      (lasting = true → .done ∉ asked) → Remaining lasting count asked remaining
  | ended : lasting = true → .done ∈ asked → (arrivals asked).length ≤ count →
      Remaining lasting count asked 0

namespace Remaining

variable {asked : List (Answer α)} {remaining : Nat}

theorem bound (left : Remaining lasting count asked remaining) :
    (arrivals asked).length + remaining ≤ count := by
  cases left with
  | counted same => omega
  | ended _ _ bound => exact bound

/-- Nothing is left exactly when the source is not asked any more, failures apart. -/
theorem closed_iff (left : Remaining lasting count asked remaining)
    (clean : ∀ e, .fail e ∉ asked) : Closed lasting count asked ↔ remaining = 0 := by
  cases left with
  | counted same more =>
    constructor
    · rintro (all | ⟨e, fails⟩ | ⟨lasts, done⟩)
      · omega
      · exact absurd fails (clean e)
      · exact absurd done (more lasts)
    · rintro rfl
      exact .inl (by omega)
  | ended lasts done => exact ⟨fun _ => rfl, fun _ => .inr (.inr ⟨lasts, done⟩)⟩

/-- With nothing left nothing is handed on any more. -/
theorem cut (left : Remaining lasting count asked 0) : Cut count (arrivals asked) := by
  cases left with
  | counted same => exact .inl (by omega)
  | ended _ done =>
    right
    intro unended
    have last := unended .ended (ended_mem_arrivals.mpr done)
    cases last

theorem quiet (left : Remaining lasting count asked remaining) {a : Answer α}
    (nothing : a.arrival? = none) : Remaining lasting count (asked ++ [a]) remaining := by
  have same := arrivals_quiet asked nothing
  cases left with
  | counted left more =>
    refine .counted (same ▸ left) fun lasts done => ?_
    rcases List.mem_append.mp done with old | new
    · exact more lasts old
    · rw [← List.mem_singleton.mp new] at nothing
      cases nothing
  | ended lasting done bound =>
    exact .ended lasting (List.mem_append_left _ done) (same ▸ bound)

/-- An arrival is counted, unless it is the end and the form lasts. -/
theorem arrived (left : Remaining lasting count asked remaining) (more : remaining ≠ 0)
    {a : Answer α} {b : Arrival α} (arrives : a.arrival? = some b)
    (unfinished : lasting = true → a ≠ .done) :
    Remaining lasting count (asked ++ [a]) (remaining - 1) := by
  cases left with
  | counted left goesOn =>
    refine .counted ?_ fun lasts done => ?_
    · rw [length_arrivals_concat, arrives, Option.isSome_some, if_pos rfl]
      omega
    · rcases List.mem_append.mp done with old | new
      · exact goesOn lasts old
      · exact unfinished lasts (List.mem_singleton.mp new).symm
  | ended => exact absurd rfl more

/-- The end is counted, or leaves nothing to take. -/
theorem done (left : Remaining lasting count asked remaining) (more : remaining ≠ 0) :
    Remaining lasting count (asked ++ [.done]) (if lasting then 0 else remaining - 1) := by
  cases lasting with
  | false => exact left.arrived more (a := .done) rfl nofun
  | true =>
    refine .ended rfl (by simp) ?_
    have bound := left.bound
    rw [length_arrivals_concat]
    simp only [Answer.arrival?, Option.isSome_some, if_true]
    omega

end Remaining

/-! ### Every use -/

/-- What a stage has come to with so much left. -/
structure Takes (lasting : Bool) (count remaining : Nat) (answers asked : List (Answer α)) :
    Prop where
  left : Remaining lasting count asked remaining
  pulls : pullsBegun asked ≤ count
  paced : pullsBegun asked ≤ pullsBegun answers
  handed : ∃ n, arrivals answers = arrivals asked ++ List.replicate n .ended ∧
    (0 < n → remaining = 0)

namespace Takes

variable {answers asked : List (Answer α)} {remaining : Nat}

/-- With nothing left the stage reports the end by itself. -/
theorem close (takes : Takes lasting count 0 answers asked) :
    Takes lasting count 0 (answers ++ [.done]) asked where
  left := takes.left
  pulls := takes.pulls
  paced := by
    rw [pullsBegun_concat]
    have more := (length_arrivals_le answers).2
    have bound := takes.paced
    have more' := (length_arrivals_le asked).2
    obtain ⟨n, handed, -⟩ := takes.handed
    have length := congrArg List.length handed
    rw [List.length_append] at length
    omega
  handed := by
    obtain ⟨n, handed, -⟩ := takes.handed
    refine ⟨n + 1, ?_, fun _ => rfl⟩
    rw [arrivals_concat, handed, List.replicate_succ', List.append_assoc]
    rfl

/-- The source has been asked, and its answer handed on. -/
theorem ask (takes : Takes lasting count remaining answers asked) (more : remaining ≠ 0)
    {remaining' : Nat} {a : Answer α} (left : Remaining lasting count (asked ++ [a]) remaining') :
    Takes lasting count remaining' (answers ++ [a]) (asked ++ [a]) := by
  obtain ⟨n, handed, closed⟩ := takes.handed
  have none : n = 0 := Nat.eq_zero_of_not_pos fun ends => more (closed ends)
  rw [none, List.replicate_zero, List.append_nil] at handed
  have bound := takes.left.bound
  refine ⟨left, ?_, ?_, 0, ?_, fun ends => absurd ends (Nat.lt_irrefl 0)⟩
  · rw [pullsBegun_concat]
    omega
  · refine Nat.le_of_eq ?_
    rw [pullsBegun_concat, pullsBegun_concat, handed]
  · rw [arrivals_concat, arrivals_concat, handed, List.replicate_zero, List.append_nil]

end Takes

/-- By itself the stage reports the end only, with nothing left. -/
theorem takeFirst_before {remaining : Nat} {now : Time} {w : ω} {r : Answer α × Nat × ω}
    (own : (takeFirst (ω := ω) (α := α) lasting count).before remaining now w = some r) :
    remaining = 0 ∧ r = (.done, 0, w) := by
  simp only [takeFirst] at own
  split at own
  · rename_i none
    exact ⟨none, (Option.some.inj own).symm⟩
  · cases own

theorem takeFirst_asks {remaining : Nat} {now : Time} {w : ω}
    (asks : (takeFirst (ω := ω) (α := α) lasting count).before remaining now w = none) :
    remaining ≠ 0 := by
  rintro rfl
  cases asks

/-- However the stage is used, it is where the answers of its source have brought it. -/
theorem reach_takes {s : (source.via (takeFirst lasting count)).State} {answers : List (Answer α)}
    (reached : (source.via (takeFirst lasting count)).Reach s answers) :
    ∃ asked, source.Reach s.1 asked ∧ Takes lasting count s.2 answers asked := by
  induction reached with
  | start =>
    exact ⟨[], .start, .counted (Nat.add_zero _) fun _ => List.not_mem_nil, Nat.zero_le _,
      Nat.le_refl _, 0, rfl, fun ends => absurd ends (Nat.lt_irrefl 0)⟩
  | tick _ now w ih =>
    obtain ⟨asked, below, takes⟩ := ih
    exact ⟨asked, below.tick now w, takes⟩
  | @poll s answers _ now w ih =>
    obtain ⟨asked, below, takes⟩ := ih
    obtain ⟨r, remaining⟩ := s
    have polled := Machine.via_poll source (takeFirst lasting count) (r, remaining) now w
    generalize (source.via (takeFirst lasting count)).poll (r, remaining) now w = answer at polled
    have next := below.poll now w
    cases polled with
    | before own =>
      obtain ⟨rfl, rfl⟩ := takeFirst_before own
      exact ⟨asked, below, takes.close⟩
    | item own answered =>
      rw [answered] at next
      have more := takeFirst_asks own
      exact ⟨_, next, takes.ask more (takes.left.arrived more rfl fun _ => nofun)⟩
    | fail own answered =>
      rw [answered] at next
      have more := takeFirst_asks own
      exact ⟨_, next, takes.ask more (takes.left.arrived more rfl fun _ => nofun)⟩
    | done own answered =>
      rw [answered] at next
      exact ⟨_, next, takes.ask (takeFirst_asks own) (takes.left.done (takeFirst_asks own))⟩
    | pass own answered notFail notDone =>
      rw [answered] at next
      have more := takeFirst_asks own
      exact ⟨_, next, takes.ask more (takes.left.quiet (Answer.arrival?_signal notFail notDone))⟩

/-- A stage that has handed on no failure reports the end when nothing is left, and else asks its
source. -/
theorem Remaining.prompt {s : (source.via (takeFirst lasting count)).State}
    {asked : List (Answer α)} (left : Remaining lasting count asked s.2)
    (clean : ∀ e, .fail e ∉ asked) : Prompt lasting count source (s, false) asked := by
  constructor
  · intro closed now w
    have none := (left.closed_iff clean).mp closed
    obtain ⟨r, remaining⟩ := s
    cases none
    rfl
  · intro more now w
    have more : s.2 ≠ (0 : Nat) := fun none => more ((left.closed_iff clean).mpr none)
    have asks := Machine.via_poll source (takeFirst lasting count) s now w
    rw [Machine.guarded_poll_going]
    generalize (source.via (takeFirst lasting count)).poll s now w = answer at asks
    cases asks with
    | before own => exact absurd (takeFirst_before own).1 more
    | item _ answered => rw [answered]; exact ⟨rfl, rfl, rfl⟩
    | fail _ answered => rw [answered]; exact ⟨rfl, rfl, rfl⟩
    | done _ answered => rw [answered]; exact ⟨rfl, rfl, rfl⟩
    | pass _ answered => rw [answered]; exact ⟨rfl, rfl, rfl⟩

/-- However a sequence of the first elements is used, its source has been pulled so often at
most, and what has arrived from it has been handed on. When all that is to be taken has arrived, the
end is reported at once, and before that the source is asked. -/
theorem guarded_taken {t : (source.via (takeFirst lasting count)).guarded.State}
    {answers : List (Answer α)}
    (reached : (source.via (takeFirst lasting count)).guarded.Reach t answers) :
    ∃ asked, source.Reach t.1.1 asked ∧ Taken count answers asked ∧
      Prompt lasting count source t asked := by
  cases reached.guarded with
  | going below clean =>
    obtain ⟨asked, below, takes⟩ := reach_takes below
    obtain ⟨n, handed, closed⟩ := takes.handed
    refine ⟨asked, below, ⟨takes.pulls, takes.paced, n, handed,
      fun more => (closed more ▸ takes.left).cut⟩, takes.left.prompt fun e fails => clean e ?_⟩
    rw [← failure_mem_arrivals, handed]
    exact List.mem_append_left _ (failure_mem_arrivals.mpr fails)
  | @failed s taken e n below clean =>
    obtain ⟨asked, below, takes⟩ := reach_takes below
    obtain ⟨k, handed, -⟩ := takes.handed
    -- The failure was the last arrival, so there is no end behind it so far.
    have none : k = 0 := by
      cases k with
      | zero => rfl
      | succ k =>
        rw [arrivals_concat, List.replicate_succ', ← List.append_assoc] at handed
        cases List.append_inj_right' handed rfl
    rw [none, List.replicate_zero, List.append_nil] at handed
    have ends : arrivals (taken ++ [.fail e] ++ List.replicate n .done) =
        arrivals asked ++ List.replicate n .ended := by
      rw [← handed, arrivals, arrivals, List.filterMap_append, List.filterMap_replicate]
      rfl
    have last : Arrival.failure e ∈ arrivals asked := by
      rw [← handed, arrivals_concat]
      simp [Answer.arrival?]
    refine ⟨asked, below, ⟨takes.pulls, ?_, n, ends, fun _ => .inr fun unended => ?_⟩,
      fun _ _ _ => rfl, fun more => absurd ?_ more⟩
    · have more := congrArg List.length ends
      rw [List.length_append, List.length_replicate] at more
      have bound := (length_arrivals_le (taken ++ [.fail e] ++ List.replicate n .done)).1
      have same := pullsBegun_of_arrival taken (a := .fail e) rfl
      have paced := takes.paced
      rw [same, handed] at paced
      omega
    · cases unended _ last
    · exact .inr (.inl ⟨e, failure_mem_arrivals.mp last⟩)

/-! ### The script -/

/-- The first so many arrivals, and the end behind them. -/
def Script.cut (count : Nat) (script : Script α) : Script α :=
  fun i => if i < count then script i else some .ended

/-- What has been drained from a stage with so much left, when `bs` has been drained from its
source: the same, and an end behind it when nothing is left. -/
inductive Drawn (count : Nat) (bs : List (Arrival α)) : Nat → List (Arrival α) → Prop where
  | within {remaining} : bs.length ≤ count → (Unended bs → remaining + bs.length = count) →
      Drawn count bs remaining bs
  | full {remaining} : bs.length = count → Drawn count bs remaining (bs ++ [.ended])

/-- Something has arrived, and is counted if more may arrive. -/
theorem Drawn.concat {as : List (Arrival α)} {remaining remaining' : Nat} {b : Arrival α}
    (left : remaining + as.length = count) (more : remaining ≠ 0)
    (counts : b.isLast = false → remaining' = remaining - 1) :
    Drawn count (as ++ [b]) remaining' (as ++ [b]) := by
  have length : (as ++ [b]).length = as.length + 1 := by simp
  refine .within (by omega) fun unended => ?_
  have less := counts (unended b (by simp))
  omega

/-- A stage that is drained has its source drained. -/
theorem draining_takes {s : (source.via (takeFirst lasting count)).State} {as : List (Arrival α)}
    (draining : (source.via (takeFirst lasting count)).Draining s as) :
    ∃ bs, source.Draining s.1 bs ∧ Drawn count bs s.2 as := by
  induction draining with
  | start => exact ⟨[], .start, .within (Nat.zero_le _) fun _ => rfl⟩
  | tick _ now w ih =>
    obtain ⟨bs, below, drawn⟩ := ih
    exact ⟨bs, below.tick now w, drawn⟩
  | @poll s as _ unended now w ih =>
    obtain ⟨bs, below, drawn⟩ := ih
    obtain ⟨r, remaining⟩ := s
    have polled := Machine.via_poll source (takeFirst lasting count) (r, remaining) now w
    generalize (source.via (takeFirst lasting count)).poll (r, remaining) now w = answer at polled
    cases drawn with
    | full => cases unended .ended (by simp)
    | within bound counted =>
      have left := counted unended
      have next := below.poll unended now w
      cases polled with
      | before own =>
        obtain ⟨rfl, rfl⟩ := takeFirst_before own
        exact ⟨as, below, .full (by rwa [Nat.zero_add] at left)⟩
      | item own answered =>
        rw [answered] at next
        exact ⟨_, next, .concat left (takeFirst_asks own) fun _ => rfl⟩
      | fail own answered =>
        rw [answered] at next
        exact ⟨_, next, .concat left (takeFirst_asks own) nofun⟩
      | done own answered =>
        rw [answered] at next
        exact ⟨_, next, .concat left (takeFirst_asks own) nofun⟩
      | @pass g p own answered notFail notDone =>
        have nothing : (Answer.signal g : Answer α).arrival? = none :=
          Answer.arrival?_signal notFail notDone
        rw [answered, nothing, Option.toList_none, List.append_nil] at next
        rw [nothing, Option.toList_none, List.append_nil]
        exact ⟨as, next, .within bound counted⟩

/-- Whatever the source has behind the first elements is not to be seen. -/
theorem take_goesBy {script : Script α} (goes : source.GoesBy script) :
    (source.via (takeFirst lasting count)).guarded.GoesBy (script.cut count) := by
  intro t as draining
  obtain ⟨bs, below, drawn⟩ := draining_takes draining.guarded.1
  have first : bs.length ≤ count → (script.cut count).Begins bs := by
    intro bound i a there
    have inside := (List.getElem?_eq_some_iff.mp there).1
    rw [Script.cut, if_pos (Nat.lt_of_lt_of_le inside bound)]
    exact goes below there
  cases drawn with
  | within bound => exact first bound
  | full full =>
    have next : script.cut count bs.length = some .ended := by
      rw [Script.cut, if_neg (Nat.not_lt_of_le (Nat.le_of_eq full.symm))]
    exact (first (Nat.le_of_eq full)).concat next

end PullStream
