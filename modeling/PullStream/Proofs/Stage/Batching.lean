import PullStream.Proofs.Machine.Delivery
import PullStream.Proofs.Parallel.Reference
import PullStream.Proofs.Stage.Via
import PullStream.Stage.Collecting

/-!
What batching makes of its source.

The elements fall into full batches and what is left over, and there is one way only to cut
them so. Which batches a stage has delivered is told by what its source has answered: at every
moment they are all that can be made of it, so a full batch is handed out in the poll that gets
its last element.

* `fullBatches`, `leftOver`, `batches` — how a source is cut.
* `fullBatches_flatten_append`, `flatten_fullBatches` — there is one way to do it.
* `Gathered` — what has been delivered, by what the source has answered.
* `Filled`, `Paced`, `reach_filled` — how far the stage has come, however it is used.
-/

namespace PullStream

variable {ω α : Type} {size width : Nat}

/-! ### Cutting a list -/

/-- The elements in full batches: the `j`-th one begins at the element `j * size`. -/
def fullBatches (size : Nat) (xs : List α) : List (List α) :=
  (List.range (xs.length / size)).map fun j => (xs.drop (j * size)).take size

/-- The elements behind the last full batch. -/
def leftOver (size : Nat) (xs : List α) : List α :=
  xs.drop (xs.length / size * size)

/-- What batching is to deliver for a source: its full batches, and behind them its failure, or
a batch of what is left over. -/
def batches (size : Nat) (xs : List α) : Option Failure → List (Except Failure (List α))
  | some e => (fullBatches size xs).map .ok ++ [.error e]
  | none => (fullBatches size xs).map .ok ++
      if leftOver size xs = [] then [] else [.ok (leftOver size xs)]

@[simp] theorem length_fullBatches (xs : List α) :
    (fullBatches size xs).length = xs.length / size := by
  simp [fullBatches]

theorem length_leftOver (xs : List α) : (leftOver size xs).length = xs.length % size := by
  rw [leftOver, List.length_drop, Nat.mod_eq_sub, Nat.mul_comm]

theorem length_of_mem_fullBatches {xs batch : List α} (member : batch ∈ fullBatches size xs) :
    batch.length = size := by
  obtain ⟨j, inside, rfl⟩ := List.mem_map.mp member
  have bound : j + 1 ≤ xs.length / size := List.mem_range.mp inside
  have enough : (j + 1) * size ≤ xs.length :=
    Nat.le_trans (Nat.mul_le_mul_right size bound) (Nat.div_mul_le_self _ _)
  rw [Nat.succ_mul] at enough
  rw [List.length_take, List.length_drop]
  omega

/-- Too few elements make no batch. -/
theorem fullBatches_short {rest : List α} (short : rest.length < size) :
    fullBatches size rest = [] := by
  rw [fullBatches, Nat.div_eq_of_lt short]
  rfl

theorem leftOver_short {rest : List α} (short : rest.length < size) :
    leftOver size rest = rest := by
  rw [leftOver, Nat.div_eq_of_lt short, Nat.zero_mul, List.drop_zero]

section Positive

variable (positive : 0 < size)
include positive

theorem leftOver_lt (xs : List α) : (leftOver size xs).length < size :=
  length_leftOver xs ▸ Nat.mod_lt _ positive

/-- A batch in front of other elements is the first of their full batches. -/
theorem fullBatches_append {batch : List α} (full : batch.length = size) (xs : List α) :
    fullBatches size (batch ++ xs) = batch :: fullBatches size xs := by
  have count : (batch ++ xs).length / size = xs.length / size + 1 := by
    rw [List.length_append, full, Nat.add_div_left _ positive]
  rw [fullBatches, count, List.range_succ_eq_map, List.map_cons, List.map_map, Nat.zero_mul,
    List.drop_zero, List.take_left' full]
  refine congrArg (batch :: ·) (List.map_congr_left fun j _ => ?_)
  have start : (j + 1) * size = batch.length + j * size := by
    rw [full, Nat.succ_mul, Nat.add_comm]
  rw [Function.comp_apply, Nat.succ_eq_add_one, start, List.drop_length_add_append]

theorem leftOver_append {batch : List α} (full : batch.length = size) (xs : List α) :
    leftOver size (batch ++ xs) = leftOver size xs := by
  have start : (batch ++ xs).length / size * size = batch.length + xs.length / size * size := by
    rw [List.length_append, full, Nat.add_div_left _ positive, Nat.succ_mul, Nat.add_comm]
  rw [leftOver, start, List.drop_length_add_append, leftOver]

/-- Pieces of the right length in front of other elements are the first of their full batches,
and what is left over is left over behind them. -/
theorem fullBatches_flatten_append {pieces : List (List α)}
    (full : ∀ piece ∈ pieces, piece.length = size) (xs : List α) :
    fullBatches size (pieces.flatten ++ xs) = pieces ++ fullBatches size xs ∧
      leftOver size (pieces.flatten ++ xs) = leftOver size xs := by
  induction pieces with
  | nil => exact ⟨rfl, rfl⟩
  | cons piece pieces ih =>
    have first := full piece List.mem_cons_self
    obtain ⟨batches, left⟩ := ih fun other member => full other (List.mem_cons_of_mem _ member)
    rw [List.flatten_cons, List.append_assoc]
    constructor
    · rw [fullBatches_append positive first, batches, List.cons_append]
    · rw [leftOver_append positive first, left]

/-- Nothing is lost by cutting. -/
theorem flatten_fullBatches (xs : List α) :
    (fullBatches size xs).flatten ++ leftOver size xs = xs := by
  induction count : xs.length using Nat.strongRecOn generalizing xs with
  | ind n ih =>
    by_cases short : xs.length < size
    · rw [fullBatches_short short, leftOver_short short]
      rfl
    · have full : (xs.take size).length = size := by
        rw [List.length_take]
        omega
      have fewer : (xs.drop size).length < n := by
        rw [List.length_drop]
        omega
      have rest := ih _ fewer (xs.drop size) rfl
      have cut : xs = xs.take size ++ xs.drop size := (List.take_append_drop size xs).symm
      rw [cut, fullBatches_append positive full, leftOver_append positive full, List.flatten_cons,
        List.append_assoc, rest]

/-- More elements behind some leave the full batches of those as they are. -/
theorem fullBatches_append_right (xs ys : List α) :
    fullBatches size (xs ++ ys) = fullBatches size xs ++ fullBatches size (leftOver size xs ++ ys) ∧
      leftOver size (xs ++ ys) = leftOver size (leftOver size xs ++ ys) := by
  have full : ∀ piece ∈ fullBatches size xs, piece.length = size :=
    fun _ member => length_of_mem_fullBatches member
  have cut := fullBatches_flatten_append positive full (leftOver size xs ++ ys)
  rwa [← List.append_assoc, flatten_fullBatches positive] at cut

/-- All batches of a source that ends are its elements. -/
theorem flatten_batches (xs : List α) : (itemsOf (batches size xs none)).flatten = xs := by
  have whole := flatten_fullBatches positive xs
  rw [batches, itemsOf_append, itemsOf_map_ok]
  split
  · rename_i nothing
    rw [nothing, List.append_nil] at whole
    rw [show itemsOf [] = ([] : List (List α)) from rfl, List.append_nil, whole]
  · rw [show itemsOf [.ok (leftOver size xs)] = [leftOver size xs] from rfl,
      List.flatten_append, List.flatten_singleton, whole]

theorem fullBatches_mono {xs ys : List α} (first : xs <+: ys) :
    fullBatches size xs <+: fullBatches size ys := by
  obtain ⟨rest, rfl⟩ := first
  rw [(fullBatches_append_right positive xs rest).1]
  exact List.prefix_append _ _

/-- One more element that does not make a batch is left over. -/
theorem fullBatches_concat_short {xs : List α} (short : (leftOver size xs).length + 1 < size)
    (a : α) : fullBatches size (xs ++ [a]) = fullBatches size xs ∧
      leftOver size (xs ++ [a]) = leftOver size xs ++ [a] := by
  obtain ⟨batches, left⟩ := fullBatches_append_right positive xs [a]
  have few : (leftOver size xs ++ [a]).length < size := by simpa using short
  rw [batches, left, fullBatches_short few, leftOver_short few, List.append_nil]
  exact ⟨rfl, rfl⟩

/-- One more element may complete a batch. -/
theorem fullBatches_concat_full {xs : List α} (full : (leftOver size xs).length + 1 = size)
    (a : α) :
    fullBatches size (xs ++ [a]) = fullBatches size xs ++ [leftOver size xs ++ [a]] ∧
      leftOver size (xs ++ [a]) = [] := by
  obtain ⟨batches, left⟩ := fullBatches_append_right positive xs [a]
  have enough : (leftOver size xs ++ [a]).length = size := by simpa using full
  have next := fullBatches_append positive enough []
  have behind := leftOver_append positive enough []
  have none : ([] : List α).length < size := positive
  rw [List.append_nil, fullBatches_short none] at next
  rw [List.append_nil, leftOver_short none] at behind
  rw [batches, left, next, behind]
  exact ⟨rfl, rfl⟩

end Positive

/-! ### What a source has answered -/

/-- What batching has delivered when its source has answered so much: the full batches, and
behind a failure or the end, which the source is not asked after, what becomes of the rest. -/
inductive Gathered (size : Nat) :
    List (Answer α) → List (Except Failure (List α)) → Prop where
  | going {asked} : (∀ e, .fail e ∉ asked) → .done ∉ asked →
      Gathered size asked ((fullBatches size (itemsOf (outputs asked))).map .ok)
  | failed {asked} (e : Failure) : (∀ e, .fail e ∉ asked) → .done ∉ asked →
      Gathered size (asked ++ [.fail e]) (batches size (itemsOf (outputs asked)) (some e))
  | ended {asked} : (∀ e, .fail e ∉ asked) → .done ∉ asked →
      Gathered size (asked ++ [.done]) (batches size (itemsOf (outputs asked)) none)

theorem not_mem_concat {answers : List (Answer α)} {a b : Answer α} (old : a ∉ answers)
    (new : a ≠ b) : a ∉ answers ++ [b] := by
  simp [old, new]

/-! ### Filling batches -/

open Transducer (Batching batch)

/-- The batches of a stage whose source has answered `asked`: while it goes on it holds what is
left over so far. -/
inductive Filled (size : Nat) (m : Batching α) (answers : List (Answer (List α)))
    (asked : List (Answer α)) : Prop where
  | going : m.ended = false → (∀ e, .fail e ∉ asked) → .done ∉ asked → .done ∉ answers →
      m.taken.reverse = leftOver size (itemsOf (outputs asked)) → m.count = m.taken.length →
      outputs answers = (fullBatches size (itemsOf (outputs asked))).map .ok →
      Filled size m answers asked
  | finished : m.ended = true → (.done ∈ asked ∨ ∃ e, .fail e ∈ asked) →
      Gathered size asked (outputs answers) → Filled size m answers asked

namespace Filled

variable {m : Batching α} {answers : List (Answer (List α))} {asked : List (Answer α)}

theorem gathered (filled : Filled size m answers asked) :
    Gathered size asked (outputs answers) := by
  cases filled with
  | going _ clean unended _ _ _ delivered => exact delivered ▸ .going clean unended
  | finished _ _ gathered => exact gathered

/-- The end is reported behind an end or a failure of the source only. -/
theorem closed (filled : Filled size m answers asked) (done : .done ∈ answers) :
    .done ∈ asked ∨ ∃ e, .fail e ∈ asked := by
  cases filled with
  | going _ _ _ unfinished => exact absurd done unfinished
  | finished _ closed _ => exact closed

/-- An answer of its own that delivers nothing changes nothing. -/
theorem own (filled : Filled size m answers asked) {m' : Batching α} {b : Answer (List α)}
    (same : m'.taken = m.taken ∧ m'.count = m.count ∧ m'.ended = m.ended)
    (nothing : b.output? = none) (ends : b = .done → m.ended = true) :
    Filled size m' (answers ++ [b]) asked := by
  obtain ⟨taken, count, ended⟩ := same
  have delivers : outputs (answers ++ [b]) = outputs answers := by
    rw [outputs_append, outputs_singleton, nothing, Option.toList_none, List.append_nil]
  cases filled with
  | going open' clean unended unfinished held counted delivered =>
    have notDone : .done ≠ b := fun same => by simp [ends same.symm] at open'
    exact .going (ended.trans open') clean unended (not_mem_concat unfinished notDone)
      (taken ▸ held) (by rw [count, counted, taken]) (delivers.trans delivered)
  | finished isOver closed gathered =>
    exact .finished (ended.trans isOver) closed (delivers ▸ gathered)

/-- A signal that passes through changes nothing. -/
theorem pass (filled : Filled size m answers asked) (open' : m.ended = false) {g : Signal}
    (notFail : ∀ e, g ≠ .fail e) (notDone : g ≠ .done) :
    Filled size m (answers ++ [.signal g]) (asked ++ [.signal g]) := by
  cases filled with
  | going _ clean unended unfinished held counted delivered =>
    have nothing : (Answer.signal g : Answer α).output? = none := Answer.output?_signal notFail
    have nothing' : (Answer.signal g : Answer (List α)).output? = none :=
      Answer.output?_signal notFail
    have same : outputs (asked ++ [.signal g]) = outputs asked := by
      rw [outputs_append, outputs_singleton, nothing, Option.toList_none, List.append_nil]
    refine .going open' (fun e => not_mem_concat (clean e) ?_) (not_mem_concat unended ?_)
      (not_mem_concat unfinished ?_) (same ▸ held) counted ?_
    · exact fun same => notFail e (Answer.signal.inj same).symm
    · exact fun same => notDone (Answer.signal.inj same).symm
    · exact fun same => notDone (Answer.signal.inj same).symm
    · rw [same, ← delivered, outputs_append, outputs_singleton, nothing', Option.toList_none,
        List.append_nil]
  | finished isOver => simp [isOver] at open'

/-- An element is kept, or completes a batch, which is handed out at once. -/
theorem item (positive : 0 < size) (filled : Filled size m answers asked)
    (open' : m.ended = false) (width : Nat) (a : α) (now : Time) (w : ω) :
    let r := (batch size width).item m a now w
    Filled size r.2.1 (answers ++ [r.1]) (asked ++ [.item a]) := by
  intro r
  cases filled with
  | finished isOver => simp [isOver] at open'
  | going _ clean unended unfinished held counted delivered =>
    have more : itemsOf (outputs (asked ++ [.item a])) = itemsOf (outputs asked) ++ [a] := by
      simp [itemsOf, Except.toOption]
    have length : (leftOver size (itemsOf (outputs asked))).length = m.count := by
      rw [← held, List.length_reverse, counted]
    have within := leftOver_lt positive (itemsOf (outputs asked))
    have clean' : ∀ e, .fail e ∉ asked ++ [.item a] := fun e => not_mem_concat (clean e) (by simp)
    have unended' : .done ∉ asked ++ [.item a] := not_mem_concat unended (by simp)
    by_cases short : m.count + 1 < size
    · have result : r = (.skip, { m with taken := a :: m.taken, count := m.count + 1 }, w) :=
        if_pos short
      obtain ⟨same, left⟩ := fullBatches_concat_short positive (length ▸ short) a
      rw [result]
      refine .going open' clean' unended' (not_mem_concat unfinished (by simp)) ?_ ?_ ?_
      · rw [more, left, ← held, List.reverse_cons]
      · rw [counted, List.length_cons]
      · rw [more, same, outputs_append, outputs_skip, List.append_nil, delivered]
    · have result : r = (.item (a :: m.taken).reverse, {}, w) := if_neg short
      have full : (leftOver size (itemsOf (outputs asked))).length + 1 = size := by omega
      obtain ⟨same, left⟩ := fullBatches_concat_full positive full a
      rw [result]
      refine .going rfl clean' unended' (not_mem_concat unfinished (by simp)) ?_ rfl ?_
      · rw [more, left]
        rfl
      · rw [more, same, outputs_append, outputs_item, delivered, List.map_append, ← held,
          List.reverse_cons]
        rfl

/-- A failure takes the place of what is left over. -/
theorem fail (filled : Filled size m answers asked) (open' : m.ended = false) (width : Nat)
    (e : Failure) (now : Time) (w : ω) :
    let r := (batch size width).fail m e now w
    Filled size r.2.1 (answers ++ [r.1]) (asked ++ [.fail e]) := by
  intro r
  cases filled with
  | finished isOver => simp [isOver] at open'
  | going _ clean unended unfinished held counted delivered =>
    refine .finished rfl (.inr ⟨e, by simp⟩) ?_
    have whole : outputs (answers ++ [r.1]) = batches size (itemsOf (outputs asked)) (some e) := by
      rw [outputs_append, delivered]
      rfl
    exact whole ▸ .failed e clean unended

/-- At the end what is left over is a batch. -/
theorem done (filled : Filled size m answers asked) (open' : m.ended = false) (width : Nat)
    (now : Time) (w : ω) :
    let r := (batch size width).done m now w
    Filled size r.2.1 (answers ++ [r.1]) (asked ++ [.done]) := by
  intro r
  cases filled with
  | finished isOver => simp [isOver] at open'
  | going _ clean unended unfinished held counted delivered =>
    refine .finished rfl (.inl (by simp)) ?_
    have whole : outputs (answers ++ [r.1]) = batches size (itemsOf (outputs asked)) none := by
      rw [outputs_append, delivered, batches, ← held]
      cases taken : m.taken with
      | nil => simp [r, batch, taken]
      | cons a rest => simp [r, batch, taken]
    exact whole ▸ .ended clean unended

end Filled

/-- With no batch begun behind one that has just been handed out, all elements so far are in the
batches. -/
theorem Filled.prompt (positive : 0 < size) {m : Batching α} {before : List (Answer (List α))}
    {b : List α} {asked : List (Answer α)} (filled : Filled size m (before ++ [.item b]) asked)
    (empty : m.taken = []) :
    (itemsOf (outputs (before ++ [.item b]))).flatten = itemsOf (outputs asked) := by
  have whole := flatten_fullBatches positive (itemsOf (outputs asked))
  cases filled with
  | going _ clean unended unfinished held counted delivered =>
    rw [empty, List.reverse_nil] at held
    rwa [delivered, itemsOf_map_ok, ← List.append_nil (List.flatten _), held]
  | finished _ closed gathered =>
    generalize same : outputs (before ++ [.item b]) = out at gathered
    cases gathered with
    | going clean unended =>
      rcases closed with done | ⟨e, failed⟩
      · exact absurd done unended
      · exact absurd failed (clean e)
    | failed e clean unended =>
      rw [outputs_append, outputs_item, batches] at same
      have last := List.append_inj_right' same rfl
      simp at last
    | @ended asked clean unended =>
      rw [outputs_append, outputs_done, List.append_nil]
      exact flatten_batches positive _

/-- The polls of a stage whose source has answered `asked`: it waits when the source waits,
breaks down when the source does, begins no batch when it hands one out, and adds a poll for
each batch it begins. -/
structure Paced (m : Batching α) (answers : List (Answer (List α))) (asked : List (Answer α)) :
    Prop where
  empty : ∀ before b, answers = before ++ [.item b] → m.taken = []
  waits : answers.countP Answer.isWait = asked.countP Answer.isWait
  sound : ∀ message, .crash message ∈ answers → .crash message ∈ asked
  paced : .done ∉ answers →
    busyPolls answers ≤ busyPolls asked + (outputs answers).length + if m.reserved then 1 else 0

namespace Paced

variable {m m' : Batching α} {answers : List (Answer (List α))} {asked : List (Answer α)}

/-- Room is reserved once for a batch. -/
theorem reserve (h : Paced m answers asked) (fresh : m.reserved = false)
    (reserved : m'.reserved = true) : Paced m' (answers ++ [.skip]) asked where
  empty before b same := by simp at same
  waits := by simpa [Answer.isWait] using h.waits
  sound message broken := h.sound message (by simpa using broken)
  paced unended := by
    have bound := h.paced fun old => unended (by simp [old])
    rw [fresh] at bound
    rw [busyPolls_concat, outputs_append, outputs_skip, List.append_nil, reserved]
    simp only [Answer.isWait, Bool.false_eq_true, if_false, if_true] at bound ⊢
    omega

/-- Nothing counts behind the end. -/
theorem close (h : Paced m answers asked) : Paced m (answers ++ [.done]) asked where
  empty before b same := by simp at same
  waits := by simpa [Answer.isWait] using h.waits
  sound message broken := h.sound message (by simpa using broken)
  paced unended := absurd (by simp) unended

/-- The source has been asked. -/
theorem ask (h : Paced m answers asked) {a : Answer α} {b : Answer (List α)}
    (waits : b.isWait = a.isWait) (sound : ∀ message, b = .crash message → a = .crash message)
    (pays : b.output? = none → m.reserved = true → m'.reserved = true)
    (handed : ∀ x, b = .item x → m'.taken = []) :
    Paced m' (answers ++ [b]) (asked ++ [a]) where
  empty before x same := handed x (List.singleton_inj.mp (List.append_inj_right' same rfl))
  waits := by
    rw [List.countP_append, List.countP_append, h.waits, List.countP_singleton,
      List.countP_singleton, waits]
  sound message broken := by
    rcases List.mem_append.mp broken with old | new
    · exact List.mem_append_left _ (h.sound message old)
    · rw [sound message (List.mem_singleton.mp new).symm]
      simp
  paced unended := by
    have bound := h.paced fun old => unended (by simp [old])
    rw [busyPolls_concat, busyPolls_concat, outputs_append, outputs_singleton, List.length_append,
      waits]
    cases delivers : b.output? with
    | some r =>
      simp only [Option.toList_some, List.length_singleton]
      split at bound <;> split <;> split <;> omega
    | none =>
      have keeps := pays delivers
      simp only [Option.toList_none, List.length_nil]
      cases reserved : m.reserved with
      | true =>
        rw [keeps reserved]
        rw [reserved] at bound
        omega
      | false =>
        rw [reserved] at bound
        simp only [Bool.false_eq_true, if_false] at bound
        omega

end Paced

/-! ### Every use -/

/-- A stage that asks its source has reserved room for the batch. -/
theorem batch_asks {m : Batching α} {now : Time} {w : ω}
    (asks : (batch size width).before m now w = none) : m.ended = false ∧ m.reserved = true := by
  simp only [batch] at asks
  split at asks
  · cases asks
  · rename_i open'
    split at asks
    · rename_i reserved
      exact ⟨by simpa using open', reserved⟩
    · split at asks <;> cases asks

/-- By itself a stage reports its end, or reserves room. -/
theorem batch_answers (fits : size ≤ Transducer.roomFor width) {m : Batching α} {now : Time}
    {w : ω} {r : Answer (List α) × Batching α × ω}
    (own : (batch size width).before m now w = some r) :
    m.ended = true ∧ r = (.done, m, w) ∨
      m.reserved = false ∧ r = (.skip, { m with reserved := true }, w) := by
  simp only [batch] at own
  split at own
  · rename_i ended
    exact .inl ⟨ended, (Option.some.inj own).symm⟩
  · split at own
    · cases own
    · rename_i fresh
      exact .inr ⟨by simpa using fresh, (Option.some.inj own).symm⟩

variable {input : Machine ω α}

/-- However a batching stage is used, it has delivered what can be made of the answers of its
source, and waits only when the source does. -/
theorem reach_filled (positive : 0 < size) (fits : size ≤ Transducer.roomFor width)
    {s : (input.via (batch size width)).State} {answers : List (Answer (List α))}
    (reached : (input.via (batch size width)).Reach s answers) :
    ∃ asked, input.Reach s.1 asked ∧ Filled size s.2 answers asked ∧ Paced s.2 answers asked := by
  induction reached with
  | start =>
    have none : ([] : List α).length < size := positive
    refine ⟨[], .start, .going rfl (by simp) (by simp) (by simp) ?_ rfl ?_, by simp, rfl,
      by simp, ?_⟩
    · exact (leftOver_short none).symm
    · exact congrArg (List.map Except.ok) (fullBatches_short none).symm
    · exact fun _ => Nat.zero_le _
  | tick _ now w ih =>
    obtain ⟨asked, source, rest⟩ := ih
    exact ⟨asked, source.tick now w, rest⟩
  | @poll s answers _ now w ih =>
    obtain ⟨asked, source, filled, paced⟩ := ih
    have polled := Machine.via_poll input (batch size width) s now w
    generalize (input.via (batch size width)).poll s now w = answer at polled
    have next := source.poll now w
    cases polled with
    | before own =>
      refine ⟨asked, source, ?_⟩
      rcases batch_answers fits own with ⟨ended, rfl⟩ | ⟨fresh, rfl⟩
      · exact ⟨filled.own ⟨rfl, rfl, rfl⟩ rfl fun _ => ended, paced.close⟩
      · exact ⟨filled.own ⟨rfl, rfl, rfl⟩ rfl (fun same => by cases same), paced.reserve fresh rfl⟩
    | @item a p own asks =>
      rw [asks] at next
      have open' := (batch_asks own).1
      refine ⟨_, next, filled.item positive open' width a now p.2, ?_⟩
      simp only [Machine.react, batch]
      split
      · exact paced.ask rfl nofun (fun _ reserved => reserved) nofun
      · exact paced.ask rfl nofun nofun fun _ _ => rfl
    | @fail e p own asks =>
      rw [asks] at next
      have open' := (batch_asks own).1
      refine ⟨_, next, filled.fail open' width e now p.2, ?_⟩
      exact paced.ask rfl nofun nofun nofun
    | @done p own asks =>
      rw [asks] at next
      have open' := (batch_asks own).1
      refine ⟨_, next, filled.done open' width now p.2, ?_⟩
      simp only [Machine.react, batch]
      split
      · exact paced.ask rfl nofun (fun _ reserved => reserved) nofun
      · exact paced.ask rfl nofun nofun fun _ _ => rfl
    | @pass g p own asks notFail notDone =>
      rw [asks] at next
      refine ⟨_, next, filled.pass (batch_asks own).1 notFail notDone, ?_⟩
      refine paced.ask (by cases g <;> rfl) (fun message same => ?_) (fun _ reserved => reserved)
        nofun
      cases same
      rfl

end PullStream
