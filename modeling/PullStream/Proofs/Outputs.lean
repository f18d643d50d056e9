import PullStream.Machine

/-!
Outputs: what a list of answers has delivered.

An answer delivers an item, a failure, or nothing: the end, a skip, a pause, a
wait and a breakdown deliver nothing. Deliveries are written as results, so that
the outputs of a sequence and the list it is read from have one type.
-/

namespace PullStream

variable {α : Type}

/-- What an answer delivers, if anything. -/
def Answer.output? : Answer α → Option (Except Failure α)
  | .item a => some (.ok a)
  | .fail e => some (.error e)
  | _ => none

/-- A signal that is not a failure delivers nothing. -/
theorem Answer.output?_signal {g : Signal} (notFail : ∀ e, g ≠ .fail e) :
    (Answer.signal g : Answer α).output? = none := by
  cases g with
  | fail e => exact absurd rfl (notFail e)
  | _ => rfl

/-- Whether an answer is a failure. -/
def Answer.isFailure : Answer α → Bool
  | .fail _ => true
  | _ => false

/-- What a list of answers has delivered, in order. -/
def outputs (answers : List (Answer α)) : List (Except Failure α) :=
  answers.filterMap Answer.output?

/-- The items among results. -/
def itemsOf (results : List (Except Failure α)) : List α :=
  results.filterMap Except.toOption

@[simp] theorem outputs_nil : outputs ([] : List (Answer α)) = [] := rfl

@[simp] theorem outputs_append (as bs : List (Answer α)) :
    outputs (as ++ bs) = outputs as ++ outputs bs :=
  List.filterMap_append

theorem outputs_singleton (a : Answer α) : outputs [a] = a.output?.toList := by
  cases h : a.output? with
  | none => simp [outputs, h]
  | some r => simp [outputs, h]

@[simp] theorem outputs_item (a : α) : outputs [.item a] = [.ok a] := rfl

@[simp] theorem outputs_fail (e : Failure) : outputs [.fail e] = [(.error e : Except Failure α)] :=
  rfl

@[simp] theorem outputs_done : outputs [(.done : Answer α)] = [] := rfl

@[simp] theorem outputs_wait : outputs [(.wait : Answer α)] = [] := rfl

@[simp] theorem outputs_skip : outputs [(.skip : Answer α)] = [] := rfl

/-- A failure has been delivered exactly when it is one of the answers. -/
theorem error_mem_outputs {answers : List (Answer α)} {e : Failure} :
    .error e ∈ outputs answers ↔ .fail e ∈ answers := by
  rw [outputs, List.mem_filterMap]
  constructor
  · rintro ⟨a, member, output⟩
    cases a with
    | item b => simp [Answer.output?] at output
    | signal g =>
      cases g <;> simp [Answer.output?] at output
      exact output ▸ member
  · intro member
    exact ⟨_, member, rfl⟩

theorem Answer.isFailure_iff {a : Answer α} : a.isFailure = true ↔ ∃ e, a = .fail e := by
  unfold Answer.isFailure
  split
  · simp
  · rename_i other
    simpa using fun e h => other e h

theorem Answer.output?_eq_error {a : Answer α} {e : Failure} :
    a.output? = some (.error e) ↔ a = .fail e := by
  constructor
  · intro output
    cases a with
    | item a => cases output
    | signal g =>
      cases g with
      | fail e' =>
        cases output
        rfl
      | _ => cases output
  · rintro rfl
    rfl

/-! ### Counting -/

/-- Whether an answer is to wait. -/
def Answer.isWait : Answer α → Bool
  | .wait => true
  | _ => false

/-- How many polls did not wait. -/
def busyPolls (answers : List (Answer α)) : Nat :=
  answers.countP fun a => !a.isWait

/-- How many polls neither delivered anything nor waited. -/
def idlePolls (answers : List (Answer α)) : Nat :=
  answers.countP fun a => a.output?.isNone && !a.isWait

theorem busyPolls_concat (answers : List (Answer α)) (a : Answer α) :
    busyPolls (answers ++ [a]) = busyPolls answers + if a.isWait then 0 else 1 := by
  cases waits : a.isWait <;> simp [busyPolls, waits]

theorem idlePolls_concat (answers : List (Answer α)) (a : Answer α) :
    idlePolls (answers ++ [a]) =
      idlePolls answers + if a.output?.isNone && !a.isWait then 1 else 0 := by
  cases stands : a.output?.isNone && !a.isWait <;> simp [idlePolls, List.countP_append, stands]

/-- A poll that does not wait delivers something, or it is one of the idle ones. -/
theorem busyPolls_eq (answers : List (Answer α)) :
    busyPolls answers = (outputs answers).length + idlePolls answers := by
  induction answers with
  | nil => rfl
  | cons a answers ih =>
    simp only [busyPolls, idlePolls, outputs, List.countP_cons, List.filterMap_cons] at ih ⊢
    rw [ih]
    cases a with
    | item a => simp [Answer.isWait, Answer.output?]; omega
    | signal g => cases g <;> simp [Answer.isWait, Answer.output?] <;> omega

@[simp] theorem itemsOf_append (rs ss : List (Except Failure α)) :
    itemsOf (rs ++ ss) = itemsOf rs ++ itemsOf ss :=
  List.filterMap_append

end PullStream
