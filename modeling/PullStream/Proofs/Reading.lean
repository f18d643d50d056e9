import PullStream.Proofs.Stage.Delivering
import PullStream.Proofs.Stage.Retelling

/-!
Readings: a sequence as a list of items, with one failure behind them or none.

If the results of step functions depend on the element and its index only, then what a telling
hands out does not depend on the world, and each stage is a function on readings. Up to the first
element on which the step function fails, and that failure, elements have their outputs in order,
whatever the failure of the input behind them.

* `Reading.each`, `Reading.takeWhile`, `Reading.take` to `Reading.append` — these functions.
* `Reading.each_of_ok`, `Reading.each_of_error` — what `each` comes to.
* `Telling.Reads` — a telling hands out what a reading says, in every world.
-/

namespace PullStream

variable {ω α β κ : Type}

/-- Items, and the failure behind them if there is one. -/
structure Reading (α : Type) where
  items : List α
  fault : Option Failure := none

namespace Reading

/-- What is handed out. -/
def entries (r : Reading α) : List (Except Failure α) :=
  sourceOf r.items r.fault

/-- With other items before. -/
def after (as : List α) (r : Reading α) : Reading α :=
  { r with items := as ++ r.items }

/-! ### Functions on readings -/

/-- The outputs of the items, from index `i` on, up to the first failure. -/
def eachFrom (f : α → Nat → Except Failure (List β)) (fault : Option Failure) :
    Nat → List α → Reading β
  | _, [] => ⟨[], fault⟩
  | i, a :: rest =>
    match f a i with
    | .ok bs => (eachFrom f fault (i + 1) rest).after bs
    | .error e => ⟨[], some e⟩

/-- The outputs of the items up to the first failure. -/
def each (f : α → Nat → Except Failure (List β)) (r : Reading α) : Reading β :=
  eachFrom f r.fault 0 r.items

/-- The items from index `i` on, up to the first on which `p` says no or fails. -/
def takeWhileFrom (p : α → Nat → Except Failure Bool) (fault : Option Failure) :
    Nat → List α → Reading α
  | _, [] => ⟨[], fault⟩
  | i, a :: rest =>
    match p a i with
    | .ok true => (takeWhileFrom p fault (i + 1) rest).after [a]
    | .ok false => ⟨[], none⟩
    | .error e => ⟨[], some e⟩

/-- The items up to the first on which `p` says no or fails. -/
def takeWhile (p : α → Nat → Except Failure Bool) (r : Reading α) : Reading α :=
  takeWhileFrom p r.fault 0 r.items

/-- The first `n` items; with fewer of them, everything. -/
def take (n : Nat) (r : Reading α) : Reading α :=
  ⟨r.items.take n, if n ≤ r.items.length then none else r.fault⟩

/-- All but the first `n` items; the failure stays. -/
def skip (n : Nat) (r : Reading α) : Reading α :=
  ⟨r.items.drop n, r.fault⟩

/-- The items whose key neither is in `seen` nor was an earlier one's. -/
def firsts [DecidableEq κ] (key : α → κ) : List κ → List α → List α
  | _, [] => []
  | seen, a :: rest =>
    if key a ∈ seen then firsts key seen rest else a :: firsts key (key a :: seen) rest

/-- The first item of each key. -/
def distinct [DecidableEq κ] (key : α → κ) (r : Reading α) : Reading α :=
  ⟨firsts key [] r.items, r.fault⟩

/-- Each item but the first with the one before it. -/
def pairwise (r : Reading α) : Reading (α × α) :=
  ⟨r.items.zip r.items.tail, r.fault⟩

/-- `value` alone if there is neither an item nor a failure. -/
def orItem (value : α) (r : Reading α) : Reading α :=
  match r with
  | ⟨[], none⟩ => ⟨[value], none⟩
  | r => r

/-- The items in order, or the failure alone. -/
def sort (notAfter : α → α → Bool) (r : Reading α) : Reading α :=
  match r.fault with
  | none => ⟨r.items.mergeSort notAfter, none⟩
  | some e => ⟨[], some e⟩

/-- Another reading behind, unless there is a failure. -/
def append (r t : Reading α) : Reading α :=
  match r.fault with
  | none => t.after r.items
  | some e => ⟨r.items, some e⟩

/-! ### What `each` comes to -/

section Each

variable {f : α → Nat → Except Failure (List β)} {out : α → Nat → List β}

theorem eachFrom_append {fault : Option Failure} (rest : List α) (before : List α) (i : Nat)
    (clean : ∀ n a, before[n]? = some a → f a (i + n) = .ok (out a (i + n))) :
    eachFrom f fault i (before ++ rest) =
      (eachFrom f fault (i + before.length) rest).after
        (before.mapIdx fun n a => out a (i + n)).flatten := by
  induction before generalizing i with
  | nil => simp [after]
  | cons a before ih =>
    have first : f a i = .ok (out a i) := clean 0 a rfl
    have later : ∀ n b, before[n]? = some b → f b (i + 1 + n) = .ok (out b (i + 1 + n)) := by
      intro n b here
      have same : i + 1 + n = i + (n + 1) := by omega
      rw [same]
      exact clean (n + 1) b here
    have shifted : (fun n b => out b (i + 1 + n)) = fun n b => out b (i + (n + 1)) := by
      funext n b
      rw [Nat.add_assoc, Nat.add_comm 1 n]
    have positions : i + 1 + before.length = i + (before.length + 1) := by omega
    rw [List.cons_append, eachFrom, first, ih (i + 1) later, shifted, positions, List.mapIdx_cons]
    simp [after]

/-- With no failure among the items, there are all their outputs, and the failure behind. -/
theorem each_of_ok {r : Reading α}
    (clean : ∀ n a, r.items[n]? = some a → f a n = .ok (out a n)) :
    r.each f = ⟨(r.items.mapIdx fun n a => out a n).flatten, r.fault⟩ := by
  have all : eachFrom f r.fault 0 (r.items ++ []) = _ :=
    eachFrom_append [] r.items 0 (by simpa using clean)
  simpa [each, eachFrom, after] using all

/-- A failing item comes behind the outputs of the items before it, and is the last. -/
theorem each_of_error {before rest : List α} {a : α} {e : Failure} {fault : Option Failure}
    (clean : ∀ n b, before[n]? = some b → f b n = .ok (out b n))
    (fails : f a before.length = .error e) :
    each f ⟨before ++ a :: rest, fault⟩ =
      ⟨(before.mapIdx fun n b => out b n).flatten, some e⟩ := by
  have all : eachFrom f fault 0 (before ++ a :: rest) = _ :=
    eachFrom_append (a :: rest) before 0 (by simpa using clean)
  simpa [each, eachFrom, Reading.after, fails] using all

end Each
end Reading

/-! ### Tellings that are read -/

namespace Telling

/-- Whatever the world, the telling hands out what the reading says. -/
inductive Reads : Telling ω α → Reading α → Prop where
  | done : Reads .done ⟨[], none⟩
  | fail {e} : Reads (.fail e) ⟨[], some e⟩
  | item {a S as fault} : Reads S ⟨as, fault⟩ → Reads (.item a S) ⟨a :: as, fault⟩
  | act {effect rest r} : (∀ now w, Reads (rest now w) r) → Reads (.act effect rest) r

namespace Reads

variable {S T : Telling ω α} {r t : Reading α}

theorem run_eq (reads : S.Reads r) (visitor : Visitor ω) (k : Nat) (now : Time) (w : ω) :
    (S.run visitor k now w).1 = r.entries := by
  induction reads generalizing k now w with
  | done => rfl
  | fail => rfl
  | @item a S as fault _ ih =>
    have rest := ih (k + 1) (visitor (k + 1) w).1 (visitor (k + 1) w).2
    exact congrArg (.ok a :: ·) rest
  | act _ ih => exact ih now w k now _

theorem call {ρ : Type} {f : Time → ω → ρ × ω} {next : ρ → Telling ω α} {result : ρ}
    (gives : ∀ now w, (f now w).1 = result) (reads : (next result).Reads r) :
    (Telling.call f next).Reads r := by
  apply Reads.act
  intro now w
  rw [gives]
  exact reads

theorem items (reads : S.Reads r) (as : List α) : (Telling.items as S).Reads (r.after as) := by
  induction as with
  | nil => exact reads
  | cons a as ih => exact .item ih

theorem results (xs : List α) (fault : Option Failure) :
    (Telling.results (sourceOf xs fault) : Telling ω α).Reads ⟨xs, fault⟩ := by
  induction xs with
  | nil =>
    cases fault with
    | none => exact .done
    | some e => exact .fail
  | cons a xs ih => exact .item ih

/-! ### The functions -/

theorem map {f : Step ω α β} {g : α → Nat → Except Failure β} (reads : S.Reads r)
    (gives : f.Gives g) (i : Nat) :
    (S.map f i).Reads
      (Reading.eachFrom (fun a i => (g a i).map fun b => [b]) r.fault i r.items) := by
  induction reads generalizing i with
  | done => exact .done
  | fail => exact .fail
  | act _ ih => exact .act fun now w => ih now w i
  | @item a S as fault _ ih =>
    refine .call (gives a i) ?_
    rw [Reading.eachFrom]
    cases g a i with
    | error e => exact .fail
    | ok b => exact .item (ih (i + 1))

theorem filter {p : Step ω α Bool} {g : α → Nat → Except Failure Bool} (reads : S.Reads r)
    (gives : p.Gives g) (i : Nat) :
    (S.filter p i).Reads
      (Reading.eachFrom (fun a i => (g a i).map fun yes => if yes then [a] else []) r.fault i
        r.items) := by
  induction reads generalizing i with
  | done => exact .done
  | fail => exact .fail
  | act _ ih => exact .act fun now w => ih now w i
  | @item a S as fault _ ih =>
    refine .call (gives a i) ?_
    rw [Reading.eachFrom]
    cases g a i with
    | error e => exact .fail
    | ok yes =>
      cases yes with
      | true => exact .item (ih (i + 1))
      | false => exact ih (i + 1)

theorem flatMap {f : Step ω α (List β)} {g : α → Nat → Except Failure (List β)}
    (reads : S.Reads r) (gives : f.Gives g) (i : Nat) :
    (S.flatMap f i).Reads (Reading.eachFrom g r.fault i r.items) := by
  induction reads generalizing i with
  | done => exact .done
  | fail => exact .fail
  | act _ ih => exact .act fun now w => ih now w i
  | @item a S as fault _ ih =>
    refine .call (gives a i) ?_
    rw [Reading.eachFrom]
    cases g a i with
    | error e => exact .fail
    | ok bs => exact (ih (i + 1)).items bs

theorem takeWhile {p : Step ω α Bool} {g : α → Nat → Except Failure Bool} (reads : S.Reads r)
    (gives : p.Gives g) (i : Nat) :
    (S.takeWhile p i).Reads (Reading.takeWhileFrom g r.fault i r.items) := by
  induction reads generalizing i with
  | done => exact .done
  | fail => exact .fail
  | act _ ih => exact .act fun now w => ih now w i
  | @item a S as fault _ ih =>
    refine .call (gives a i) ?_
    rw [Reading.takeWhileFrom]
    cases g a i with
    | error e => exact .fail
    | ok yes =>
      cases yes with
      | true => exact .item (ih (i + 1))
      | false => exact .done

theorem take (reads : S.Reads r) (n : Nat) : (S.take n).Reads (r.take n) := by
  induction reads generalizing n with
  | done => cases n <;> exact .done
  | @fail e =>
    cases n with
    | zero => exact .done
    | succ n => exact .fail
  | @act effect rest r _ ih =>
    cases n with
    | zero => exact .done
    | succ n => exact .act fun now w => ih now w (n + 1)
  | @item a S as fault reads ih =>
    cases n with
    | zero => exact .done
    | succ n =>
      have told : (S.item a |>.take (n + 1)).Reads ⟨a :: as.take n, _⟩ := .item (ih n)
      simpa [Reading.take] using told

theorem skip (reads : S.Reads r) (n : Nat) : (S.skip n).Reads (r.skip n) := by
  induction reads generalizing n with
  | done => cases n <;> exact .done
  | fail => cases n <;> exact .fail
  | act _ ih => cases n <;> exact .act fun now w => ih now w _
  | @item a S as fault reads ih =>
    cases n with
    | zero => exact .item (ih 0)
    | succ n => exact ih n

theorem distinct [DecidableEq κ] (reads : S.Reads r) (key : α → κ) (seen : List κ) :
    (S.distinct key seen).Reads ⟨Reading.firsts key seen r.items, r.fault⟩ := by
  induction reads generalizing seen with
  | done => exact .done
  | fail => exact .fail
  | act _ ih => exact .act fun now w => ih now w seen
  | @item a S as fault reads ih =>
    by_cases member : key a ∈ seen
    · have rest := ih seen
      simpa [Telling.distinct, Reading.firsts, member] using rest
    · have rest := Reads.item (a := a) (ih (key a :: seen))
      simpa [Telling.distinct, Reading.firsts, member] using rest

theorem pairwise_some (reads : S.Reads r) (b : α) :
    (S.pairwise (some b)).Reads ⟨(b :: r.items).zip r.items, r.fault⟩ := by
  induction reads generalizing b with
  | done => exact .done
  | fail => exact .fail
  | act _ ih => exact .act fun now w => ih now w b
  | @item a S as fault reads ih => exact .item (ih a)

theorem pairwise (reads : S.Reads r) : (S.pairwise none).Reads r.pairwise := by
  induction reads with
  | done => exact .done
  | fail => exact .fail
  | act _ ih => exact .act ih
  | @item a S as fault reads ih => exact reads.pairwise_some a

theorem orItem (reads : S.Reads r) (value : α) : (S.orItem value).Reads (r.orItem value) := by
  induction reads with
  | done => exact .item .done
  | fail => exact .fail
  | act _ ih => exact .act ih
  | item reads => exact .item reads

theorem sort (reads : S.Reads r) (notAfter : α → α → Bool) (taken : List α) :
    (S.sort notAfter taken).Reads ((r.after taken).sort notAfter) := by
  induction reads generalizing taken with
  | done =>
    have ended : (Telling.done : Telling ω α).Reads ⟨[], none⟩ := .done
    have handed := ended.items ((taken ++ []).mergeSort notAfter)
    simpa [Telling.sort, Reading.sort, Reading.after] using handed
  | fail => exact .fail
  | act _ ih => exact .act fun now w => ih now w taken
  | @item a S as fault reads ih =>
    have rest := ih (taken ++ [a])
    simpa [Telling.sort, Reading.after] using rest

theorem append (reads : S.Reads r) (reads' : T.Reads t) : (S.append T).Reads (r.append t) := by
  induction reads with
  | done => exact reads'
  | fail => exact .fail
  | act _ ih => exact .act ih
  | @item a S as fault reads ih =>
    cases fault with
    | none => exact .item ih
    | some e => exact .item ih

end Reads
end Telling
end PullStream
