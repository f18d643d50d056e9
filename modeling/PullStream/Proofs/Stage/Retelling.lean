import PullStream.Proofs.Stage.Via
import PullStream.Proofs.Telling
import PullStream.Stage.Collecting
import PullStream.Stage.Elementwise

/-!
What stages make of a telling.

Each stage has a function on tellings, by recursion along the items. The index that a step
function is called with is the position in the input of its own stage; a failure is passed on,
whatever the stage does with items.

* `Telling.map` to `Telling.append` — these functions.
* `Retells`, `via_plays` — a stage that retells what its input tells.
* `map_retells` to `sort_retells` — the stages.
-/

namespace PullStream

variable {ω α β κ : Type}

/-! ### Functions on tellings -/

namespace Telling

/-- Some items, and then something else. -/
def items (as : List α) (rest : Telling ω α) : Telling ω α :=
  as.foldr .item rest

/-- The results of a list, up to the first failure. -/
def results : List (Except Failure α) → Telling ω α
  | [] => .done
  | .ok a :: rest => .item a (results rest)
  | .error e :: _ => .fail e

/-- Each item replaced by the step function's result. -/
def map (f : Step ω α β) : Nat → Telling ω α → Telling ω β
  | _, .done => .done
  | _, .fail e => .fail e
  | i, .act effect rest => .act effect fun now w => map f i (rest now w)
  | i, .item a rest => .call (f a i) fun
    | .ok b => .item b (map f (i + 1) rest)
    | .error e => .fail e

/-- The items on which the step function says yes. -/
def filter (p : Step ω α Bool) : Nat → Telling ω α → Telling ω α
  | _, .done => .done
  | _, .fail e => .fail e
  | i, .act effect rest => .act effect fun now w => filter p i (rest now w)
  | i, .item a rest => .call (p a i) fun
    | .ok true => .item a (filter p (i + 1) rest)
    | .ok false => filter p (i + 1) rest
    | .error e => .fail e

/-- The items before the first on which the step function says no. -/
def takeWhile (p : Step ω α Bool) : Nat → Telling ω α → Telling ω α
  | _, .done => .done
  | _, .fail e => .fail e
  | i, .act effect rest => .act effect fun now w => takeWhile p i (rest now w)
  | i, .item a rest => .call (p a i) fun
    | .ok true => .item a (takeWhile p (i + 1) rest)
    | .ok false => .done
    | .error e => .fail e

/-- The items of the collections that the step function gives. -/
def flatMap (f : Step ω α (List β)) : Nat → Telling ω α → Telling ω β
  | _, .done => .done
  | _, .fail e => .fail e
  | i, .act effect rest => .act effect fun now w => flatMap f i (rest now w)
  | i, .item a rest => .call (f a i) fun
    | .ok bs => items bs (flatMap f (i + 1) rest)
    | .error e => .fail e

/-- The first items. After the last of them nothing else happens. -/
def take : Nat → Telling ω α → Telling ω α
  | 0, _ => .done
  | _ + 1, .done => .done
  | _ + 1, .fail e => .fail e
  | n + 1, .act effect rest => .act effect fun now w => take (n + 1) (rest now w)
  | n + 1, .item a rest => .item a (take n rest)

theorem take_zero (S : Telling ω α) : S.take 0 = .done := by
  cases S <;> rfl

/-- Everything but the first items; a failure among them is not skipped. -/
def skip : Nat → Telling ω α → Telling ω α
  | _, .done => .done
  | _, .fail e => .fail e
  | n, .act effect rest => .act effect fun now w => skip n (rest now w)
  | 0, .item a rest => .item a (skip 0 rest)
  | n + 1, .item _ rest => skip n rest

/-- The items whose key has not been seen. -/
def distinct [DecidableEq κ] (key : α → κ) : List κ → Telling ω α → Telling ω α
  | _, .done => .done
  | _, .fail e => .fail e
  | seen, .act effect rest => .act effect fun now w => distinct key seen (rest now w)
  | seen, .item a rest =>
    if key a ∈ seen then distinct key seen rest else .item a (distinct key (key a :: seen) rest)

/-- Each item with the one before it. -/
def pairwise : Option α → Telling ω α → Telling ω (α × α)
  | _, .done => .done
  | _, .fail e => .fail e
  | before, .act effect rest => .act effect fun now w => pairwise before (rest now w)
  | none, .item a rest => pairwise (some a) rest
  | some b, .item a rest => .item (b, a) (pairwise (some a) rest)

/-- The telling itself, or an item if it has neither an item nor a failure. -/
def orItem (value : α) : Telling ω α → Telling ω α
  | .done => .item value .done
  | .fail e => .fail e
  | .act effect rest => .act effect fun now w => orItem value (rest now w)
  | .item a rest => .item a rest

/-- The items in order, with those that have been taken; at a failure there are none. -/
def sort (notAfter : α → α → Bool) : List α → Telling ω α → Telling ω α
  | taken, .done => items (taken.mergeSort notAfter) .done
  | _, .fail e => .fail e
  | taken, .act effect rest => .act effect fun now w => sort notAfter taken (rest now w)
  | taken, .item a rest => sort notAfter (taken ++ [a]) rest

/-- One telling after another, which is not reached after a failure. -/
def append : Telling ω α → Telling ω α → Telling ω α
  | .done, T => T
  | .fail e, _ => .fail e
  | .act effect rest, T => .act effect fun now w => append (rest now w) T
  | .item a rest, T => .item a (append rest T)

theorem Comes.append {now : Time} {S S' : Telling ω α} {w w' : ω}
    (comes : Comes now S w S' w') (T : Telling ω α) :
    Comes now (S.append T) w (S'.append T) w' := by
  induction comes with
  | refl => exact .refl
  | act _ ih => exact .act ih

end Telling

/-! ### Stages -/

namespace Transducer

open Telling

/-- A stage that makes of what its input tells what `tell` says. As long as it has answers of its
own, `rank` falls; when it is closed it does not ask its input any more. -/
structure Retells (t : Transducer ω α β) (tell : t.Memory → Telling ω α → Telling ω β)
    (rank : t.Memory → Nat) (closed : t.Memory → Prop) : Prop where
  own : ∀ {m now w r} (S : Telling ω α), t.before m now w = some r →
    Answers now r.1 (tell m S) w (tell r.2.1 S) r.2.2 ∧
      (r.1.goesOn → rank r.2.1 < rank m ∧ (closed m → closed r.2.1) ∧ t.holds r.2.1 = t.holds m)
  shut : ∀ {m}, closed m → ∀ now w, t.before m now w ≠ none
  act : ∀ {m now w}, t.before m now w = none → ∀ effect (rest : Time → ω → Telling ω α),
    tell m (.act effect rest) = .act effect fun now w => tell m (rest now w)
  item : ∀ {m now w}, t.before m now w = none → ∀ a (S : Telling ω α) v,
    Answers now (t.item m a now v).1 (tell m (.item a S)) v (tell (t.item m a now v).2.1 S)
      (t.item m a now v).2.2 ∧ t.holds (t.item m a now v).2.1 = true
  fail : ∀ {m now w}, t.before m now w = none → ∀ e v,
    (t.fail m e now v).1 = .fail e ∧ (t.fail m e now v).2.2 = v ∧ tell m (.fail e) = .fail e
  done : ∀ {m now w}, t.before m now w = none → ∀ v,
    Answers now (t.done m now v).1 (tell m .done) v (tell (t.done m now v).2.1 .done)
      (t.done m now v).2.2 ∧ ((t.done m now v).1.goesOn → closed (t.done m now v).2.1)

namespace Retells

variable {t : Transducer ω α β} {tell : t.Memory → Telling ω α → Telling ω β}
  {rank : t.Memory → Nat} {closed : t.Memory → Prop} (retells : Retells t tell rank closed)
  {input : Machine ω α}
include retells

/-- What happens below a stage happens above it. -/
theorem comes {m : t.Memory} {now : Time} {w v v' : ω} {S S' : Telling ω α}
    (asks : t.before m now w = none) (below : Comes now S v S' v') :
    Comes now (tell m S) v (tell m S') v' := by
  induction below with
  | refl => exact .refl
  | act _ ih =>
    rw [retells.act asks]
    exact .act ih

/-- A closed stage hands out what it holds. -/
theorem plays_closed (S : Telling ω α) (s : input.State) (m : t.Memory) (shut : closed m) :
    (input.via t).Plays (s, m) (tell m S) := by
  induction bound : rank m using Nat.strongRecOn generalizing s m with
  | _ n ih =>
    subst bound
    apply Machine.Plays.of_poll
    intro now w
    have polled := Machine.via_poll input t (s, m) now w
    generalize (input.via t).poll (s, m) now w = answer at polled
    cases polled with
    | @before r own =>
      obtain ⟨answers, goes⟩ := retells.own S own
      refine ⟨_, answers, fun goesOn => ?_⟩
      obtain ⟨less, still, -⟩ := goes goesOn
      exact ih _ less _ _ (still shut) rfl
    | item own => exact absurd own (retells.shut shut now w)
    | fail own => exact absurd own (retells.shut shut now w)
    | done own => exact absurd own (retells.shut shut now w)
    | pass own => exact absurd own (retells.shut shut now w)

/-- A stage on a machine plays what it makes of the machine's telling. -/
theorem via_plays {S : Telling ω α} {s : input.State} (plays : input.Plays s S) (m : t.Memory) :
    (input.via t).Plays (s, m) (tell m S) := by
  induction plays generalizing m with
  | @mk s S next answers _ ih =>
    induction bound : rank m using Nat.strongRecOn generalizing m with
    | _ n inner =>
      subst bound
      apply Machine.Plays.of_poll
      intro now w
      have told := answers now w
      have goes := ih now w
      have polled := Machine.via_poll input t (s, m) now w
      generalize (input.via t).poll (s, m) now w = answer at polled
      cases polled with
      | @before r own =>
        obtain ⟨answers, goes⟩ := retells.own S own
        refine ⟨_, answers, fun goesOn => ?_⟩
        obtain ⟨less, -, holds⟩ := goes goesOn
        have stays : input.release t m r.2.1 s = s := by
          simp [Machine.release, holds]
        have rest := inner _ less _ rfl
        rw [Machine.react, stays]
        exact rest
      | @item a p own asked =>
        rw [asked] at told goes
        obtain ⟨answers, holds⟩ := retells.item own a (next now w) p.2
        refine ⟨_, .of_comes (retells.comes own told) answers, fun _ => ?_⟩
        rw [Machine.react, Machine.release_held _ holds]
        exact goes trivial _
      | @fail e p own asked =>
        rw [asked] at told
        obtain ⟨fails, same, passed⟩ := retells.fail own e p.2
        have above := retells.comes own told
        rw [passed] at above
        refine ⟨.done, ?_, ?_⟩
        · rw [Machine.react, fails, same]
          exact above
        · rw [Machine.react, fails]
          exact False.elim
      | @done p own asked =>
        rw [asked] at told
        obtain ⟨answers, shuts⟩ := retells.done own p.2
        refine ⟨_, .of_comes (retells.comes own told) answers, fun goesOn => ?_⟩
        exact retells.plays_closed _ _ _ (shuts goesOn)
      | @pass g p own asked notFail notDone =>
        rw [asked] at told goes
        cases g with
        | fail e => exact absurd rfl (notFail e)
        | done => exact absurd rfl notDone
        | skip => exact ⟨_, retells.comes own told, fun _ => goes trivial m⟩
        | pause => exact told.elim
        | wait => exact told.elim
        | crash message => exact told.elim

end Retells

/-! ### The stages -/

/-- A stage that retells, has no answers of its own, and passes on failures and the end. -/
structure RetellsPlainly (t : Transducer ω α β) (tell : t.Memory → Telling ω α → Telling ω β) :
    Prop where
  before : ∀ m now w, t.before m now w = none := by intros; rfl
  holds : ∀ m, t.holds m = true := by intros; rfl
  fail : ∀ m e now w, t.fail m e now w = (.fail e, m, w) := by intros; rfl
  done : ∀ m now w, t.done m now w = (.done, m, w) := by intros; rfl
  tellDone : ∀ m, tell m .done = .done := by intros; rfl
  tellFail : ∀ m e, tell m (.fail e) = .fail e := by intros; rfl
  tellAct : ∀ m effect (rest : Time → ω → Telling ω α),
    tell m (.act effect rest) = .act effect fun now w => tell m (rest now w) := by intros; rfl
  item : ∀ m a now (S : Telling ω α) v,
    Answers now (t.item m a now v).1 (tell m (.item a S)) v (tell (t.item m a now v).2.1 S)
      (t.item m a now v).2.2

theorem RetellsPlainly.retells {t : Transducer ω α β}
    {tell : t.Memory → Telling ω α → Telling ω β} (plainly : RetellsPlainly t tell) :
    Retells t tell (fun _ => 0) fun _ => False where
  own {m now w r} S own := by
    rw [plainly.before] at own
    cases own
  shut := False.elim
  act _ := plainly.tellAct _
  item _ a S v := ⟨plainly.item _ a _ S v, plainly.holds _⟩
  fail _ e v := by
    rw [plainly.fail]
    exact ⟨rfl, rfl, plainly.tellFail _ e⟩
  done {m now w} _ v := by
    rw [plainly.done]
    refine ⟨?_, False.elim⟩
    rw [plainly.tellDone]
    exact .refl

theorem map_retells (f : Step ω α β) :
    RetellsPlainly (map f) fun (i : Nat) S => S.map f i where
  item (i : Nat) a now S v := by
    have called : Comes now (S.item a |>.map f i) v _ _ := .called
    change Answers now (.ofExcept (f a i now v).1) _ v (S.map f (i + 1)) (f a i now v).2
    rcases result : f a i now v with ⟨e | b, v'⟩
    · rwa [result] at called
    · rwa [result] at called

theorem filter_retells (p : Step ω α Bool) :
    RetellsPlainly (filter p) fun (i : Nat) S => S.filter p i where
  item (i : Nat) a now S v := by
    have called : Comes now (S.item a |>.filter p i) v _ _ := .called
    change Answers now (.ofDecision a (p a i now v).1) _ v (S.filter p (i + 1)) (p a i now v).2
    rcases result : p a i now v with ⟨e | _ | _, v'⟩
    · rwa [result] at called
    · rwa [result] at called
    · rwa [result] at called

theorem distinct_retells [DecidableEq κ] (key : α → κ) :
    RetellsPlainly (distinct key) fun (seen : List κ) (S : Telling ω α) => S.distinct key seen where
  item (seen : List κ) a now S v := by
    by_cases member : key a ∈ seen
    · have reaction : (distinct key).item seen a now v = (.skip, seen, v) := if_pos member
      have told : (S.item a).distinct key seen = S.distinct key seen := if_pos member
      rw [reaction, told]
      exact .refl
    · have reaction : (distinct key).item seen a now v = (.item a, key a :: seen, v) :=
        if_neg member
      have told : (S.item a).distinct key seen = .item a (S.distinct key (key a :: seen)) :=
        if_neg member
      rw [reaction, told]
      exact .refl

theorem pairwise_retells :
    RetellsPlainly pairwise fun (before : Option α) (S : Telling ω α) => S.pairwise before where
  tellDone := by intro m; cases m <;> rfl
  tellFail := by intro m e; cases m <;> rfl
  tellAct := by intro m effect rest; cases m <;> rfl
  item (before : Option α) a now S v := by
    cases before with
    | none => exact .refl
    | some b => exact .refl

theorem skipFirst_retells (count : Nat) :
    RetellsPlainly (skipFirst count) fun (n : Nat) (S : Telling ω α) => S.skip n where
  tellDone := by intro m; cases m <;> rfl
  tellFail := by intro m e; cases m <;> rfl
  tellAct := by intro m effect rest; cases m <;> rfl
  item (n : Nat) a now S v := by
    cases n with
    | zero => exact .refl
    | succ n => exact .refl

theorem takeFirst_retells (lasting : Bool) (count : Nat) :
    Retells (takeFirst lasting count) (fun (n : Nat) (S : Telling ω α) => S.take n)
      (fun _ => 0) fun (n : Nat) => n = 0 where
  own {n now w r} S own := by
    cases n with
    | zero =>
      cases own
      refine ⟨?_, False.elim⟩
      rw [Telling.take_zero]
      exact .refl
    | succ n => cases own
  shut {n} shut now w := by
    cases shut
    simp [takeFirst]
  act {n now w} asks effect rest := by
    cases n with
    | zero => cases asks
    | succ n => rfl
  item {n now w} asks a S v := by
    cases n with
    | zero => cases asks
    | succ n => exact ⟨.refl, rfl⟩
  fail {n now w} asks e v := by
    cases n with
    | zero => cases asks
    | succ n => exact ⟨rfl, rfl, rfl⟩
  done {n now w} asks v := by
    cases n with
    | zero => cases asks
    | succ n => exact ⟨.refl, False.elim⟩

/-- What `takeWhile` tells; nothing once an element has ended it. -/
def takenWhile (p : Step ω α Bool) (m : Taking) (S : Telling ω α) : Telling ω α :=
  if m.ended then .done else S.takeWhile p m.index

theorem takeWhile_retells (lasting : Bool) (p : Step ω α Bool) :
    Retells (takeWhile lasting p) (takenWhile p) (fun _ => 0) fun m : Taking => m.ended = true where
  own {m now w r} S own := by
    obtain ⟨i, ended⟩ := m
    cases ended with
    | true =>
      cases own
      exact ⟨.refl, False.elim⟩
    | false => cases own
  shut {m} shut now w := by
    have shut : m.ended = true := shut
    simp [takeWhile, shut]
  act {m now w} asks effect rest := by
    obtain ⟨i, ended⟩ := m
    cases ended with
    | true => cases asks
    | false => rfl
  item {m now w} asks a S v := by
    obtain ⟨i, ended⟩ := m
    cases ended with
    | true => cases asks
    | false =>
      have called : Comes now (S.item a |>.takeWhile p i) v _ _ := .called
      refine ⟨?_, rfl⟩
      rcases result : p a i now v with ⟨e | _ | _, v'⟩
      · have reaction : (takeWhile lasting p).item ⟨i, false⟩ a now v =
            (.fail e, ⟨i + 1, false⟩, v') := by
          simp [takeWhile, result, taken]
        rw [result] at called
        rw [reaction]
        exact called
      · have reaction : (takeWhile lasting p).item ⟨i, false⟩ a now v =
            (.done, ⟨i + 1, lasting⟩, v') := by
          simp [takeWhile, result, taken]
        rw [result] at called
        rw [reaction]
        exact called
      · have reaction : (takeWhile lasting p).item ⟨i, false⟩ a now v =
            (.item a, ⟨i + 1, false⟩, v') := by
          simp [takeWhile, result, taken]
        rw [result] at called
        rw [reaction]
        exact called
  fail {m now w} asks e v := by
    obtain ⟨i, ended⟩ := m
    cases ended with
    | true => cases asks
    | false => exact ⟨rfl, rfl, rfl⟩
  done {m now w} asks v := by
    obtain ⟨i, ended⟩ := m
    cases ended with
    | true => cases asks
    | false => exact ⟨.refl, False.elim⟩

/-- What `defaultIfEmpty` tells. -/
def filledFrom (value : α) (m : Filling) (S : Telling ω α) : Telling ω α :=
  match m with
  | .empty => S.orItem value
  | .filled => S
  | .ended => .done

theorem defaultIfEmpty_retells (value : α) :
    Retells (defaultIfEmpty value) (fun m (S : Telling ω α) => filledFrom value m S)
      (fun _ => 0) fun m : Filling => m = .ended where
  own {m now w r} S own := by
    cases m with
    | ended =>
      cases own
      exact ⟨.refl, False.elim⟩
    | empty => cases own
    | filled => cases own
  shut {m} shut now w := by
    cases shut
    simp [defaultIfEmpty]
  act {m now w} asks effect rest := by
    cases m with
    | ended => cases asks
    | empty => rfl
    | filled => rfl
  item {m now w} asks a S v := by
    cases m with
    | ended => cases asks
    | empty => exact ⟨.refl, rfl⟩
    | filled => exact ⟨.refl, rfl⟩
  fail {m now w} asks e v := by
    cases m with
    | ended => cases asks
    | empty => exact ⟨rfl, rfl, rfl⟩
    | filled => exact ⟨rfl, rfl, rfl⟩
  done {m now w} asks v := by
    cases m with
    | ended => cases asks
    | empty => exact ⟨.refl, fun _ => rfl⟩
    | filled => exact ⟨.refl, False.elim⟩

/-- What `flatMap` tells: what is left of a collection, and then, unless the input is used up,
the collections of what the input tells. -/
def flattened (f : Step ω α (List β)) (m : Flattening β) (S : Telling ω α) : Telling ω β :=
  items m.rest (if m.ended then .done else S.flatMap f m.index)

theorem flatMap_retells (lasting : Bool) (f : Step ω α (List β)) :
    Retells (flatMap lasting f) (flattened f) (fun m : Flattening β => m.rest.length)
      fun m : Flattening β => m.ended = true where
  own {m now w r} S own := by
    obtain ⟨i, rest, ended⟩ := m
    cases rest with
    | cons b rest =>
      cases own
      exact ⟨.refl, fun _ => ⟨Nat.lt_succ_self _, fun shut => shut, rfl⟩⟩
    | nil =>
      cases ended with
      | true =>
        cases own
        exact ⟨.refl, False.elim⟩
      | false => cases own
  shut {m} shut now w := by
    obtain ⟨i, rest, ended⟩ := m
    cases shut
    cases rest <;> simp [flatMap]
  act {m now w} asks effect rest := by
    obtain ⟨i, _ | ⟨b, left⟩, ended⟩ := m
    · cases ended with
      | true => cases asks
      | false => rfl
    · cases asks
  item {m now w} asks a S v := by
    obtain ⟨i, _ | ⟨b, left⟩, ended⟩ := m
    · cases ended with
      | true => cases asks
      | false =>
        have called : Comes now (S.item a |>.flatMap f i) v _ _ := .called
        rcases result : f a i now v with ⟨e | bs, v'⟩
        · have reaction : (flatMap lasting f).item ⟨i, [], false⟩ a now v =
              (.fail e, ⟨i + 1, [], false⟩, v') := by
            simp [flatMap, result]
          rw [result] at called
          rw [reaction]
          exact ⟨called, rfl⟩
        · have reaction : (flatMap lasting f).item ⟨i, [], false⟩ a now v =
              (.skip, ⟨i + 1, bs, false⟩, v') := by
            simp [flatMap, result]
          rw [result] at called
          rw [reaction]
          exact ⟨called, rfl⟩
    · cases asks
  fail {m now w} asks e v := by
    obtain ⟨i, _ | ⟨b, left⟩, ended⟩ := m
    · cases ended with
      | true => cases asks
      | false => exact ⟨rfl, rfl, rfl⟩
    · cases asks
  done {m now w} asks v := by
    obtain ⟨i, _ | ⟨b, left⟩, ended⟩ := m
    · cases ended with
      | true => cases asks
      | false => exact ⟨.refl, False.elim⟩
    · cases asks

/-- What `sort` tells. -/
def sorted (notAfter : α → α → Bool) (m : Sorting α) (S : Telling ω α) : Telling ω α :=
  match m with
  | .collecting taken => S.sort notAfter taken.reverse
  | .handing rest => items rest .done

theorem sort_retells (notAfter : α → α → Bool) :
    Retells (sort notAfter) (fun m (S : Telling ω α) => sorted notAfter m S)
      (fun m : Sorting α => match m with | .collecting _ => 0 | .handing rest => rest.length)
      fun m : Sorting α => ∃ rest, m = .handing rest where
  own {m now w r} S own := by
    rcases m with taken | _ | ⟨a, rest⟩
    · cases own
    · cases own
      exact ⟨.refl, False.elim⟩
    · cases own
      exact ⟨.refl, fun _ => ⟨Nat.lt_succ_self _, fun _ => ⟨rest, rfl⟩, rfl⟩⟩
  shut {m} shut now w := by
    obtain ⟨_ | ⟨a, rest⟩, rfl⟩ := shut <;> simp [sort]
  act {m now w} asks effect rest := by
    rcases m with taken | _ | ⟨a, left⟩
    · rfl
    · cases asks
    · cases asks
  item {m now w} asks a S v := by
    rcases m with taken | _ | ⟨b, left⟩
    · refine ⟨?_, rfl⟩
      have told :
          S.sort notAfter (a :: taken).reverse = S.sort notAfter (taken.reverse ++ [a]) := by
        rw [List.reverse_cons]
      change Comes now (S.sort notAfter (taken.reverse ++ [a])) v
        (S.sort notAfter (a :: taken).reverse) v
      rw [told]
      exact .refl
    · cases asks
    · cases asks
  fail {m now w} asks e v := by
    rcases m with taken | _ | ⟨b, left⟩
    · exact ⟨rfl, rfl, rfl⟩
    · cases asks
    · cases asks
  done {m now w} asks v := by
    rcases m with taken | _ | ⟨b, left⟩
    · exact ⟨.refl, fun _ => ⟨_, rfl⟩⟩
    · cases asks
    · cases asks

end Transducer

/-! ### Lists, and one sequence after another -/

namespace Machine

open Telling

theorem ofResults_plays (all rs : List (Except Failure α)) :
    (ofResults all : Machine ω α).Plays rs (results rs) := by
  induction rs with
  | nil =>
    apply Plays.of_poll
    exact fun now w => ⟨.done, .refl, False.elim⟩
  | cons r rs ih =>
    apply Plays.of_poll
    intro now w
    cases r with
    | ok a => exact ⟨results rs, .refl, fun _ => ih⟩
    | error e => exact ⟨.done, .refl, False.elim⟩

variable {first second : Machine ω α}

/-- Once the first is over, the second is played. -/
theorem append_plays_second {t : second.State} {T : Telling ω α} (plays : second.Plays t T)
    (s : first.State) : (first.append second).Plays (s, t, true) T := by
  induction plays with
  | mk next answers _ ih =>
    exact .mk next answers ih

theorem append_poll_done {s r : first.State} {t : second.State} {now : Time} {w w' : ω}
    (asked : first.poll s now w = (.done, r, w')) :
    (first.append second).poll (s, t, false) now w = (.skip, (first.drop r, t, true), w') := by
  simp [append, asked]

theorem append_poll_first {s r : first.State} {t : second.State} {now : Time} {w w' : ω}
    {a : Answer α} (asked : first.poll s now w = (a, r, w')) (goesOn : a ≠ .done) :
    (first.append second).poll (s, t, false) now w = (a, (r, t, false), w') := by
  simp only [append, asked, Bool.false_eq_true, if_false]

/-- A sequence plays its telling, and then the other plays its own unless there was a failure. -/
theorem append_plays {s : first.State} {S : Telling ω α} {t : second.State} {T : Telling ω α}
    (plays : first.Plays s S) (plays' : second.Plays t T) :
    (first.append second).Plays (s, t, false) (S.append T) := by
  induction plays with
  | @mk s S next answers _ ih =>
    apply Plays.of_poll
    intro now w
    have told := answers now w
    have goes := ih now w
    rcases asked : first.poll s now w with ⟨a, r, w'⟩
    rw [asked] at told goes
    cases a with
    | item a =>
      rw [append_poll_first asked (by simp)]
      exact ⟨_, told.append T, fun _ => goes trivial⟩
    | signal g =>
      cases g with
      | fail e =>
        rw [append_poll_first asked (by simp)]
        exact ⟨.done, told.append T, False.elim⟩
      | done =>
        rw [append_poll_done asked]
        exact ⟨T, told.append T, fun _ => append_plays_second plays' _⟩
      | skip =>
        rw [append_poll_first asked (by simp)]
        exact ⟨_, told.append T, fun _ => goes trivial⟩
      | pause => exact told.elim
      | wait => exact told.elim
      | crash message => exact told.elim

end Machine
end PullStream
