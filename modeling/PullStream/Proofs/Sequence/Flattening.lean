import PullStream.Proofs.Stage.Unfolding
import PullStream.Sequence

/-!
Flattening keeps the order and stops at the first failure.

A mapper chooses an inner sequence for each element, or gives a collection. What is handed out is
what the inner sequences have, one after the other, up to the first failure: of the source, of the
mapper or of an inner sequence. The mapper is called with an element when the inner sequences of all
elements before it have reported their ends, and behind the failure nobody is asked or called. Over
collections both stages hand out the same.

* `Flattens` — what it means for a stage.
* `flattening_in_order` — both stages.
-/

namespace PullStream

variable {ω ν α β ι : Type} {view : ω → ν}

namespace Nesting

/-- A stage that goes through the sequences inside its source. The source is in the state `below`,
and `asks` is the inner sequence that the stage asks, if there is one, in its state. -/
structure Flattens (source : Machine ω α) (inner : ι → Machine ω β)
    (g : α → Nat → Except Failure ι) (view : ω → ν) (note : Event α β ι → ν → ν)
    (stage : Machine ω β) (below : stage.State → source.State)
    (asks : stage.State → Option ((i : ι) × (inner i).State)) : Prop where
  /-- Up to the first failure or end, what has happened is a course. What has been handed out is
  what the inner sequences have, in order; when the mapper is called, one inner sequence has
  been opened for each element before, and has reported its end; and as long as more may be handed
  out, the inner sequence that the stage asks is the one that the course is at. -/
  told : ∀ {before s x answers}, stage.Uses view before s x answers →
    Unended (arrivals answers.dropLast) →
    ∃ events p, Followed source inner g note before (below s) x answers events p ∧
      Flattened inner g p (taken events) (arrivals answers) ∧
      (∀ earlier a n later, events = earlier ++ .called a n :: later →
        opened earlier = closed earlier ∧ (opened earlier).length = n) ∧
      (p ≠ .past → ∀ i t, asks s = some ⟨i, t⟩ →
        ∃ xs n, p = .within i xs n ∧ (inner i).Draining t (xs.map .item))
  /-- It waits for its source, for the mapper or for the inner sequence that it asks. -/
  waits : ∀ {before s x answers now w}, stage.Uses view before s x answers →
    Unended (arrivals answers) → (stage.poll s now w).1 = .wait →
    (source.poll (below s) now w).1 = .wait ∨ (∃ due ∈ stage.alarms s, now < due) ∨
      ∃ i t, asks s = some ⟨i, t⟩ ∧ ((inner i).poll t now w).1 = .wait
  /-- Behind the first failure it reports the end, and does nothing. -/
  stops : ∀ {s answers e}, stage.Reach s answers → .fail e ∈ answers →
    ∀ now w, stage.poll s now w = (.done, s, w)

theorem Followed.told {source : Machine ω α} {inner : ι → Machine ω β}
    {g : α → Nat → Except Failure ι} {note : Event α β ι → ν → ν} {before x : ν} {r : source.State}
    {answers : List (Answer β)} {events : List (Event α β ι)} {p : Place α β ι}
    (followed : Followed source inner g note before r x answers events p) :
    Flattened inner g p (taken events) (arrivals answers) ∧
      ∀ earlier a n later, events = earlier ++ .called a n :: later →
        opened earlier = closed earlier ∧ (opened earlier).length = n :=
  ⟨followed.handed ▸ followed.course.flattened, fun _ _ _ _ split => followed.course.calls split⟩

/-- Stages that go through the same inner sequences, over sources that go by one script, hand out
the same. -/
theorem Flattens.agree {source source' : Machine ω α} {inner : ι → Machine ω β}
    {g : α → Nat → Except Failure ι} {stage stage' : Machine ω β}
    {below : stage.State → source.State} {below' : stage'.State → source'.State}
    {asks : stage.State → Option ((i : ι) × (inner i).State)}
    {asks' : stage'.State → Option ((i : ι) × (inner i).State)}
    (flattens : Flattens source inner g (fun _ => ()) (fun _ _ => ()) stage below asks)
    (flattens' : Flattens source' inner g (fun _ => ()) (fun _ _ => ()) stage' below' asks')
    {script : Script α} {scripts : ι → Script β} (goes : source.GoesBy script)
    (goes' : source'.GoesBy script) (inside : ∀ i, (inner i).GoesBy (scripts i))
    {t : stage.State} {t' : stage'.State} {answers answers' : List (Answer β)}
    (reached : stage.Reach t answers) (reached' : stage'.Reach t' answers')
    (front : Unended (arrivals answers.dropLast)) (front' : Unended (arrivals answers'.dropLast)) :
    Agree (arrivals answers) (arrivals answers') := by
  obtain ⟨events, p, followed, flat, -⟩ := flattens.told reached.uses front
  obtain ⟨events', p', followed', flat', -⟩ := flattens'.told reached'.uses front'
  obtain ⟨r, draining, -⟩ := followed.drained
  obtain ⟨r', draining', -⟩ := followed'.drained
  exact flat.agree flat' (goes draining) (goes' draining') inside

end Nesting

namespace Sequence

open Nesting

variable (s : Sequence ω α) {note : Event α β ι → ν → ν}

theorem flatMapAsync_flattens {inner : ι → Sequence ω β} {f : SlowStep ω α ι}
    {g : α → Nat → Except Failure ι} (notes : s.machine.Notes view fun a => note (.asked a))
    (notes' : ∀ i, (inner i).machine.Notes view fun b => note (.heard i b))
    (maps : Maps f g view note) :
    Flattens s.machine (fun i => (inner i).machine) g view note (s.flatMapAsync inner f).machine
      (fun t => t.1.1) fun t => inside t.1.2.2 where
  told used front := by
    obtain ⟨events, p, followed, fits⟩ :=
      flatMapAsync_followed notes notes' maps (used.unguarded front).1 front
    obtain ⟨flat, calls⟩ := followed.told
    refine ⟨events, p, followed, flat, calls, fun notOver i t opened => ?_⟩
    obtain ⟨xs, place, draining⟩ := fits.inside notOver opened
    exact ⟨xs, _, place, draining⟩
  waits {before t x answers now w} used more waits := by
    obtain ⟨used, going⟩ := used.going more
    obtain ⟨events, p, followed, fits⟩ :=
      flatMapAsync_followed notes notes' maps used more.arrivals_dropLast
    exact flatMapAsync_waits fits (followed.going more).1 (Machine.guarded_asks going waits)
  stops reached failed := Machine.guarded_stops reached failed

theorem flatMap_flattens {f : Step ω α (List β)} {g : α → Nat → Except Failure (List β)}
    {note : Event α β (List β) → ν → ν} (notes : s.machine.Notes view fun a => note (.asked a))
    (silent : ∀ l b x, note (.heard l b) x = x) (maps : MapsNow f g view note) :
    Flattens s.machine Machine.ofList g view note (s.flatMap f).machine (fun t => t.1.1)
      fun _ => none where
  told used front := by
    obtain ⟨events, p, followed, -⟩ :=
      flatMap_followed notes silent maps (used.unguarded front).1 front
    obtain ⟨flat, calls⟩ := followed.told
    exact ⟨events, p, followed, flat, calls, fun _ _ _ => nofun⟩
  waits {before t x answers now w} used more waits := by
    exact .inl (flatMap_waits (Machine.guarded_asks (used.going more).2 waits))
  stops reached failed := Machine.guarded_stops reached failed

/-- Both stages go through the inner sequences in order and stop at the first failure, and over
collections, whether these wait or not, they hand out the same. -/
theorem flattening_in_order (s : Sequence ω α) :
    (∀ {ν ι : Type} (view : ω → ν) (note : Event α β ι → ν → ν) (inner : ι → Sequence ω β)
      (f : SlowStep ω α ι) (g : α → Nat → Except Failure ι),
      s.machine.Notes view (fun a => note (.asked a)) →
      (∀ i, (inner i).machine.Notes view fun b => note (.heard i b)) → Maps f g view note →
      Flattens s.machine (fun i => (inner i).machine) g view note (s.flatMapAsync inner f).machine
        (fun t => t.1.1) fun t => inside t.1.2.2) ∧
    (∀ {ν : Type} (view : ω → ν) (note : Event α β (List β) → ν → ν) (f : Step ω α (List β))
      (g : α → Nat → Except Failure (List β)),
      s.machine.Notes view (fun a => note (.asked a)) → (∀ l b x, note (.heard l b) x = x) →
      MapsNow f g view note →
      Flattens s.machine Machine.ofList g view note (s.flatMap f).machine (fun t => t.1.1)
        fun _ => none) ∧
    ∀ (modes : List β → Mode) (f : Step ω α (List β)) (f' : SlowStep ω α (List β))
      (g : α → Nat → Except Failure (List β)), s.machine.Resumable → f.Gives g → f'.Gives g →
      ∀ t answers t' answers', (s.flatMap f).machine.Reach t answers →
        (s.flatMapAsync (fun l => ⟨modes l, .ofList l⟩) f').machine.Reach t' answers' →
        Unended (arrivals answers.dropLast) → Unended (arrivals answers'.dropLast) →
        Agree (arrivals answers) (arrivals answers') := by
  refine ⟨fun view note inner f g => flatMapAsync_flattens s,
    fun view note f g => flatMap_flattens s, ?_⟩
  intro modes f f' g resumable gives gives' t answers t' answers' reached reached' front front'
  obtain ⟨script, goes⟩ := resumable.script
  choose scripts inside using fun l : List β =>
    (Machine.ofResults_delivers (ω := ω) (l.map .ok)).resumable.script
  have quiet : s.machine.Notes (fun _ => ()) fun _ _ => () := ⟨fun _ _ _ => rfl, fun _ _ _ => rfl⟩
  have flattens : Flattens s.machine Machine.ofList g (fun _ => ()) (fun _ _ => ())
      (s.flatMap f).machine _ _ :=
    flatMap_flattens s quiet (fun _ _ _ => rfl) ⟨gives, fun _ _ _ _ => rfl⟩
  let inner (l : List β) : Sequence ω β := ⟨modes l, .ofList l⟩
  have flattens' : Flattens s.machine (fun l => (inner l).machine) g (fun _ => ()) (fun _ _ => ())
      (s.flatMapAsync inner f').machine _ _ :=
    flatMapAsync_flattens s quiet (fun _ => ⟨fun _ _ _ => rfl, fun _ _ _ => rfl⟩)
      ⟨gives', fun _ _ _ _ => rfl, fun _ _ _ _ _ _ => rfl⟩
  exact flattens.agree flattens' goes goes inside reached reached' front front'

/-- Three numbers, with two items for the first, none for the second and a failure for the third.
The mapper writes down what it is called with. -/
theorem flattening_in_order_three :
    let numbers : Sequence (List (Nat × Nat)) Nat := .ofList [1, 2, 3]
    let g : Nat → Nat → Except Failure (List Nat) := fun a _ =>
      if a = 3 then .error .zeroRate else .ok (if a = 1 then [10, 11] else [])
    let note : Event Nat Nat (List Nat) → List (Nat × Nat) → List (Nat × Nat) := fun
      | .called a n, calls => calls ++ [(a, n)]
      | _, calls => calls
    let f : Step (List (Nat × Nat)) Nat (List Nat) := fun a n _ calls => (g a n, calls ++ [(a, n)])
    let f' : SlowStep (List (Nat × Nat)) Nat (List Nat) := fun a n _ calls =>
      ({ delay := 5, finish := fun _ calls => (g a n, calls) }, calls ++ [(a, n)])
    let mapped := numbers.flatMap f
    let mappedLater := numbers.flatMapAsync .ofList f'
    Flattens numbers.machine Machine.ofList g id note mapped.machine (fun t => t.1.1)
      (fun _ => none) ∧
    Flattens numbers.machine Machine.ofList g id note mappedLater.machine (fun t => t.1.1)
      (fun t => inside t.1.2.2) ∧
    (∃ t, mapped.machine.Uses id [] t [(1, 0), (2, 1), (3, 2)]
      [.skip, .item 10, .item 11, .skip, .fail .zeroRate]) ∧
    (∃ t, mappedLater.machine.Uses id [] t [(1, 0), (2, 1)]
      [.skip, .wait, .skip, .item 10, .item 11, .skip, .skip]) ∧
    ∀ t answers t' answers', mapped.machine.Reach t answers →
      mappedLater.machine.Reach t' answers' → Unended (arrivals answers.dropLast) →
      Unended (arrivals answers'.dropLast) → Agree (arrivals answers) (arrivals answers') := by
  intro numbers g note f f' mapped mappedLater
  obtain ⟨later, now, same⟩ := flattening_in_order (β := Nat) numbers
  have quiet (l : List Nat) : (Machine.ofList (ω := List (Nat × Nat)) l).Notes id fun _ x => x :=
    ⟨fun s _ _ => by cases s <;> rfl, fun _ _ _ => rfl⟩
  refine ⟨now id note f g (quiet _) (fun _ _ _ => rfl) ⟨fun _ _ _ _ => rfl, fun _ _ _ _ => rfl⟩,
    later id note .ofList f' g (quiet _) quiet
      ⟨fun _ _ _ _ _ _ => rfl, fun _ _ _ _ => rfl, fun _ _ _ _ _ _ => rfl⟩, ?_, ?_,
    same (fun _ => .immediate) f f' g ?_ (fun _ _ _ _ => rfl) fun _ _ _ _ _ _ => rfl⟩
  · exact ⟨_, ((((Machine.Uses.start.poll 0 [] rfl).poll 0 [(1, 0)] rfl).poll 0 [(1, 0)] rfl).poll
      0 [(1, 0)] rfl).poll 0 [(1, 0), (2, 1)] rfl⟩
  · exact ⟨_, ((((((Machine.Uses.start.poll 0 [] rfl).poll 3 [(1, 0)] rfl).poll 5 [(1, 0)] rfl).poll
      5 [(1, 0)] rfl).poll 5 [(1, 0)] rfl).poll 5 [(1, 0)] rfl).poll 5 [(1, 0)] rfl⟩
  · exact (Machine.ofResults_delivers _).resumable

end Sequence
end PullStream
