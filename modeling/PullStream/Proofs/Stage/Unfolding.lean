import PullStream.Proofs.Machine.Using
import PullStream.Proofs.Stage.Flattening

/-!
The two stages that flatten.

One has a mapper that replies in a while and chooses among inner sequences, the other a mapper that
replies at once with a collection. Both follow a course, in however many polls and with whatever
between them: a poll that does not wait is some events of the course, and what has been noted in
the world is noted in the order of the course. The second stage hands a collection out by itself;
it takes a collection as ended when its last item has been handed out.

* `Followed` — what a stage has come to that follows a course.
* `inside` — the inner sequence that is open.
* `flatMapAsync_followed`, `flatMap_followed` — every use of the two stages.
-/

namespace PullStream

variable {ω ν α β ι : Type}

namespace Nesting

variable {source : Machine ω α} {inner : ι → Machine ω β} {g : α → Nat → Except Failure ι}
  {view : ω → ν} {note : Event α β ι → ν → ν} {before : ν}

/-! ### What is followed -/

/-- A mapper whose choices come in a while, and that notes the call and the choice. -/
structure Maps (f : SlowStep ω α ι) (g : α → Nat → Except Failure ι) (view : ω → ν)
    (note : Event α β ι → ν → ν) : Prop where
  gives : f.Gives g
  called : ∀ a n now w, view (f a n now w).2 = note (.called a n) (view w)
  chosen : ∀ a n now w now' w',
    view ((f a n now w).1.finish now' w').2 = note (.chosen (g a n)) (view w')

/-- A mapper that chooses at once, and notes the call and the choice. -/
structure MapsNow (f : Step ω α ι) (g : α → Nat → Except Failure ι) (view : ω → ν)
    (note : Event α β ι → ν → ν) : Prop where
  gives : f.Gives g
  noted : ∀ a n now w, view (f a n now w).2 = note (.chosen (g a n)) (note (.called a n) (view w))

/-- What a stage has come to that follows a course, with its source in the state `r`. -/
structure Followed (source : Machine ω α) (inner : ι → Machine ω β)
    (g : α → Nat → Except Failure ι) (note : Event α β ι → ν → ν) (before : ν) (r : source.State)
    (x : ν) (answers : List (Answer β)) (events : List (Event α β ι)) (p : Place α β ι) :
    Prop where
  course : Course inner g events p
  /-- What the course has taken has arrived from the source. -/
  drained : ∃ r', source.Draining r' (taken events) ∧ (p ≠ .past → r' = r)
  world : x = noted note before events
  handed : arrivals answers = given events
  /-- A poll that does not wait is part of the course. -/
  busy : busyPolls answers ≤ events.length

namespace Followed

variable {r r' : source.State} {x : ν} {answers : List (Answer β)} {events : List (Event α β ι)}
  {event : Event α β ι} {p p' : Place α β ι}

theorem start :
    Followed source inner g note before source.start before [] [] (.between 0) where
  course := .start
  drained := ⟨_, .start, fun _ => rfl⟩
  world := rfl
  handed := rfl
  busy := Nat.le_refl _

/-- While more may be handed out, the source may be asked. -/
theorem going (followed : Followed source inner g note before r x answers events p)
    (more : Unended (arrivals answers)) :
    p ≠ .past ∧ Unended (taken events) ∧ source.Draining r (taken events) := by
  have flat := followed.course.flattened
  have notOver : p ≠ .past := fun past => flat.front.2.mp past (followed.handed ▸ more)
  obtain ⟨r', draining, same⟩ := followed.drained
  exact ⟨notOver, flat.items notOver, same notOver ▸ draining⟩

/-- Something happens, and there will be an answer. -/
theorem move (followed : Followed source inner g note before r x answers events p)
    (moves : Move inner g p event p')
    (drained : ∃ r'', source.Draining r'' (taken events ++ event.taken.toList) ∧
      (p' ≠ .past → r'' = r')) (quiet : event.given = none) {x' : ν} (world : x' = note event x) :
    Followed source inner g note before r' x' answers (events ++ [event]) p' where
  course := followed.course.step moves
  drained := by rwa [taken_concat]
  world := by rw [noted_concat, ← followed.world, world]
  handed := by rw [given_concat, quiet, followed.handed, Option.toList_none, List.append_nil]
  busy := by
    rw [List.length_append]
    exact Nat.le_add_right_of_le followed.busy

/-- There is an answer, and something happens with it. -/
theorem answer (followed : Followed source inner g note before r x answers events p)
    (moves : Move inner g p event p')
    (drained : ∃ r'', source.Draining r'' (taken events ++ event.taken.toList) ∧
      (p' ≠ .past → r'' = r')) {a : Answer β} (handed : a.arrival? = event.given) {x' : ν}
    (world : x' = note event x) :
    Followed source inner g note before r' x' (answers ++ [a]) (events ++ [event]) p' where
  course := followed.course.step moves
  drained := by rwa [taken_concat]
  world := by rw [noted_concat, ← followed.world, world]
  handed := by rw [given_concat, arrivals_concat, handed, followed.handed]
  busy := by
    rw [List.length_append, busyPolls_concat]
    have bound := followed.busy
    split <;> simp only [List.length_singleton] <;> omega

/-- The answer is to wait. -/
theorem wait (followed : Followed source inner g note before r x answers events p) :
    Followed source inner g note before r x (answers ++ [.wait]) events p where
  course := followed.course
  drained := followed.drained
  world := followed.world
  handed := (arrivals_quiet answers rfl).trans followed.handed
  busy := by
    rw [busyPolls_concat]
    exact followed.busy

/-- Background work below changes nothing. -/
theorem tick (followed : Followed source inner g note before r x answers events p) (now : Time)
    (w : ω) :
    Followed source inner g note before (source.tick r now w).2.1 x answers events p where
  course := followed.course
  drained := by
    obtain ⟨r', draining, same⟩ := followed.drained
    by_cases past : p = .past
    · exact ⟨r', draining, absurd past⟩
    · exact ⟨_, draining.tick now w, fun _ => same past ▸ rfl⟩
  world := followed.world
  handed := followed.handed
  busy := followed.busy

/-- The source has not been asked. -/
theorem unasked (followed : Followed source inner g note before r x answers events p)
    (event : Event α β ι) (p' : Place α β ι) (notOver : p ≠ .past) (nothing : event.taken = none) :
    ∃ r', source.Draining r' (taken events ++ event.taken.toList) ∧ (p' ≠ .past → r' = r) := by
  obtain ⟨r', draining, same⟩ := followed.drained
  rw [nothing, Option.toList_none, List.append_nil]
  exact ⟨r', draining, fun _ => same notOver⟩

/-- The source has been asked. -/
theorem asked (followed : Followed source inner g note before r x answers events p)
    (p' : Place α β ι) (more : Unended (arrivals answers)) {now : Time} {w w' : ω} {a : Answer α}
    (polled : source.poll r now w = (a, r', w')) :
    ∃ r'', source.Draining r'' (taken events ++ (Event.asked a : Event α β ι).taken.toList) ∧
      (p' ≠ .past → r'' = r') := by
  obtain ⟨-, items, draining⟩ := followed.going more
  have next := draining.poll items now w
  rw [polled] at next
  exact ⟨r', next, fun _ => rfl⟩

end Followed

/-- A stage that has been used up to the first end or failure follows a course, and `fits` says
where its own memory has to be. -/
def Onward {σ : Type} (source : Machine ω α) (inner : ι → Machine ω β)
    (g : α → Nat → Except Failure ι) (view : ω → ν) (note : Event α β ι → ν → ν) (before : ν)
    (fits : σ → Place α β ι → Prop) (answers : List (Answer β))
    (r : Answer β × (source.State × σ) × ω) : Prop :=
  ∃ events p, Followed source inner g note before r.2.1.1 (view r.2.2) (answers ++ [r.1]) events p ∧
    fits r.2.1.2 p

/-! ### Choosing among inner sequences -/

section Choosing

variable {f : SlowStep ω α ι}

/-- Where a stage stands that goes through inner sequences. -/
inductive FitsNested (inner : ι → Machine ω β) (view : ω → ν) (note : Event α β ι → ν → ν) :
    Nat × Machine.Nested ω ι inner → Place α β ι → Prop where
  | outer {n} : FitsNested inner view note (n, .outer) (.between n)
  | opening {n p c} : (∀ now w, (p.finish now w).1 = c) →
      (∀ now w, view (p.finish now w).2 = note (.chosen c) (view w)) →
      FitsNested inner view note (n, .opening p) (.opening c n)
  | within {n i t xs} : (inner i).Draining t (xs.map .item) →
      FitsNested inner view note (n, .within i t) (.within i xs n)
  | past {s} : FitsNested inner view note s .past

/-- The inner sequence that is open, in its state. -/
def inside : Machine.Nested ω ι inner → Option ((i : ι) × (inner i).State)
  | .within i t => some ⟨i, t⟩
  | _ => none

variable {r : source.State} {answers : List (Answer β)} {events : List (Event α β ι)} {n : Nat}
  {w : ω}

/-- The inner sequence that is open is the one that the course is at. -/
theorem FitsNested.inside {nested : Machine.Nested ω ι inner} {p : Place α β ι}
    (fits : FitsNested inner view note (n, nested) p) (notOver : p ≠ .past) {i : ι}
    {t : (inner i).State} (opened : Nesting.inside nested = some ⟨i, t⟩) :
    ∃ xs, p = .within i xs n ∧ (inner i).Draining t (xs.map .item) := by
  cases fits with
  | outer => cases opened
  | opening => cases opened
  | within draining =>
    cases opened
    exact ⟨_, rfl, draining⟩
  | past => exact absurd rfl notOver

/-- The source is asked. -/
theorem followed_outer (notes : source.Notes view fun a => note (.asked a))
    (maps : Maps f g view note)
    (followed : Followed source inner g note before r (view w) answers events (.between n))
    (more : Unended (arrivals answers)) (now : Time) :
    Onward source inner g view note before (FitsNested inner view note) answers
      ((source.flatMapAsync inner f).poll (r, n, .outer) now w) := by
  have said := notes.poll r now w
  simp only [Machine.flatMapAsync]
  split
  · rename_i a r' w' polled
    rw [polled] at said
    have taken := followed.answer .taken (followed.asked _ more polled) (a := .skip) rfl said
    exact ⟨_, _, taken.move .called (taken.unasked _ _ (by simp) rfl) rfl (maps.called a n now w'),
      .opening (fun now' w'' => maps.gives a n now w' now' w'')
        (fun now' w'' => maps.chosen a n now w' now' w'')⟩
  · rename_i g' r' w' polled
    rw [polled] at said
    have asked p' := followed.asked p' more polled
    cases g' with
    | fail e => exact ⟨_, _, followed.answer .sourceFailed (asked _) rfl said, .past⟩
    | done => exact ⟨_, _, followed.answer .ended (asked _) rfl said, .past⟩
    | _ => exact ⟨_, _, followed.answer (.asked rfl) (asked _) rfl said, .outer⟩

/-- The mapper's choice is awaited. -/
theorem followed_opening {p : Pending ω (Except Failure ι)} {c : Except Failure ι}
    (finishes : ∀ now w, (p.finish now w).1 = c)
    (notes : ∀ now w, view (p.finish now w).2 = note (.chosen c) (view w))
    (followed : Followed source inner g note before r (view w) answers events (.opening c n))
    (now : Time) :
    Onward source inner g view note before (FitsNested inner view note) answers
      ((source.flatMapAsync inner f).poll (r, n, .opening p) now w) := by
  have result := finishes now w
  have said := notes now w
  simp only [Machine.flatMapAsync]
  split
  · exact ⟨_, _, followed.wait, .opening finishes notes⟩
  · split
    · rename_i i w' polled
      rw [polled] at result said
      cases result
      have unasked := followed.unasked (.chosen (.ok i)) (.within i [] n) (by simp) rfl
      exact ⟨_, _, followed.answer .chosen unasked rfl said, .within .start⟩
    · rename_i e w' polled
      rw [polled] at result said
      cases result
      have unasked := followed.unasked (.chosen (.error e)) .past (by simp) rfl
      exact ⟨_, _, followed.answer .mapperFailed unasked rfl said, .past⟩

/-- An inner sequence is asked. -/
theorem followed_within {i : ι} {t : (inner i).State} {xs : List β}
    (notes : (inner i).Notes view fun b => note (.heard i b))
    (draining : (inner i).Draining t (xs.map .item))
    (followed : Followed source inner g note before r (view w) answers events (.within i xs n))
    (now : Time) :
    Onward source inner g view note before (FitsNested inner view note) answers
      ((source.flatMapAsync inner f).poll (r, n, .within i t) now w) := by
  have said := notes.poll t now w
  have next := draining.poll (unended_items xs) now w
  simp only [Machine.flatMapAsync]
  split
  · rename_i t' w' polled
    rw [polled] at said next
    have unasked := followed.unasked (.heard i .done) (.between n) (by simp) rfl
    exact ⟨_, _, followed.answer (.closed next) unasked rfl said, .outer⟩
  · rename_i b t' w' notDone polled
    rw [polled] at said next
    have unasked p' := followed.unasked (.heard i b) p' (by simp) rfl
    have handed := (Event.given_heard (α := α) (i := i) notDone).symm
    cases b with
    | item x =>
      have draining' : (inner i).Draining t' ((xs ++ [x]).map .item) := by
        rwa [List.map_append]
      exact ⟨_, _, followed.answer (.heard draining') (unasked _) handed said, .within draining'⟩
    | signal g' =>
      cases g' with
      | fail e => exact ⟨_, _, followed.answer (.innerFailed next) (unasked _) handed said, .past⟩
      | done => exact absurd rfl notDone
      | _ =>
        rw [show Answer.arrival? _ = none from rfl, Option.toList_none, List.append_nil] at next
        exact ⟨_, _, followed.answer (.waited rfl) (unasked _) handed said, .within next⟩

/-- Background work goes on below, and in the inner sequence. -/
theorem followed_tick (notes : source.Notes view fun a => note (.asked a))
    (notes' : ∀ i, (inner i).Notes view fun b => note (.heard i b))
    {nested : Machine.Nested ω ι inner} {p : Place α β ι}
    (followed : Followed source inner g note before r (view w) answers events p)
    (fits : FitsNested inner view note (n, nested) p) (now : Time) :
    let s := (source.flatMapAsync inner f).tick (r, n, nested) now w
    Followed source inner g note before s.2.1.1 (view s.2.2) answers events p ∧
      FitsNested inner view note s.2.1.2 p := by
  have ticked := followed.tick now w
  have kept := notes.tick r now w
  simp only [Machine.flatMapAsync]
  split
  · rename_i r' w' h
    rw [h] at ticked kept
    exact ⟨kept.symm ▸ ticked, fits⟩
  · rename_i r' w' h
    rw [h] at ticked kept
    cases nested with
    | outer => exact ⟨kept.symm ▸ ticked, fits⟩
    | opening => exact ⟨kept.symm ▸ ticked, fits⟩
    | within i t =>
      refine ⟨(((notes' i).tick t now w').trans kept).symm ▸ ticked, ?_⟩
      cases fits with
      | within draining => exact .within (draining.tick now w')
      | past => exact .past

/-- However the stage is used, up to the first failure or end. -/
theorem flatMapAsync_followed (notes : source.Notes view fun a => note (.asked a))
    (notes' : ∀ i, (inner i).Notes view fun b => note (.heard i b)) (maps : Maps f g view note)
    {s : (source.flatMapAsync inner f).State} {x : ν} {answers : List (Answer β)}
    (used : (source.flatMapAsync inner f).Uses view before s x answers)
    (front : Unended (arrivals answers.dropLast)) :
    ∃ events p, Followed source inner g note before s.1 x answers events p ∧
      FitsNested inner view note s.2 p := by
  induction used with
  | start => exact ⟨_, _, .start, .outer⟩
  | @poll s x answers _ now w same ih =>
    subst same
    rw [List.dropLast_concat] at front
    obtain ⟨r, n, nested⟩ := s
    obtain ⟨events, p, followed, fits⟩ := ih front.arrivals_dropLast
    cases fits with
    | outer => exact followed_outer notes maps followed front now
    | opening finishes notes => exact followed_opening finishes notes followed now
    | within draining => exact followed_within (notes' _) draining followed now
    | past => exact absurd rfl (followed.going front).1
  | @tick s x answers _ now w same ih =>
    subst same
    obtain ⟨events, p, followed, fits⟩ := ih front
    exact ⟨events, p, followed_tick notes notes' followed fits now⟩

/-- A poll that waits, waits for the source, for the mapper or for the inner sequence that is
open. -/
theorem flatMapAsync_waits {nested : Machine.Nested ω ι inner} {p : Place α β ι} {now : Time}
    (fits : FitsNested inner view note (n, nested) p) (notOver : p ≠ .past)
    (waits : ((source.flatMapAsync inner f).poll (r, n, nested) now w).1 = .wait) :
    (source.poll r now w).1 = .wait ∨
      (∃ due ∈ (source.flatMapAsync inner f).alarms (r, n, nested), now < due) ∨
      ∃ i t, inside nested = some ⟨i, t⟩ ∧ ((inner i).poll t now w).1 = .wait := by
  cases fits with
  | outer =>
    left
    simp only [Machine.flatMapAsync] at waits
    split at waits
    · cases waits
    · rename_i g' r' w' polled
      rw [polled]
      exact congrArg Answer.signal (Answer.signal.inj waits)
  | @opening _ p c =>
    refine .inr (.inl ⟨p.due, by simp [Machine.flatMapAsync], ?_⟩)
    by_contra due
    simp only [Machine.flatMapAsync, due, if_false] at waits
    split at waits <;> cases waits
  | @within _ i t =>
    refine .inr (.inr ⟨i, t, rfl, ?_⟩)
    simp only [Machine.flatMapAsync] at waits
    split at waits
    · cases waits
    · rename_i b t' w' _ polled
      rw [polled]
      exact waits
  | past => exact absurd rfl notOver

end Choosing

/-! ### Handing out collections -/

/-- The first items of a list arrive, and the others are left. -/
theorem ofList_draining (w : ω) {list xs rest : List β} (split : list = xs ++ rest) :
    (Machine.ofList (ω := ω) list).Draining (rest.map .ok) (xs.map .item) := by
  induction xs using List.reverseRecOn generalizing rest with
  | nil => exact split ▸ .start
  | append_singleton xs x ih =>
    have before := ih (show list = xs ++ x :: rest by rw [split, List.append_assoc]; rfl)
    rw [List.map_append]
    exact before.poll (unended_items xs) 0 w

theorem ofList_ended (w : ω) (xs : List β) :
    (Machine.ofList (ω := ω) xs).Draining [] (xs.map .item ++ [.ended]) :=
  (ofList_draining w (List.append_nil xs).symm).poll (unended_items xs) 0 w

section Collections

variable {f : Step ω α (List β)} {g : α → Nat → Except Failure (List β)}
  {note : Event α β (List β) → ν → ν} {lasting : Bool}

/-- Where a stage stands that hands out collections. -/
inductive FitsFlattening : Transducer.Flattening β → Place α β (List β) → Prop where
  | between {n} : FitsFlattening { index := n } (.between n)
  | within {n l xs rest} : l = xs ++ rest → rest ≠ [] →
      FitsFlattening { index := n, rest } (.within l xs n)
  | past {m} : FitsFlattening m .past

variable {r : source.State} {answers : List (Answer β)} {events : List (Event α β (List β))}
  {n : Nat} {x : ν}

/-- A collection of which nothing is left has ended. -/
theorem followed_settle (silent : ∀ l b x, note (.heard l b) x = x) (w : ω) {l xs rest : List β}
    (followed : Followed source (Machine.ofList (ω := ω)) g note before r x answers events
      (.within l xs n)) (split : l = xs ++ rest) :
    ∃ events p, Followed source (Machine.ofList (ω := ω)) g note before r x answers events p ∧
      FitsFlattening { index := n, rest } p := by
  cases rest with
  | nil =>
    rw [List.append_nil] at split
    subst split
    exact ⟨_, _, followed.move (.closed (ofList_ended w l)) (followed.unasked _ _ nofun rfl) rfl
      (silent l .done x).symm, .between⟩
  | cons b rest => exact ⟨_, _, followed, .within split (List.cons_ne_nil b rest)⟩

section Reacting

variable {m : Transducer.Flattening β} {p : Place α β (List β)} {now : Time} {w : ω}

/-- The stage answers by itself: it hands an item out. -/
theorem followed_handing (silent : ∀ l b x, note (.heard l b) x = x)
    (followed : Followed source (Machine.ofList (ω := ω)) g note before r (view w) answers events p)
    (fits : FitsFlattening m p) (notOver : p ≠ .past)
    {reaction : Answer β × Transducer.Flattening β × ω}
    (own : (Transducer.flatMap lasting f).before m now w = some reaction) :
    Onward source Machine.ofList g view note before FitsFlattening answers
      (Machine.react source (.flatMap lasting f) m r reaction) := by
  cases fits with
  | between => cases own
  | past => exact absurd rfl notOver
  | @within n l xs rest split some =>
    cases rest with
    | nil => exact absurd rfl some
    | cons b rest =>
      cases own
      have split' : l = xs ++ [b] ++ rest := by rw [split, List.append_assoc]; rfl
      have handed := followed.answer (.heard (ofList_draining w split'))
        (followed.unasked _ _ nofun rfl) (a := .item b) rfl (silent l (.item b) _).symm
      exact followed_settle silent w handed split'

/-- It asks its source when nothing is left to hand out. -/
theorem asks_between (fits : FitsFlattening m p) (notOver : p ≠ .past)
    (asks : (Transducer.flatMap lasting f).before m now w = none) :
    ∃ n, m = { index := n } ∧ p = .between n := by
  cases fits with
  | between => exact ⟨_, rfl, rfl⟩
  | past => exact absurd rfl notOver
  | @within n l xs rest split some =>
    cases rest with
    | nil => exact absurd rfl some
    | cons b rest => cases asks

/-- The source gives an element, and the mapper a collection or a failure. -/
theorem followed_mapping (silent : ∀ l b x, note (.heard l b) x = x) (maps : MapsNow f g view note)
    (followed : Followed source (Machine.ofList (ω := ω)) g note before r (view w) answers events
      (.between n))
    (more : Unended (arrivals answers)) {a : α} {r' : source.State} {w' : ω}
    (said : view w' = note (.asked (.item a)) (view w))
    (polled : source.poll r now w = (.item a, r', w')) :
    Onward source Machine.ofList g view note before FitsFlattening answers
      (Machine.react source (.flatMap lasting f) { index := n } r'
        ((Transducer.flatMap lasting f).item { index := n } a now w')) := by
  have taken := followed.move .taken (followed.asked _ more polled) rfl said
  have called := taken.move .called (taken.unasked _ _ (by simp) rfl) rfl rfl
  have gives := maps.gives a n now w'
  have noted := maps.noted a n now w'
  rcases mapped : f a n now w' with ⟨e | l, w''⟩
  · rw [mapped] at gives noted
    rw [← gives] at called noted
    have failed := called.answer .mapperFailed (called.unasked _ _ (by simp) rfl)
      (a := .fail e) rfl noted
    simp only [Transducer.flatMap, mapped]
    exact ⟨_, _, failed, .past⟩
  · rw [mapped] at gives noted
    rw [← gives] at called noted
    have chosen := called.answer .chosen (called.unasked _ _ (by simp) rfl) (a := .skip) rfl noted
    simp only [Transducer.flatMap, mapped]
    exact followed_settle silent w chosen rfl

end Reacting

/-- However the stage is used, up to the first failure or end. -/
theorem flatMap_followed (notes : source.Notes view fun a => note (.asked a))
    (silent : ∀ l b x, note (.heard l b) x = x) (maps : MapsNow f g view note)
    {s : (source.via (.flatMap lasting f)).State} {answers : List (Answer β)}
    (used : (source.via (.flatMap lasting f)).Uses view before s x answers)
    (front : Unended (arrivals answers.dropLast)) :
    ∃ events p, Followed source (Machine.ofList (ω := ω)) g note before s.1 x answers events p ∧
      FitsFlattening s.2 p := by
  induction used with
  | start => exact ⟨_, _, .start, .between⟩
  | @poll s x answers _ now w same ih =>
    subst same
    rw [List.dropLast_concat] at front
    obtain ⟨r, m⟩ := s
    obtain ⟨events, p, followed, fits⟩ := ih front.arrivals_dropLast
    have polled := Machine.via_poll source (.flatMap lasting f) (r, m) now w
    generalize (source.via (.flatMap lasting f)).poll (r, m) now w = answer at polled
    have said := notes.poll r now w
    cases polled with
    | before own => exact followed_handing silent followed fits (followed.going front).1 own
    | item own answered =>
      obtain ⟨n, rfl, rfl⟩ := asks_between fits (followed.going front).1 own
      rw [answered] at said
      exact followed_mapping silent maps followed front said answered
    | fail own answered =>
      obtain ⟨n, rfl, rfl⟩ := asks_between fits (followed.going front).1 own
      rw [answered] at said
      exact ⟨_, _, followed.answer .sourceFailed (followed.asked _ front answered) rfl said, .past⟩
    | done own answered =>
      obtain ⟨n, rfl, rfl⟩ := asks_between fits (followed.going front).1 own
      rw [answered] at said
      obtain ⟨r', draining, -⟩ := followed.asked .past front answered
      exact ⟨_, _, followed.answer .ended ⟨r', draining, absurd rfl⟩ rfl said, .past⟩
    | pass own answered notFail notDone =>
      obtain ⟨n, rfl, rfl⟩ := asks_between fits (followed.going front).1 own
      rw [answered] at said
      have quiet {γ : Type} := Answer.arrival?_signal (α := γ) notFail notDone
      exact ⟨_, _, followed.answer (.asked quiet) (followed.asked _ front answered)
        (quiet.trans (Event.given_asked quiet).symm) said, .between⟩
  | @tick s x answers _ now w same ih =>
    subst same
    obtain ⟨events, p, followed, fits⟩ := ih front
    have kept := notes.tick s.1 now w
    exact ⟨events, p, kept.symm ▸ followed.tick now w, fits⟩

/-- A poll that waits, waits for the source. -/
theorem flatMap_waits {r : source.State} {m : Transducer.Flattening β} {now : Time} {w : ω}
    (waits : ((source.via (.flatMap lasting f)).poll (r, m) now w).1 = .wait) :
    (source.poll r now w).1 = .wait := by
  have polled := Machine.via_poll source (.flatMap lasting f) (r, m) now w
  generalize (source.via (.flatMap lasting f)).poll (r, m) now w = answer at polled waits
  cases polled with
  | before own =>
    simp only [Transducer.flatMap] at own
    split at own
    · cases own
      cases waits
    · split at own <;> cases own
      cases waits
  | @item a q own answered =>
    simp only [Machine.react, Transducer.flatMap] at waits
    split at waits <;> cases waits
  | fail own answered => cases waits
  | done own answered => cases waits
  | pass own answered _ _ =>
    rw [answered]
    exact congrArg Answer.signal (Answer.signal.inj waits)

end Collections

end Nesting
end PullStream
