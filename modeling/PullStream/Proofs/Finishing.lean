import PullStream.Proofs.Clockwork
import PullStream.Proofs.Machine.Draining
import PullStream.Proofs.Stage.Via
import PullStream.Stage.Waiting

/-!
Runs that finish.

A run is finished if it winds down: with every turn that does not wait, every step of background
work and every move of the clock there is less left to do, and whoever waits waits for background
work or for the clock. That is so if the machine winds down and the consumer pulls until the first
failure or the end, or if the consumer rests in between as well, as long as each rest comes to its
end.

* `Machine.WindsDown` — machines that wind down, by what is left to do.
* `Consumer.Attentive`, `Consumer.fold_attentive` — consumers that pull.
* `Setting.WindsDown`, `Setting.run_finishes` — runs that wind down have a result.
* `Setting.consume_finishes` — those of consumers that pull.
* `Setting.visit_finishes` — those of visits that rest for the replies to their questions.
-/

namespace PullStream

variable {ω α ρ : Type}

/-! ### Winding down -/

namespace Machine

variable (m : Machine ω α) (going : m.State → Prop) (left : m.State → Time → Nat)

/-- What a poll comes to: it brings the failure or the end, or there is less left to do, or it waits
for background work or for the clock. -/
inductive Nearer (s : m.State) (now : Time) : Answer α × m.State × ω → Prop where
  | last {a s' w'} : EndsWith a.arrival? → Nearer s now (a, s', w')
  | moves {a s' w'} : a ≠ .wait → (∀ message, a ≠ .crash message) → going s' →
      left s' now < left s now → Nearer s now (a, s', w')
  | waits {s' w'} : going s' → left s' now ≤ left s now →
      ((m.tick s' now w').1 = true ∨ ∃ due ∈ m.alarms (m.tick s' now w').2.1, now < due) →
      Nearer s now (.wait, s', w')

/-- As long as the machine is going, less and less is left to do. -/
structure WindsDown : Prop where
  poll : ∀ {s}, going s → ∀ now w, Nearer m going left s now (m.poll s now w)
  tick : ∀ {s}, going s → ∀ now w, going (m.tick s now w).2.1 ∧
    left (m.tick s now w).2.1 now + (m.tick s now w).1.toNat ≤ left s now
  clock : ∀ {s now due}, going s → due ∈ m.alarms s → now < due → left s due < left s now

end Machine

/-- A consumer that pulls until the first failure or the end, or until it has its result. -/
structure Consumer.Attentive (c : Consumer ω α ρ) : Prop where
  wants : ∀ memory, c.want memory = .pull ∨ ∃ result, c.want memory = .finish result
  last : ∀ {memory a}, c.want memory = .pull → a.isLast = true → ∀ now w,
    ∃ result, c.want (c.receive memory a now w).1 = .finish result

theorem Consumer.fold_attentive {σ : Type} (start : σ)
    (item : σ → α → Nat → Time → ω → Verdict σ ρ × ω) (finish : σ → Result ρ) :
    (fold start item finish).Attentive where
  wants memory := by
    cases memory with
    | running => exact .inl rfl
    | finished result => exact .inr ⟨result, rfl⟩
  last {memory a} wants last now w := by
    cases memory with
    | finished => cases wants
    | running =>
      cases a with
      | item a => cases last
      | failure e => exact ⟨.error e, rfl⟩
      | ended => exact ⟨_, rfl⟩

/-- A consumer that may also rest: once a rest is over it pulls, or it has its result. -/
structure Consumer.Diligent (c : Consumer ω α ρ) : Prop where
  last : ∀ {memory a}, c.want memory = .pull → a.isLast = true → ∀ now w,
    ∃ result, c.want (c.receive memory a now w).1 = .finish result
  wake : ∀ {memory due}, c.want memory = .rest due → ∀ now w, due ≤ now →
    c.want (c.wake memory now w).1 = .pull ∨
      ∃ result, c.want (c.wake memory now w).1 = .finish result

theorem Consumer.forEachAsync_diligent (f : SlowStep ω α Unit) : (forEachAsync f).Diligent where
  last {memory a} wants last now w := by
    cases memory with
    | finished => cases wants
    | acting => cases wants
    | pulling i =>
      cases a with
      | item a => cases last
      | failure e => exact ⟨.error e, rfl⟩
      | ended => exact ⟨.ok (), rfl⟩
  wake {memory due} wants now w _ := by
    cases memory with
    | finished => cases wants
    | pulling => cases wants
    | acting i p =>
      rcases result : p.finish now w with ⟨e | u, w'⟩
      · exact .inr ⟨.error e, by simp [forEachAsync, result]⟩
      · exact .inl (by simp [forEachAsync, result])

/-! ### Lists that arrive with delays -/

namespace Machine

/-- What is on its way is a result. -/
def OnItsWay (s : List (Except Failure α) × Transducer.Arriving α) : Prop :=
  ∀ due a, s.2.pending = some (due, a) → ∃ r, a = .ofExcept r

/-- For each result there is one poll that asks for it and one that hands it over when it has come;
in between the clock moves. -/
def comings (s : List (Except Failure α) × Transducer.Arriving α) (now : Time) : Nat :=
  3 * s.1.length + match s.2.pending with
    | none => 0
    | some (due, _) => if now < due then 2 else 1

theorem onItsWay_start (delay : Nat → Time) (results : List (Except Failure α)) :
    OnItsWay ((ofResults (ω := ω) results).via (.arriving delay)).start := by
  intro due a same
  cases same

theorem arriving_windsDown (delay : Nat → Time) (results : List (Except Failure α)) :
    ((ofResults (ω := ω) results).via (.arriving delay)).WindsDown OnItsWay comings where
  poll {s} goes now w := by
    obtain ⟨rest, n, _ | ⟨due, a⟩⟩ := s
    · cases rest with
      | nil => exact .last ⟨.ended, rfl, rfl⟩
      | cons r rest =>
        have asked : Nearer ((ofResults (ω := ω) results).via (.arriving delay)) OnItsWay comings
            (r :: rest, ⟨n, none⟩) now
            (.skip, (rest, ⟨n + 1, some (now + delay n, .ofExcept r)⟩), w) := by
          refine .moves (by simp) (by simp) (fun due a same => ?_) ?_
          · cases same
            exact ⟨r, rfl⟩
          · simp only [comings, List.length_cons]
            split <;> omega
        cases r <;> exact asked
    · obtain ⟨r, rfl⟩ := goes due a rfl
      have polled : ((ofResults (ω := ω) results).via (.arriving delay)).poll
          (rest, ⟨n, some (due, .ofExcept r)⟩) now w =
            if now < due then (.wait, (rest, ⟨n, some (due, .ofExcept r)⟩), w)
            else (.ofExcept r, (rest, ⟨n, none⟩), w) := by
        simp only [via, Transducer.arriving, Option.map_some]
        split <;> rfl
      rw [polled]
      split
      · rename_i early
        exact .waits goes (Nat.le_refl _) (.inr ⟨due, List.mem_cons_self, early⟩)
      · rename_i late
        cases r with
        | ok a =>
          refine .moves (by simp [Answer.ofExcept]) (by simp [Answer.ofExcept])
            (by simp [OnItsWay]) ?_
          simp only [comings, if_neg late]
          omega
        | error e => exact .last ⟨.failure e, rfl, rfl⟩
  tick goes now w := ⟨goes, Nat.le_refl _⟩
  clock {s now due} goes alarm late := by
    obtain ⟨rest, n, _ | ⟨due', a⟩⟩ := s
    · cases alarm
    · obtain rfl : due = due' := by
        simpa [via, Transducer.arriving, ofResults, immediate] using alarm
      simp only [comings, if_pos late, Nat.lt_irrefl, if_false]
      omega

end Machine

namespace Setting

variable {m : Machine ω α} {c : Consumer ω α ρ}

/-- After a step of background work. -/
def ticked (s : Setting ω α m.hub) : Setting ω α m.hub :=
  { s with
    state := (m.tick s.state s.now s.world).2.1, world := (m.tick s.state s.now s.world).2.2 }

theorem Reader.lt_of_alarm? {r : Reader c} {now due : Time} (own : r.alarm? now = some due) :
    now < due := by
  unfold Reader.alarm? at own
  split at own
  · split at own
    · cases own
      assumption
    · cases own
  · cases own

/-- At `due`, background work, a waiting stage or the consumer goes on. -/
def Wakes (r : Reader c) (s : Setting ω α m.hub) (due : Time) : Prop :=
  s.now < due ∧ (due ∈ m.alarms s.state ∨ r.alarm? s.now = some due)

/-! ### Winding down -/

section Measured

variable (going : Reader c → Setting ω α m.hub → Prop) (left : Reader c → Setting ω α m.hub → Nat)

/-- The consumer has its result, or there is less than `n` left to do. -/
def Closer (n : Nat) (r : Reader c) (s : Setting ω α m.hub) : Prop :=
  (∃ result, c.want r.memory = .finish result) ∨ going r s ∧ left r s < n

/-- The consumer waits, for background work or for the clock. -/
def Rests (n : Nat) (r : Reader c) (s : Setting ω α m.hub) : Prop :=
  going r s ∧ left r s ≤ n ∧
    ((m.tick s.state s.now s.world).1 = true ∨ ∃ due, Wakes r s.ticked due)

/-- What a turn comes to of a consumer without a result. -/
def Turned (n : Nat) : Turn ω α m.hub c → Prop
  | .moved r s => Closer going left n r s
  | .paused r s => Closer going left n r s
  | .still r s => Rests going left n r s
  | .crashed _ _ => False

/-- As long as the consumer and its machine are going, less and less is left to do. -/
structure WindsDown : Prop where
  turn : ∀ {r s}, going r s → Turned going left (left r s) (r.turn s)
  tick : ∀ {r s}, going r s → going r s.ticked ∧
    left r s.ticked + (m.tick s.state s.now s.world).1.toNat ≤ left r s
  clock : ∀ {r s due}, going r s → Wakes r s due →
    going r { s with now := due } ∧ left r { s with now := due } < left r s

end Measured

section Winding

variable {going : Reader c → Setting ω α m.hub → Prop}
  {left : Reader c → Setting ω α m.hub → Nat} (winds : WindsDown going left)
include winds

/-! ### Turns -/

/-- A consumer that has moved does not stop before it waits or has its result. -/
theorem go_closer (fuel n : Nat) {r : Reader c} {s : Setting ω α m.hub}
    (closer : Closer going left n r s) :
    ∃ r' s', r.go fuel true s = (.ok (true, r'), s') ∧ Closer going left n r' s' := by
  induction fuel generalizing r s with
  | zero => exact ⟨r, s, rfl, closer⟩
  | succ fuel ih =>
    unfold Reader.go
    rcases closer with ⟨result, wants⟩ | ⟨goes, less⟩
    · simp only [Reader.turn, wants]
      exact ⟨r, s, rfl, .inl ⟨result, wants⟩⟩
    · have turned := winds.turn goes
      have nearer {r' : Reader c} {s' : Setting ω α m.hub}
          (closer : Closer going left (left r s) r' s') : Closer going left n r' s' := by
        rcases closer with done | ⟨goes, less'⟩
        · exact .inl done
        · exact .inr ⟨goes, Nat.lt_trans less' less⟩
      generalize r.turn s = turn at turned
      cases turn with
      | moved r' s' => exact ih (nearer turned)
      | paused r' s' => exact ⟨r', s', rfl, nearer turned⟩
      | still r' s' => exact ⟨r', s', rfl, .inr ⟨turned.1, Nat.lt_of_le_of_lt turned.2.1 less⟩⟩
      | crashed message s' => exact turned.elim

/-- A consumer without a result moves, or it waits. -/
theorem go_starts (fuel : Nat) {r : Reader c} {s : Setting ω α m.hub} (goes : going r s) :
    ∃ moved r' s', r.go (fuel + 1) false s = (.ok (moved, r'), s') ∧
      (moved = true ∧ Closer going left (left r s) r' s' ∨
        moved = false ∧ Rests going left (left r s) r' s') := by
  have turned := winds.turn goes
  unfold Reader.go
  generalize r.turn s = turn at turned
  cases turn with
  | moved r' s' =>
    obtain ⟨r'', s'', same, closer⟩ := go_closer winds fuel _ turned
    exact ⟨true, r'', s'', same, .inl ⟨rfl, closer⟩⟩
  | paused r' s' => exact ⟨true, r', s', rfl, .inl ⟨rfl, turned⟩⟩
  | still r' s' => exact ⟨false, r', s', rfl, .inr ⟨rfl, turned⟩⟩
  | crashed message s' => exact turned.elim

/-! ### Background work -/

theorem settleFrom_going (fuel : Nat) (moved : Bool) {r : Reader c} {s : Setting ω α m.hub}
    (goes : going r s) :
    ∃ s', settleFrom fuel moved true s = (true, s') ∧ going r s' ∧ left r s' ≤ left r s := by
  induction fuel generalizing moved s with
  | zero => exact ⟨s, rfl, goes, Nat.le_refl _⟩
  | succ fuel ih =>
    obtain ⟨next, less⟩ := winds.tick goes
    unfold settleFrom
    simp only [ticked, Machine.hub] at next less ⊢
    generalize m.tick s.state s.now s.world = result at next less
    obtain ⟨stirred, state, world⟩ := result
    have le := Nat.le_of_add_right_le less
    cases stirred with
    | true =>
      obtain ⟨s', same, goes', le'⟩ := ih true next
      exact ⟨s', same, goes', Nat.le_trans le' le⟩
    | false =>
      dsimp only
      split
      · obtain ⟨s', same, goes', le'⟩ := ih false next
        exact ⟨s', same, goes', Nat.le_trans le' le⟩
      · exact ⟨_, rfl, next, le⟩

/-- Background work is at rest if there is no step to take, and else there is less left to do. -/
theorem settle_going {r : Reader c} {s : Setting ω α m.hub} (goes : going r s) :
    (∃ s', s.settle = (true, s') ∧ going r s' ∧ left r s' < left r s) ∨
      (m.tick s.state s.now s.world).1 = false ∧ s.settle = (false, s.ticked) ∧
        going r s.ticked ∧ left r s.ticked ≤ left r s := by
  obtain ⟨fuel, patient⟩ : ∃ fuel, patience = fuel + 1 := Nat.exists_eq_add_one.mpr (by decide)
  obtain ⟨next, less⟩ := winds.tick goes
  unfold settle
  rw [patient]
  unfold settleFrom
  simp only [ticked, Machine.hub] at next less ⊢
  generalize m.tick s.state s.now s.world = result at next less ⊢
  obtain ⟨stirred, state, world⟩ := result
  cases stirred with
  | true =>
    obtain ⟨s', same, goes', le⟩ := settleFrom_going winds fuel true next
    exact .inl ⟨s', same, goes', Nat.lt_of_le_of_lt le less⟩
  | false => exact .inr ⟨rfl, rfl, next, less⟩

/-! ### Runs -/

/-- In a round the consumer takes its turns, and background work goes on until it is at rest. If the
consumer has no result then, there is less left to do, or the clock can move. -/
theorem round_advances {r : Reader c} {s : Setting ω α m.hub} (goes : going r s) :
    ∃ moved r₁ s₁, r.go patience false s = (.ok (moved, r₁), s₁) ∧
      ((∃ result, c.want r₁.memory = .finish result) ∨
        ∃ stirred s₂, s₁.settle = (stirred, s₂) ∧ going r₁ s₂ ∧
          ((moved || stirred) = true ∧ left r₁ s₂ < left r s ∨
            (moved || stirred) = false ∧ left r₁ s₂ ≤ left r s ∧ ∃ due, Wakes r₁ s₂ due)) := by
  obtain ⟨turns, patient⟩ : ∃ turns, patience = turns + 1 := Nat.exists_eq_add_one.mpr (by decide)
  obtain ⟨moved, r₁, s₁, went, after⟩ := go_starts winds turns goes
  refine ⟨moved, r₁, s₁, patient ▸ went, ?_⟩
  rcases after with ⟨rfl, ⟨result, done⟩ | ⟨goes₁, less⟩⟩ | ⟨rfl, goes₁, le, wakes⟩
  · exact .inl ⟨result, done⟩
  · rcases settle_going winds goes₁ with ⟨s₂, settled, goes₂, less'⟩ | ⟨-, settled, goes₂, le⟩
    · exact .inr ⟨_, _, settled, goes₂, .inl ⟨rfl, Nat.lt_trans less' less⟩⟩
    · exact .inr ⟨_, _, settled, goes₂, .inl ⟨rfl, Nat.lt_of_le_of_lt le less⟩⟩
  · rcases settle_going winds goes₁ with ⟨s₂, settled, goes₂, less⟩ | ⟨idle, settled, goes₂, le'⟩
    · exact .inr ⟨_, _, settled, goes₂, .inl ⟨rfl, Nat.lt_of_lt_of_le less le⟩⟩
    · have wakes := wakes.resolve_left (by simp [idle])
      exact .inr ⟨_, _, settled, goes₂, .inr ⟨rfl, Nat.le_trans le' le, wakes⟩⟩

omit winds in
/-- The clock moves to an instant at which somebody can go on, if there is one. -/
theorem alarms_min? {r : Reader c} {s : Setting ω α m.hub} (wakes : ∃ due, Wakes r s due) :
    ∃ due, Wakes r s due ∧ (s.alarms ++ (r.alarm? s.now).toList).min? = some due := by
  obtain ⟨due, late, alarm⟩ := wakes
  have member : due ∈ s.alarms ++ (r.alarm? s.now).toList := by
    rcases alarm with machine | own
    · exact List.mem_append_left _ (List.mem_filter.mpr ⟨machine, decide_eq_true late⟩)
    · exact List.mem_append_right _ (by simp [own])
  obtain ⟨next, least⟩ := Option.isSome_iff_exists.mp (List.isSome_min?_of_mem member)
  refine ⟨next, ?_, least⟩
  rcases List.mem_append.mp (List.min?_mem least) with machine | own
  · obtain ⟨alarm', late'⟩ := List.mem_filter.mp machine
    exact ⟨of_decide_eq_true late', .inl alarm'⟩
  · have own := Option.mem_toList.mp own
    exact ⟨Reader.lt_of_alarm? own, .inr own⟩

/-- A run that winds down has a result if it has the fuel for what is left. -/
theorem run_finishes (fuel : Nat) {r : Reader c} {s : Setting ω α m.hub} (goes : going r s)
    (enough : left r s < fuel) : ∃ result s', run none fuel [r] s = (.finished [result], s') := by
  induction fuel generalizing r s with
  | zero => exact absurd enough (Nat.not_lt_zero _)
  | succ fuel ih =>
    have enough := Nat.le_of_lt_succ enough
    obtain ⟨moved, r₁, s₁, went, after⟩ := round_advances winds goes
    unfold run
    simp only [goAll, went, Except.map, Bool.or_false]
    cases has : r₁.result? with
    | some result =>
      simp only [List.mapM_cons, has, List.mapM_nil, Option.pure_def, Option.bind_eq_bind,
        Option.bind_some]
      exact ⟨_, _, rfl⟩
    | none =>
      rcases after with ⟨result, wants⟩ | ⟨stirred, s₂, settled, goes₂, after⟩
      · simp [Reader.result?, wants] at has
      · simp only [List.mapM_cons, has, Option.bind_eq_bind, Option.bind_none, settled]
        rcases after with ⟨moves, less⟩ | ⟨rests, le, wakes⟩
        · rw [if_pos moves]
          exact ih goes₂ (Nat.lt_of_lt_of_le less enough)
        · obtain ⟨due, wakes, least⟩ := alarms_min? wakes
          obtain ⟨goes', less⟩ := winds.clock goes₂ wakes
          have alarms : [r₁].filterMap (Reader.alarm? s₂.now) = (r₁.alarm? s₂.now).toList := by
            cases alarm : r₁.alarm? s₂.now <;> simp [alarm]
          simp only [rests, Option.any_none, Bool.false_eq_true, if_false, alarms,
            Option.toList_none, List.append_nil, least]
          exact ih goes' (Nat.lt_of_lt_of_le (Nat.lt_of_lt_of_le less le) enough)

end Winding

/-! ### Consumers that pull -/

section Consumers

variable {goingOn : m.State → Prop} {remaining : m.State → Time → Nat}

/-- A turn in which the consumer pulls comes to what the poll comes to. `closer` is what is left to
do behind a poll that brought the machine nearer to its end, and `stays` behind one that waits. -/
theorem turned_of_pull {going : Reader c → Setting ω α m.hub → Prop}
    {left : Reader c → Setting ω α m.hub → Nat} {n : Nat} (winds : m.WindsDown goingOn remaining)
    {r : Reader c} {s : Setting ω α m.hub} (wants : c.want r.memory = .pull)
    (goes : goingOn s.state)
    (last : ∀ {a}, a.isLast = true → ∀ now w,
      ∃ result, c.want (c.receive r.memory a now w).1 = .finish result)
    (closer : ∀ {r' state world}, goingOn state →
      remaining state s.now < remaining s.state s.now →
      Closer going left n r' { s with state, world })
    (stays : ∀ {state world}, goingOn state → remaining state s.now ≤ remaining s.state s.now →
      going r { s with state, world } ∧ left r { s with state, world } ≤ n) :
    Turned going left n (r.turn s) := by
  have nearer := winds.poll goes s.now s.world
  simp only [Reader.turn, wants, Machine.hub]
  generalize m.poll s.state s.now s.world = answer at nearer ⊢
  cases nearer with
  | @last a s' w' isLast =>
    obtain ⟨b, arrives, isLast⟩ := isLast
    have ends := last isLast s.now w'
    cases a with
    | item a => cases arrives; cases isLast
    | signal g =>
      cases g with
      | fail e => cases arrives; exact .inl ends
      | done => cases arrives; exact .inl ends
      | _ => cases arrives
  | @moves a s' w' moves sound goes less =>
    cases a with
    | item a => exact closer goes less
    | signal g =>
      cases g with
      | fail e => exact .inl (last rfl s.now w')
      | done => exact .inl (last rfl s.now w')
      | skip => exact closer goes less
      | pause => exact closer goes less
      | wait => exact absurd rfl moves
      | crash message => exact absurd rfl (sound message)
  | waits goes less wakes =>
    obtain ⟨goes, le⟩ := stays goes less
    refine ⟨goes, le, wakes.imp_right ?_⟩
    rintro ⟨due, alarm, late⟩
    exact ⟨due, late, .inl alarm⟩

/-- The consumer pulls, and the machine is going. -/
def Pulls (goingOn : m.State → Prop) (r : Reader c) (s : Setting ω α m.hub) : Prop :=
  c.want r.memory = .pull ∧ goingOn s.state

theorem pulls_turned (attentive : c.Attentive) (winds : m.WindsDown goingOn remaining)
    {r : Reader c} {s : Setting ω α m.hub} (pulls : Pulls goingOn r s) :
    Turned (Pulls goingOn) (fun _ s => remaining s.state s.now) (remaining s.state s.now)
      (r.turn s) := by
  obtain ⟨wants, goes⟩ := pulls
  refine turned_of_pull winds wants goes (attentive.last wants) ?_
    fun goes le => ⟨⟨wants, goes⟩, le⟩
  intro r' state world goes less
  rcases attentive.wants r'.memory with goesOn | result
  · exact .inr ⟨⟨goesOn, goes⟩, less⟩
  · exact .inl result

/-- A consumer that pulls winds down with its machine. -/
theorem pulls_windsDown (attentive : c.Attentive) (winds : m.WindsDown goingOn remaining) :
    WindsDown (c := c) (Pulls goingOn) fun _ s => remaining s.state s.now where
  turn := pulls_turned attentive winds
  tick {r s} pulls := by
    obtain ⟨goes, less⟩ := winds.tick pulls.2 s.now s.world
    exact ⟨⟨pulls.1, goes⟩, less⟩
  clock {r s due} pulls wakes := by
    obtain ⟨late, machine | own⟩ := wakes
    · exact ⟨pulls, winds.clock pulls.2 machine late⟩
    · simp [Reader.alarm?, pulls.1] at own

/-- The consumer of a machine that winds down has its result. -/
theorem consume_finishes (attentive : c.Attentive) (winds : m.WindsDown goingOn remaining)
    (pulls : c.want c.start = .pull) (output : Nat) {s : Setting ω α m.hub}
    (goes : goingOn s.state) (enough : remaining s.state s.now < patience) :
    ∃ result s', consume c output s = (.finished [result], s') :=
  run_finishes (pulls_windsDown attentive winds) patience ⟨pulls, goes⟩ enough

/-! ### Consumers that rest as well -/

/-- The consumer has no result yet, and the machine is going. -/
def GoesOn (goingOn : m.State → Prop) (r : Reader c) (s : Setting ω α m.hub) : Prop :=
  (∀ result, c.want r.memory ≠ .finish result) ∧ goingOn s.state

/-- A rest ends with a turn of the consumer, before which the clock may have to move. -/
def resting (r : Reader c) (now : Time) : Nat :=
  match c.want r.memory with
  | .rest due => if now < due then 2 else 1
  | _ => 0

theorem resting_le (r : Reader c) (now : Time) : resting r now ≤ 2 := by
  unfold resting
  split
  · split <;> omega
  · exact Nat.zero_le _

theorem resting_antitone (r : Reader c) {now later : Time} (le : now ≤ later) :
    resting r later ≤ resting r now := by
  unfold resting
  split
  · rename_i due wants
    by_cases early : later < due
    · simp only [if_pos early, if_pos (Nat.lt_of_le_of_lt le early), Nat.le_refl]
    · rw [if_neg early]
      split <;> omega
  · exact Nat.le_refl _

/-- With every pull that brings an element, the consumer may begin a rest. -/
def toDo (remaining : m.State → Time → Nat) (r : Reader c) (s : Setting ω α m.hub) : Nat :=
  3 * remaining s.state s.now + resting r s.now

/-- A consumer behind a turn that has brought the machine nearer to its end. -/
theorem closer_of_lt {n : Nat} {r : Reader c} {s : Setting ω α m.hub} (goes : goingOn s.state)
    (less : 3 * remaining s.state s.now + 2 < n) :
    Closer (GoesOn goingOn) (toDo remaining) n r s := by
  by_cases finished : ∃ result, c.want r.memory = .finish result
  · exact .inl finished
  · have bound := resting_le r s.now
    exact .inr ⟨⟨fun result wants => finished ⟨result, wants⟩, goes⟩, by unfold toDo; omega⟩

theorem goesOn_turned (diligent : c.Diligent) (winds : m.WindsDown goingOn remaining)
    {r : Reader c} {s : Setting ω α m.hub} (goesOn : GoesOn goingOn r s) :
    Turned (GoesOn goingOn) (toDo remaining) (toDo remaining r s) (r.turn s) := by
  obtain ⟨unfinished, goes⟩ := goesOn
  cases wants : c.want r.memory with
  | finish result => exact absurd wants (unfinished result)
  | rest due =>
    simp only [Reader.turn, wants]
    split
    · rename_i early
      refine ⟨⟨unfinished, goes⟩, Nat.le_refl _, .inr ⟨due, early, .inr ?_⟩⟩
      simp only [Reader.alarm?, wants]
      exact if_pos early
    · rename_i arrived
      have rests : resting r s.now = 1 := by
        simp only [resting, wants]
        exact if_neg arrived
      rcases diligent.wake wants s.now s.world (Nat.le_of_not_lt arrived) with pulls | result
      · refine .inr ⟨⟨by simp [pulls], goes⟩, ?_⟩
        rw [toDo, toDo, rests]
        simp only [resting, pulls]
        omega
      · exact .inl result
  | pull =>
    have begins : toDo remaining r s = 3 * remaining s.state s.now := by
      simp [toDo, resting, wants]
    rw [begins]
    refine turned_of_pull winds wants goes (diligent.last wants) ?_ ?_
    · intro r' state world goes less
      exact closer_of_lt goes (by dsimp only; omega)
    · intro state world goes le
      refine ⟨⟨unfinished, goes⟩, ?_⟩
      simp only [toDo, resting, wants]
      omega

/-- So does one that rests as well, if nothing is added to what is left while time passes. -/
theorem goesOn_windsDown (diligent : c.Diligent) (winds : m.WindsDown goingOn remaining)
    (passes : ∀ s {now later}, now ≤ later → remaining s later ≤ remaining s now) :
    WindsDown (c := c) (GoesOn goingOn) (toDo remaining) where
  turn := goesOn_turned diligent winds
  tick {r s} goesOn := by
    obtain ⟨goes, less⟩ := winds.tick goesOn.2 s.now s.world
    refine ⟨⟨goesOn.1, goes⟩, ?_⟩
    simp only [toDo, ticked]
    omega
  clock {r s due} goesOn wakes := by
    refine ⟨goesOn, ?_⟩
    obtain ⟨late, machine | own⟩ := wakes
    · have less := winds.clock goesOn.2 machine late
      have rests := resting_antitone r (Nat.le_of_lt late)
      simp only [toDo]
      omega
    · have same := passes s.state (Nat.le_of_lt late)
      have rests : resting r due < resting r s.now := by
        unfold Reader.alarm? at own
        split at own
        · rename_i due' wants
          rw [if_pos (by by_contra early; simp [early] at own)] at own
          cases own
          simp only [resting, wants, if_pos late, Nat.lt_irrefl, if_false]
          omega
        · cases own
      simp only [toDo]
      omega

/-- A consumer that rests has its result at a machine that winds down. -/
theorem visit_finishes (diligent : c.Diligent) (winds : m.WindsDown goingOn remaining)
    (passes : ∀ s {now later}, now ≤ later → remaining s later ≤ remaining s now)
    (pulls : c.want c.start = .pull) (output : Nat) {s : Setting ω α m.hub}
    (goes : goingOn s.state) (enough : 3 * remaining s.state s.now < patience) :
    ∃ result s', consume c output s = (.finished [result], s') := by
  refine run_finishes (goesOn_windsDown diligent winds passes) patience
    ⟨by simp [pulls], goes⟩ ?_
  simpa [toDo, resting, pulls] using enough

end Consumers

end Setting
end PullStream
