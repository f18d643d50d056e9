import PullStream.Polling

/-!
Polling keeps to a schedule.

The schedule says when each round starts as long as no stop comes: at the end of the round
before if that made progress, and a delay later if it was idle; progress brings the delay back,
and each wait lets it grow. A loop starts the rounds of the schedule, up to the first that fails
or sets a stop, and only those that are due before the stop; a wait that the stop reaches is
over, and a round under way is finished. The user of a generator who asks for the next round as
soon as the last one has ended, and says of the idle ones that they were, is handed the rounds
at the same instants.

* `loop_started`, `loop_ends` — which rounds a loop starts and when, and how and when it ends.
* `Pulled.settled` — what asking a generator comes to is what a loop does between two rounds.
* `Served.agrees` — a generator and its user are a loop.
-/

namespace PullStream.Polling

variable {settings : Settings.Backoff} {given : Option Time} {rounds : List Round} {r : Round}

/-! ### The schedule -/

/-- The place of a round: when it starts, and the delay that follows it if it is idle. -/
structure Slot where
  start : Time
  delay : Nat

/-- The place of the round behind `r`. -/
def Slot.next (settings : Settings.Backoff) (slot : Slot) (r : Round) : Slot :=
  let ended := slot.start + r.work
  match r.outcome with
  | .ok .made => { start := ended, delay := settings.initial }
  | .ok .idle =>
    { start := ended + slot.delay
      delay := Backoff.nextDelay settings.strategy slot.delay settings.increase settings.maximum }
  | .error _ => { slot with start := ended }

/-- The place of round `k`. -/
def slot (settings : Settings.Backoff) (first : Slot) (rounds : List Round) (k : Nat) : Slot :=
  (rounds.take k).foldl (Slot.next settings) first

@[simp] theorem slot_zero (first : Slot) : slot settings first rounds 0 = first := by
  simp [slot]

@[simp] theorem slot_cons_succ (first : Slot) (k : Nat) :
    slot settings first (r :: rounds) (k + 1) = slot settings (first.next settings r) rounds k := by
  simp [slot]

theorem Slot.le_next (settings : Settings.Backoff) (slot : Slot) (r : Round) :
    slot.start + r.work ≤ (slot.next settings r).start := by
  unfold Slot.next
  split
  · exact Nat.le_refl _
  · exact Nat.le_add_right _ _
  · exact Nat.le_refl _

theorem le_slot (first : Slot) (k : Nat) :
    first.start ≤ (slot settings first rounds k).start := by
  induction rounds generalizing first k with
  | nil => simp [slot]
  | cons r rest ih =>
    cases k with
    | zero => simp
    | succ k =>
      rw [slot_cons_succ]
      have behind := first.le_next settings r
      exact Nat.le_trans (Nat.le_trans (Nat.le_add_right _ _) behind) (ih _ _)

/-- A round behind which a loop goes on, if no stop comes from elsewhere. -/
structure Round.GoesOn (r : Round) : Prop where
  achieved : ∃ p, r.outcome = .ok p
  given : r.setsGiven = false
  own : r.setsOwn = false

theorem Round.sets_of_stops {p : Progress} (achieved : r.outcome = .ok p) (stops : ¬ r.GoesOn) :
    r.setsGiven = true ∨ r.setsOwn = true := by
  cases given : r.setsGiven with
  | true => exact .inl rfl
  | false =>
    cases own : r.setsOwn with
    | true => exact .inr rfl
    | false => exact absurd ⟨⟨p, achieved⟩, given, own⟩ stops

/-! ### Between two rounds -/

variable {s : State} {p : Progress}

/-- Whether a stop has come by an instant. -/
def hasCome (stop : Option Time) (now : Time) : Bool := stop.any (· ≤ now)

theorem hasCome_iff {stop : Option Time} {now : Time} :
    hasCome stop now = true ↔ ∃ c, stop = some c ∧ c ≤ now := by
  simp [hasCome, Option.any_eq_true]

theorem State.stop_of_own (own : s.own = none) : s.stop = s.given := by
  rw [stop, own]
  cases s.given <;> rfl

theorem State.stopped_of_own (own : s.own = none) : s.stopped = hasCome s.given s.now := by
  rw [stopped, s.stop_of_own own]
  rfl

/-- Without jitter a wait is as long as the delay, whatever is drawn. -/
theorem length_of_steady {b : Backoff} (steady : b.settings.jitter.atMost (.zero false) = true)
    (draw : Binary64) : b.length draw = b.current :=
  if_pos steady

/-- A stop that comes until a wait is due ends it, though not before it has begun. -/
theorem wait_cut {now length c : Nat} (come : c ≤ now + length) :
    (Timer.wait now length (some c)).time = max c now := by
  unfold Timer.wait
  dsimp only
  split
  · rename_i before
    exact (Nat.max_eq_right before).symm
  · rename_i behind
    have later := Nat.le_of_not_le behind
    split
    · exact (Nat.max_eq_left later).symm
    · rename_i due
      rw [Nat.max_eq_left later]
      exact Nat.le_antisymm (Nat.le_of_not_lt due) come

/-- A wait that no stop reaches ends when it is due. -/
theorem wait_elapsed {now length c : Nat} (late : ¬ c ≤ now + length) :
    (Timer.wait now length (some c)).time = now + length := by
  unfold Timer.wait
  dsimp only
  have behind : ¬ c ≤ now := fun before => late (Nat.le_trans before (Nat.le_add_right _ _))
  rw [if_neg behind, if_neg fun due => late (Nat.le_of_lt due)]

@[simp] theorem State.proceed_given (s : State) (p : Progress) (draw : Binary64) :
    (s.proceed p draw).given = s.given := by
  cases p <;> rfl

@[simp] theorem State.proceed_own (s : State) (p : Progress) (draw : Binary64) :
    (s.proceed p draw).own = s.own := by
  cases p <;> rfl

theorem State.proceed_stop (s : State) (p : Progress) (draw : Binary64) :
    (s.proceed p draw).stop = s.stop := by
  simp [stop]

/-- A loop that keeps to the schedule, before the round of a slot. -/
structure Keeps (settings : Settings.Backoff) (slot : Slot) (s : State) : Prop where
  backoff : s.backoff = { settings, current := slot.delay }
  now : s.now = slot.start
  own : s.own = none

/-- Where a loop that keeps to the schedule stands behind a round: at the next slot, or by its
stop, which has come before. -/
structure Behind (settings : Settings.Backoff) (slot : Slot) (r : Round) (s s' : State) : Prop where
  given : s'.given = s.given
  stopped : s'.stopped = hasCome s.given (slot.next settings r).start
  keeps : s'.stopped = false → Keeps settings (slot.next settings r) s'
  cut : ∀ c, s.given = some c → c ≤ (slot.next settings r).start →
    s'.now = max c (slot.start + r.work)

theorem Keeps.behind {slot : Slot} (keeps : Keeps settings slot s)
    (steady : settings.jitter.atMost (.zero false) = true) (goesOn : r.GoesOn)
    (achieved : r.outcome = .ok p) :
    Behind settings slot r s ((s.after r).proceed p r.draw) := by
  obtain ⟨b, now, given, own⟩ := s
  obtain ⟨rfl, rfl, rfl⟩ := keeps
  have after : State.after ⟨⟨settings, slot.delay⟩, slot.start, given, none⟩ r =
      ⟨⟨settings, slot.delay⟩, slot.start + r.work, given, none⟩ := by
    simp [State.after, goesOn.given, goesOn.own]
  rw [after]
  cases p with
  | made =>
    have next : slot.next settings r = ⟨slot.start + r.work, settings.initial⟩ := by
      simp [Slot.next, achieved]
    constructor
    · rfl
    · rw [next]
      exact State.stopped_of_own rfl
    · rw [next]
      exact fun _ => ⟨rfl, rfl, rfl⟩
    · rw [next]
      intro c _ come
      exact (Nat.max_eq_right come).symm
  | idle =>
    have next : slot.next settings r =
        ⟨slot.start + r.work + slot.delay,
          Backoff.nextDelay settings.strategy slot.delay settings.increase settings.maximum⟩ := by
      simp [Slot.next, achieved]
    have proceeds : State.proceed ⟨⟨settings, slot.delay⟩, slot.start + r.work, given, none⟩
        .idle r.draw =
          ⟨⟨settings, (slot.next settings r).delay⟩,
            (Timer.wait (slot.start + r.work) slot.delay given).time, given, none⟩ := by
      simp only [State.proceed, Backoff.wait, State.stop_of_own,
        length_of_steady (b := ⟨settings, slot.delay⟩) steady, next]
      rfl
    rw [proceeds]
    have stopped := State.stopped_of_own (s := ⟨⟨settings, (slot.next settings r).delay⟩,
      (Timer.wait (slot.start + r.work) slot.delay given).time, given, none⟩) rfl
    cases given with
    | none =>
      refine ⟨rfl, rfl, fun _ => ⟨rfl, ?_, rfl⟩, fun c none => by cases none⟩
      rw [next]
      rfl
    | some c =>
      by_cases come : c ≤ slot.start + r.work + slot.delay
      · have cut := wait_cut come
        have reached : hasCome (some c) (Timer.wait (slot.start + r.work) slot.delay
            (some c)).time = true := by
          rw [cut]
          exact hasCome_iff.mpr ⟨c, rfl, Nat.le_max_left _ _⟩
        have noted : hasCome (some c) (slot.next settings r).start = true := by
          rw [next]
          exact hasCome_iff.mpr ⟨c, rfl, come⟩
        refine ⟨rfl, ?_, ?_, ?_⟩
        · rw [stopped, reached, noted]
        · intro running
          rw [stopped, reached] at running
          cases running
        · intro c' same _
          cases same
          exact cut
      · have elapsed := wait_elapsed come
        constructor
        · rfl
        · rw [stopped, next]
          dsimp only
          rw [elapsed]
        · intro _
          rw [next]
          exact ⟨rfl, elapsed, rfl⟩
        · intro c' same come'
          cases same
          rw [next] at come'
          exact absurd come' come

theorem earliest_of_some (stop : Option Time) (now : Nat) :
    ∃ c ≤ now, earliest stop (some now) = some c := by
  cases stop with
  | none => exact ⟨now, Nat.le_refl _, rfl⟩
  | some c => exact ⟨min c now, Nat.min_le_right _ _, rfl⟩

/-- Of two stops of which one has come, the earlier has come. -/
theorem earliest_come {stop stop' : Option Time} {now : Nat}
    (come : (∃ c ≤ now, stop = some c) ∨ ∃ c ≤ now, stop' = some c) :
    ∃ c ≤ now, earliest stop stop' = some c := by
  rcases come with ⟨c, before, rfl⟩ | ⟨c, before, rfl⟩
  · cases stop' with
    | none => exact ⟨c, before, rfl⟩
    | some c' => exact ⟨min c c', Nat.le_trans (Nat.min_le_left _ _) before, rfl⟩
  · obtain ⟨c', before', same⟩ := earliest_of_some stop c
    exact ⟨c', Nat.le_trans before' before, same⟩

/-- A round that sets a stop is the last one, and nobody waits behind it. -/
theorem State.proceed_of_sets (s : State) (p : Progress)
    (sets : r.setsGiven = true ∨ r.setsOwn = true) :
    ((s.after r).proceed p r.draw).stopped = true ∧
      ((s.after r).proceed p r.draw).now = s.now + r.work := by
  obtain ⟨c, before, stop⟩ : ∃ c ≤ s.now + r.work, (s.after r).stop = some c := by
    apply earliest_come
    rcases sets with set | set
    · left
      simpa [State.after, set] using earliest_of_some s.given (s.now + r.work)
    · right
      simpa [State.after, set] using earliest_of_some s.own (s.now + r.work)
  have now : ((s.after r).proceed p r.draw).now = s.now + r.work := by
    cases p with
    | made => rfl
    | idle =>
      change (Timer.wait (s.now + r.work) _ (s.after r).stop).time = _
      rw [stop, wait_cut (Nat.le_trans before (Nat.le_add_right _ _)), Nat.max_eq_right before]
  refine ⟨?_, now⟩
  rw [State.stopped, State.proceed_stop, stop, now]
  simpa using before

/-! ### Loops -/

theorem loop_of_stopped (rounds : List Round) (stopped : s.stopped = true) :
    loop rounds s = ([], .stopped, s) := by
  unfold loop
  exact if_pos stopped

theorem loop_nil (running : s.stopped = false) : loop [] s = ([], .unfinished, s) := by
  simp [loop, running]

theorem loop_failed {e : Failure} (rest : List Round) (running : s.stopped = false)
    (failed : r.outcome = .error e) :
    loop (r :: rest) s = ([s.now], .failed e, s.after r) := by
  simp [loop, running, failed]

theorem loop_achieved (rest : List Round) (running : s.stopped = false)
    (achieved : r.outcome = .ok p) :
    loop (r :: rest) s =
      (s.now :: (loop rest ((s.after r).proceed p r.draw)).1,
        (loop rest ((s.after r).proceed p r.draw)).2) := by
  simp [loop, running, achieved]

/-- A round of the schedule that a loop comes to: the ones before go on, and it starts before
the stop. -/
structure Due (settings : Settings.Backoff) (first : Slot) (rounds : List Round)
    (given : Option Time) (k : Nat) : Prop where
  there : k < rounds.length
  behind : ∀ r ∈ rounds.take k, r.GoesOn
  before : ∀ c, given = some c → (slot settings first rounds k).start < c

theorem Due.cons_iff {first : Slot} {k : Nat} :
    Due settings first (r :: rounds) given (k + 1) ↔
      r.GoesOn ∧ Due settings (first.next settings r) rounds given k := by
  constructor
  · intro due
    refine ⟨due.behind r (by simp), Nat.lt_of_succ_lt_succ due.there, ?_, ?_⟩
    · intro r' member
      exact due.behind r' (by simp [member])
    · simpa using due.before
  · rintro ⟨goesOn, due⟩
    refine ⟨Nat.succ_lt_succ due.there, ?_, ?_⟩
    · intro r' member
      rcases List.mem_cons.mp member with rfl | later
      · exact goesOn
      · exact due.behind r' later
    · simpa using due.before

/-- Behind a stop nothing is due. -/
theorem not_due_of_come {first : Slot} {k : Nat} (come : hasCome given first.start = true) :
    ¬ Due settings first rounds given k := by
  intro due
  obtain ⟨c, rfl, before⟩ := hasCome_iff.mp come
  exact absurd (Nat.le_trans before (le_slot first k)) (Nat.not_le_of_lt (due.before c rfl))

theorem due_of_not_come {first : Slot} (running : hasCome given first.start = false) (r : Round)
    (rounds : List Round) : Due settings first (r :: rounds) given 0 where
  there := Nat.succ_pos _
  behind _ member := absurd member List.not_mem_nil
  before c same := by
    rw [slot_zero]
    rw [same] at running
    simpa [hasCome] using running

/-- A loop starts the rounds that are due, at their instants, and no others. -/
theorem loop_started {first : Slot} (steady : settings.jitter.atMost (.zero false) = true)
    (keeps : Keeps settings first s) (k : Nat) (t : Time) :
    (loop rounds s).1[k]? = some t ↔
      Due settings first rounds s.given k ∧ t = (slot settings first rounds k).start := by
  induction rounds generalizing s first k with
  | nil =>
    have none : (loop [] s).1 = [] := by
      cases stopped : s.stopped with
      | true => rw [loop_of_stopped [] stopped]
      | false => rw [loop_nil stopped]
    rw [none]
    constructor
    · intro some
      cases some
    · rintro ⟨due, -⟩
      exact absurd due.there (Nat.not_lt_zero k)
  | cons r rest ih =>
    have stops := s.stopped_of_own keeps.own
    rw [keeps.now] at stops
    cases stopped : s.stopped with
    | true =>
      rw [loop_of_stopped _ stopped]
      constructor
      · intro some
        cases some
      · rintro ⟨due, -⟩
        exact absurd due (not_due_of_come (stops ▸ stopped))
    | false =>
      -- The first round starts; what follows depends on whether a loop goes on behind it.
      have now : Due settings first (r :: rest) s.given 0 :=
        due_of_not_come (stops ▸ stopped) r rest
      cases outcome : r.outcome with
      | error e =>
        rw [loop_failed rest stopped outcome]
        have last : ¬ r.GoesOn := by
          rintro ⟨⟨p, achieved⟩, -, -⟩
          cases outcome.symm.trans achieved
        cases k with
        | zero => simp [now, keeps.now, eq_comm]
        | succ k => simp [Due.cons_iff, last]
      | ok p =>
        rw [loop_achieved rest stopped outcome]
        cases k with
        | zero => simp [now, keeps.now, eq_comm]
        | succ k =>
          rw [Due.cons_iff, slot_cons_succ, List.getElem?_cons_succ]
          by_cases goesOn : r.GoesOn
          · have behind := keeps.behind steady goesOn outcome
            cases stops : ((s.after r).proceed p r.draw).stopped with
            | true =>
              rw [loop_of_stopped _ stops]
              have past : hasCome s.given (first.next settings r).start = true :=
                behind.stopped.symm.trans stops
              simp [not_due_of_come past]
            | false =>
              rw [ih (behind.keeps stops) k, behind.given]
              simp [goesOn]
          · have sets := r.sets_of_stops outcome goesOn
            rw [loop_of_stopped _ (s.proceed_of_sets p sets).1]
            simp [goesOn]

/-- How a loop that has started `n` rounds ends, and when. -/
inductive Ends (settings : Settings.Backoff) (first : Slot) (rounds : List Round)
    (given : Option Time) (n : Nat) : Ending → Time → Prop where
  /-- The last round fails, which ends the loop at once. -/
  | failed {k r e} : n = k + 1 → rounds[k]? = some r → r.outcome = .error e →
      Ends settings first rounds given n (.failed e) ((slot settings first rounds k).start + r.work)
  /-- The last round sets a stop, and is finished. -/
  | set {k r p} : n = k + 1 → rounds[k]? = some r → r.outcome = .ok p →
      r.setsGiven = true ∨ r.setsOwn = true →
      Ends settings first rounds given n .stopped ((slot settings first rounds k).start + r.work)
  /-- The stop has come before the first round. -/
  | early {c} : n = 0 → given = some c → c ≤ first.start →
      Ends settings first rounds given n .stopped first.start
  /-- The stop comes until the next round: a wait is over then, and the last round is finished. -/
  | cut {k r c} : n = k + 1 → rounds[k]? = some r → r.GoesOn → given = some c →
      c ≤ (slot settings first rounds n).start →
      Ends settings first rounds given n .stopped
        (max c ((slot settings first rounds k).start + r.work))
  /-- No stop has come, and there are no more rounds. -/
  | unfinished : n = rounds.length → (∀ r ∈ rounds, r.GoesOn) →
      (∀ c, given = some c → (slot settings first rounds n).start < c) →
      Ends settings first rounds given n .unfinished (slot settings first rounds n).start

/-- Behind a round that goes on, a loop that has not been stopped ends as the loop over the
other rounds does. -/
theorem Ends.cons {first : Slot} {n : Nat} {ending : Ending} {t : Time} (goesOn : r.GoesOn)
    (running : hasCome given (first.next settings r).start = false)
    (ends : Ends settings (first.next settings r) rounds given n ending t) :
    Ends settings first (r :: rounds) given (n + 1) ending t := by
  cases ends with
  | @failed k r' e last there failed =>
    rw [← slot_cons_succ]
    exact .failed (by rw [last]) (by simpa using there) failed
  | @set k r' p last there achieved sets =>
    rw [← slot_cons_succ]
    exact .set (by rw [last]) (by simpa using there) achieved sets
  | early _ same come =>
    rw [hasCome_iff.mpr ⟨_, same, come⟩] at running
    cases running
  | @cut k r' c last there goesOn' same come =>
    rw [← slot_cons_succ] at come ⊢
    exact .cut (by rw [last]) (by simpa using there) goesOn' same come
  | unfinished all go late =>
    rw [← slot_cons_succ] at late ⊢
    refine .unfinished (by simp [all]) ?_ late
    intro r' member
    rcases List.mem_cons.mp member with rfl | later
    · exact goesOn
    · exact go r' later

/-- Every loop ends in one of these ways: by the failure of a round, by a stop, or as its
rounds run out. -/
theorem loop_ends {first : Slot} (steady : settings.jitter.atMost (.zero false) = true)
    (keeps : Keeps settings first s) :
    Ends settings first rounds s.given (loop rounds s).1.length (loop rounds s).2.1
      (loop rounds s).2.2.now := by
  induction rounds generalizing s first with
  | nil =>
    have stops := s.stopped_of_own keeps.own
    cases stopped : s.stopped with
    | true =>
      rw [loop_of_stopped [] stopped]
      obtain ⟨c, same, come⟩ := hasCome_iff.mp (stops.symm.trans stopped)
      dsimp only
      rw [keeps.now] at come ⊢
      exact .early rfl same come
    | false =>
      rw [loop_nil stopped]
      dsimp only
      rw [keeps.now]
      refine .unfinished rfl (by simp) ?_
      intro c same
      rw [stopped, same, keeps.now] at stops
      simpa [hasCome] using stops.symm
  | cons r rest ih =>
    have stops := s.stopped_of_own keeps.own
    cases stopped : s.stopped with
    | true =>
      rw [loop_of_stopped _ stopped]
      obtain ⟨c, same, come⟩ := hasCome_iff.mp (stops.symm.trans stopped)
      dsimp only
      rw [keeps.now] at come ⊢
      exact .early rfl same come
    | false =>
      cases outcome : r.outcome with
      | error e =>
        rw [loop_failed rest stopped outcome]
        change Ends settings first (r :: rest) s.given 1 (.failed e) (s.now + r.work)
        rw [keeps.now]
        exact .failed (k := 0) rfl rfl outcome
      | ok p =>
        rw [loop_achieved rest stopped outcome]
        by_cases goesOn : r.GoesOn
        · have behind := keeps.behind steady goesOn outcome
          cases past : ((s.after r).proceed p r.draw).stopped with
          | true =>
            rw [loop_of_stopped _ past]
            obtain ⟨c, same, come⟩ := hasCome_iff.mp (behind.stopped.symm.trans past)
            dsimp only
            rw [behind.cut c same come]
            exact .cut (k := 0) rfl rfl goesOn same (by simpa using come)
          | false =>
            have rest := ih (behind.keeps past)
            rw [behind.given] at rest
            exact .cons goesOn (behind.stopped.symm.trans past) rest
        · have sets := r.sets_of_stops outcome goesOn
          obtain ⟨past, now⟩ := s.proceed_of_sets p sets
          rw [loop_of_stopped _ past]
          dsimp only
          rw [now, keeps.now]
          exact .set (k := 0) rfl rfl outcome sets

/-- The stop that a loop was given stays as it is, unless a round that has started sets it. -/
theorem loop_given (unset : ∀ r ∈ rounds.take (loop rounds s).1.length, r.setsGiven = false) :
    (loop rounds s).2.2.given = s.given := by
  induction rounds generalizing s with
  | nil =>
    cases stopped : s.stopped with
    | true => rw [loop_of_stopped [] stopped]
    | false => rw [loop_nil stopped]
  | cons r rest ih =>
    cases stopped : s.stopped with
    | true => rw [loop_of_stopped _ stopped]
    | false =>
      cases outcome : r.outcome with
      | error e =>
        rw [loop_failed rest stopped outcome] at unset ⊢
        simp [State.after, unset r (by simp)]
      | ok p =>
        rw [loop_achieved rest stopped outcome] at unset ⊢
        rw [ih fun r' member => unset r' (by simp [member])]
        simp [State.after, unset r (by simp)]

/-! ### Generators -/

section Generators

variable {g g' : Generator} {now t : Time} {answer : Answer}

/-- Somebody asks a generator at `now`, and again while it waits, at any instants, but not later
than a wake-up: when the wait is due, and when the stop comes. What is drawn is left open. At
`t` the generator answers. -/
inductive Pulled (given : Option Time) : Generator → Time → Answer → Time → Generator → Prop where
  | answered {g g' : Generator} {now draw answer} :
      g.next draw now (hasCome given now) = (answer, g') → answer ≠ .wait →
      Pulled given g now answer now g'
  | asleep {g g' g'' : Generator} {now later draw answer t} :
      g.next draw now (hasCome given now) = (.wait, g') → now ≤ later →
      (∀ wake ∈ g'.alarms ++ given.toList, later ≤ wake) → Pulled given g' later answer t g'' →
      Pulled given g now answer t g''

/-- Where a loop would stand that has come as far as a generator which is asked at `now`: the
last round is settled. -/
def Generator.settled (g : Generator) (given : Option Time) (now : Time) : State :=
  match g.phase with
  | .out idle =>
    State.proceed { backoff := g.backoff, now, given } (if idle then .idle else .made)
      Backoff.leastDraw
  | _ => { backoff := g.backoff, now, given }

/-- A generator that a user may ask: it has not noticed its stop, and nobody waits. -/
def Generator.Ready (g : Generator) : Prop := g.phase = .fresh ∨ ∃ idle, g.phase = .out idle

/-- A round is handed out before the stop only, whoever asks and whenever. -/
theorem Pulled.round_before (pulled : Pulled given g now .round t g') :
    hasCome given t = false := by
  generalize asked : Answer.round = answer at pulled
  induction pulled with
  | asleep _ _ _ _ ih => exact ih asked
  | @answered g g' now draw answer next _ =>
    subst asked
    cases come : hasCome given now with
    | false => rfl
    | true =>
      rw [come] at next
      have stops : (g.next draw now true).1 ≠ .round := by
        unfold Generator.next
        split <;> simp [Generator.handOut, Generator.keepWaiting]
      exact absurd (congrArg Prod.fst next) stops

/-- A wait that begins at `start` lasts until `x`: before, neither has the stop come nor is the
wait due, and then one of them is the case. -/
structure Lasts (given : Option Time) (start due x : Nat) : Prop where
  before : ∀ t, start ≤ t → t < x → hasCome given t = false ∧ t < due
  past : hasCome given x = true ∨ due ≤ x
  wakes : x = start ∨ x ∈ due :: given.toList

theorem lasts_wait (given : Option Time) (now length : Nat) :
    Lasts given now (now + length) (Timer.wait now length given).time := by
  cases given with
  | none =>
    change Lasts none now (now + length) (now + length)
    exact ⟨fun t _ early => ⟨rfl, early⟩, .inr (Nat.le_refl _), .inr List.mem_cons_self⟩
  | some c =>
    by_cases come : c ≤ now + length
    · rw [wait_cut come]
      have past := hasCome_iff.mpr ⟨c, rfl, Nat.le_max_left c now⟩
      rcases Nat.le_total c now with behind | ahead
      · rw [Nat.max_eq_right behind] at past ⊢
        exact ⟨fun t later early => absurd later (Nat.not_le_of_lt early), .inl past, .inl rfl⟩
      · rw [Nat.max_eq_left ahead] at past ⊢
        refine ⟨?_, .inl past, .inr (by simp)⟩
        intro t _ early
        exact ⟨by simpa [hasCome] using early, Nat.lt_of_lt_of_le early come⟩
    · rw [wait_elapsed come]
      refine ⟨?_, .inr (Nat.le_refl _), .inr List.mem_cons_self⟩
      intro t _ early
      have ahead := Nat.lt_trans early (Nat.lt_of_not_le come)
      exact ⟨by simpa [hasCome] using ahead, early⟩

/-- No wake-up comes before the end of a wait. -/
theorem Lasts.le_wake {start due x wake : Nat} (lasts : Lasts given start due x) (early : start < x)
    (wakes : wake ∈ due :: given.toList) : x ≤ wake := by
  apply Nat.le_of_not_lt
  intro before
  obtain ⟨fresh, ahead⟩ :=
    lasts.before (max start wake) (Nat.le_max_left _ _) (Nat.max_lt.mpr ⟨early, before⟩)
  rcases List.mem_cons.mp wakes with rfl | stop
  · exact absurd (Nat.le_max_right start wake) (Nat.not_le_of_lt ahead)
  · have come := hasCome_iff.mpr ⟨wake, Option.mem_toList.mp stop, Nat.le_max_right start wake⟩
    cases fresh.symm.trans come

/-- What a generator hands out does not depend on where it stood. -/
theorem Generator.handOut_eq (g : Generator) (b : Backoff) (stopped : Bool) :
    { g with backoff := b }.handOut stopped = ({ backoff := b } : Generator).handOut stopped := by
  cases stopped <;> rfl

theorem Generator.handOut_ne_wait (g : Generator) (stopped : Bool) :
    (g.handOut stopped).1 ≠ .wait := by
  cases stopped <;> simp [handOut]

theorem Generator.keepWaiting_past {due : Nat} {now : Nat}
    (past : hasCome given now = true ∨ due ≤ now) :
    g.keepWaiting due now (hasCome given now) =
      ({ backoff := g.backoff.advance } : Generator).handOut (hasCome given now) := by
  rw [keepWaiting, if_pos past, handOut_eq]

theorem Generator.keepWaiting_early {due : Nat} {now : Nat}
    (early : hasCome given now = false ∧ now < due) :
    g.keepWaiting due now (hasCome given now) = (.wait, { g with phase := .waiting due }) := by
  rw [keepWaiting, if_neg]
  rintro (come | isDue)
  · cases early.1.symm.trans come
  · exact absurd early.2 (Nat.not_lt_of_le isDue)

theorem Generator.next_waiting {due : Time} (phase : g.phase = .waiting due) (draw : Binary64)
    (stopped : Bool) : g.next draw now stopped = g.keepWaiting due now stopped := by
  rw [next, phase]

theorem Generator.next_idle (now : Time)
    (steady : g.backoff.settings.jitter.atMost (.zero false) = true)
    (phase : g.phase = .out true) (draw : Binary64) (stopped : Bool) :
    g.next draw now stopped = g.keepWaiting (now + g.backoff.current) now stopped := by
  rw [next, phase, ← length_of_steady steady draw]

/-- A wait ends at its end, and the generator goes on from there. -/
theorem Pulled.waited {start due x : Nat} (lasts : Lasts given start due x)
    (phase : g.phase = .waiting due) (begun : start ≤ now) (early : now ≤ x)
    (pulled : Pulled given g now answer t g') :
    t = x ∧ (answer, g') =
      ({ backoff := g.backoff.advance } : Generator).handOut (hasCome given x) := by
  induction pulled with
  | @answered g g' now draw answer next answers =>
    rw [Generator.next_waiting phase] at next
    rcases Nat.lt_or_eq_of_le early with earlier | rfl
    · rw [Generator.keepWaiting_early (lasts.before now begun earlier)] at next
      exact absurd (congrArg Prod.fst next).symm answers
    · rw [Generator.keepWaiting_past lasts.past] at next
      exact ⟨rfl, next.symm⟩
  | @asleep g g' g'' now later draw answer t next order woken _ ih =>
    rw [Generator.next_waiting phase] at next
    rcases Nat.lt_or_eq_of_le early with earlier | rfl
    · rw [Generator.keepWaiting_early (lasts.before now begun earlier)] at next
      cases next
      refine ih rfl (Nat.le_trans begun order) (woken x ?_)
      rcases lasts.wakes with rfl | wakes
      · exact absurd begun (Nat.not_le_of_lt earlier)
      · simpa [Generator.alarms] using wakes
    · rw [Generator.keepWaiting_past lasts.past] at next
      exact absurd (congrArg Prod.fst next) (Generator.handOut_ne_wait _ _)

@[simp] theorem Generator.settled_given (g : Generator) (given : Option Time) (now : Time) :
    (g.settled given now).given = given := by
  unfold settled
  split <;> simp

@[simp] theorem Generator.settled_own (g : Generator) (given : Option Time) (now : Time) :
    (g.settled given now).own = none := by
  unfold settled
  split <;> simp

theorem State.proceed_settings (s : State) (p : Progress) (draw : Binary64) :
    (s.proceed p draw).backoff.settings = s.backoff.settings := by
  cases p <;> rfl

theorem Generator.settled_settings (g : Generator) (given : Option Time) (now : Time) :
    (g.settled given now).backoff.settings = g.backoff.settings := by
  unfold settled
  split
  · exact State.proceed_settings _ _ _
  · rfl

/-- The state of a loop behind a wait. -/
theorem Generator.settled_idle (steady : g.backoff.settings.jitter.atMost (.zero false) = true)
    (phase : g.phase = .out true) :
    g.settled given now =
      { backoff := g.backoff.advance, given
        now := (Timer.wait now g.backoff.current given).time } := by
  simp only [settled, phase, if_true, State.proceed, Backoff.wait, State.stop_of_own,
    length_of_steady steady]

/-- A generator that need not wait answers at once. -/
theorem Pulled.prompt {h : Generator}
    (hands : ∀ draw, g.next draw now (hasCome given now) = h.handOut (hasCome given now))
    (pulled : Pulled given g now answer t g') :
    t = now ∧ (answer, g') = h.handOut (hasCome given now) := by
  cases pulled with
  | answered next _ => exact ⟨rfl, next.symm.trans (hands _)⟩
  | asleep next _ _ _ =>
    rw [hands] at next
    exact absurd (congrArg Prod.fst next) (h.handOut_ne_wait _)

/-- What asking a generator comes to: it answers where a loop would stand, and hands out a round
unless that has been stopped. -/
theorem Pulled.settled (steady : g.backoff.settings.jitter.atMost (.zero false) = true)
    (ready : g.Ready) (pulled : Pulled given g now answer t g') :
    t = (g.settled given now).now ∧
      (answer, g') = ({ backoff := (g.settled given now).backoff } : Generator).handOut
        (g.settled given now).stopped := by
  rw [State.stopped_of_own (by simp), Generator.settled_given]
  rcases ready with fresh | ⟨idle, out⟩
  · have settled : g.settled given now = { backoff := g.backoff, now, given } := by
      simp [Generator.settled, fresh]
    rw [settled]
    refine pulled.prompt fun draw => ?_
    rw [Generator.next, fresh]
    exact g.handOut_eq g.backoff _
  · cases idle with
    | false =>
      have settled : g.settled given now = { backoff := g.backoff.reset, now, given } := by
        simp [Generator.settled, out, State.proceed]
      rw [settled]
      refine pulled.prompt fun draw => ?_
      rw [Generator.next, out]
      exact g.handOut_eq g.backoff.reset _
    | true =>
      rw [Generator.settled_idle steady out]
      -- The first question begins a wait, and any later one goes on with it.
      have same : ∀ draw, g.next draw now (hasCome given now) =
          ({ g with phase := .waiting (now + g.backoff.current) } : Generator).next draw now
            (hasCome given now) := by
        intro draw
        rw [Generator.next_idle now steady out, Generator.next_waiting rfl]
        rfl
      have begins : Pulled given { g with phase := .waiting (now + g.backoff.current) } now
          answer t g' := by
        cases pulled with
        | answered next answers => exact .answered ((same _).symm.trans next) answers
        | asleep next order woken pulled =>
          exact .asleep ((same _).symm.trans next) order woken pulled
      have waited := begins.waited (lasts_wait given now g.backoff.current) rfl (Nat.le_refl _)
        (Timer.wait_time _ _ _).1
      exact waited

/-- A generator that is asked does answer. -/
theorem Generator.pulled_of_ready
    (steady : g.backoff.settings.jitter.atMost (.zero false) = true) (ready : g.Ready)
    (given : Option Time) (now : Time) : ∃ answer t g', Pulled given g now answer t g' := by
  have prompt : ∀ {h : Generator},
      g.next Backoff.leastDraw now (hasCome given now) = h.handOut (hasCome given now) →
      ∃ answer t g', Pulled given g now answer t g' := by
    intro h hands
    exact ⟨_, _, _, .answered hands (h.handOut_ne_wait _)⟩
  rcases ready with fresh | ⟨idle, out⟩
  · refine prompt (h := g) ?_
    rw [Generator.next, fresh]
  · cases idle with
    | false =>
      refine prompt (h := { g with backoff := g.backoff.reset }) ?_
      rw [Generator.next, out]
    | true =>
      have lasts := lasts_wait given now g.backoff.current
      have next := g.next_idle now steady out Backoff.leastDraw (hasCome given now)
      have order := (Timer.wait_time now g.backoff.current given).1
      generalize (Timer.wait now g.backoff.current given).time = x at lasts order
      rcases Nat.lt_or_eq_of_le order with early | rfl
      · -- The wait goes on; somebody asks again when it is over.
        rw [Generator.keepWaiting_early (lasts.before now (Nat.le_refl _) early)] at next
        have past := (Generator.next_waiting (g := { g with phase := .waiting _ }) rfl
          Backoff.leastDraw (hasCome given x)).trans (Generator.keepWaiting_past lasts.past)
        refine ⟨_, _, _, .asleep next order ?_ (.answered past (Generator.handOut_ne_wait _ _))⟩
        intro wake wakes
        exact lasts.le_wake early (by simpa [Generator.alarms] using wakes)
      · rw [Generator.keepWaiting_past lasts.past] at next
        exact prompt next

/-- The user of a generator says what a round has achieved. -/
def Generator.told (g : Generator) : Progress → Generator
  | .made => g
  | .idle => g.idle

/-- The user of a generator works through rounds, and asks for the next one as soon as the last
has ended: the instants at which rounds were handed out, how that came to an end, and when. A
user whose round fails does not ask again. -/
inductive Served : Option Time → List Round → Generator → Time → List Time → Ending → Time →
    Prop where
  | stopped {given : Option Time} {rounds : List Round} {g g' now t} :
      Pulled given g now .stop t g' → Served given rounds g now [] .stopped t
  | unfinished {given : Option Time} {g g' now t} : Pulled given g now .round t g' →
      Served given [] g now [] .unfinished t
  | failed {given : Option Time} {rest : List Round} {g g' now t} {r : Round} {e} :
      Pulled given g now .round t g' → r.outcome = .error e →
      Served given (r :: rest) g now [t] (.failed e) (t + r.work)
  | round {given : Option Time} {rest : List Round} {g g' now t} {r : Round}
      {p starts ending last} :
      Pulled given g now .round t g' → r.outcome = .ok p →
      Served (if r.setsGiven then earliest given (some (t + r.work)) else given) rest (g'.told p)
        (t + r.work) starts ending last →
      Served given (r :: rest) g now (t :: starts) ending last

theorem State.proceed_draw (steady : s.backoff.settings.jitter.atMost (.zero false) = true)
    (draw draw' : Binary64) : s.proceed p draw = s.proceed p draw' := by
  cases p with
  | made => rfl
  | idle => simp only [proceed, Backoff.wait, length_of_steady steady]

/-- A generator that has handed out a round, told what it achieved, stands where a loop does. -/
theorem Generator.told_settled (b : Backoff) (p : Progress) (given : Option Time) (now : Time) :
    (told ⟨b, .out false⟩ p).settled given now =
      State.proceed { backoff := b, now, given } p Backoff.leastDraw := by
  cases p <;> rfl

theorem Generator.handOut_round {b : Backoff} {stopped : Bool}
    (hands : (Answer.round, g) = ({ backoff := b } : Generator).handOut stopped) :
    stopped = false ∧ g = { backoff := b, phase := .out false } := by
  cases stopped with
  | true => cases hands
  | false =>
    cases hands
    exact ⟨rfl, rfl⟩

theorem Generator.handOut_stop {b : Backoff} {stopped : Bool}
    (hands : (Answer.stop, g) = ({ backoff := b } : Generator).handOut stopped) :
    stopped = true := by
  cases stopped with
  | true => rfl
  | false => cases hands

theorem Generator.told_ready {b : Backoff} (p : Progress) :
    (Generator.told ⟨b, .out false⟩ p).Ready := by
  cases p <;> exact .inr ⟨_, rfl⟩

@[simp] theorem Generator.told_backoff (g : Generator) (p : Progress) :
    (g.told p).backoff = g.backoff := by
  cases p with
  | made => rfl
  | idle =>
    unfold told idle
    dsimp only
    split <;> rfl

/-- A generator and its user are a loop, over rounds that set no stop but the one given. -/
theorem Served.agrees {starts : List Time} {ending : Ending}
    (served : Served given rounds g now starts ending t)
    (steady : g.backoff.settings.jitter.atMost (.zero false) = true) (ready : g.Ready)
    (shared : ∀ r ∈ rounds, r.setsOwn = false) :
    (loop rounds (g.settled given now)).1 = starts ∧
      (loop rounds (g.settled given now)).2.1 = ending ∧
      (loop rounds (g.settled given now)).2.2.now = t := by
  induction served with
  | stopped pulled =>
    obtain ⟨rfl, hands⟩ := pulled.settled steady ready
    rw [loop_of_stopped _ (Generator.handOut_stop hands)]
    exact ⟨rfl, rfl, rfl⟩
  | unfinished pulled =>
    obtain ⟨rfl, hands⟩ := pulled.settled steady ready
    rw [loop_nil (Generator.handOut_round hands).1]
    exact ⟨rfl, rfl, rfl⟩
  | failed pulled failed =>
    obtain ⟨rfl, hands⟩ := pulled.settled steady ready
    rw [loop_failed _ (Generator.handOut_round hands).1 failed]
    exact ⟨rfl, rfl, rfl⟩
  | @round given rest g g' now t r p starts ending last pulled achieved _ ih =>
    obtain ⟨rfl, hands⟩ := pulled.settled steady ready
    obtain ⟨running, rfl⟩ := Generator.handOut_round hands
    have steady' : (g.settled given now).backoff.settings.jitter.atMost (.zero false) = true := by
      rw [g.settled_settings]
      exact steady
    have own : r.setsOwn = false := shared r List.mem_cons_self
    have after : (g.settled given now).after r =
        { backoff := (g.settled given now).backoff, now := (g.settled given now).now + r.work
          given := if r.setsGiven then earliest given (some ((g.settled given now).now + r.work))
            else given } := by
      simp [State.after, own]
    have next := Generator.told_settled (g.settled given now).backoff p
      (if r.setsGiven then earliest given (some ((g.settled given now).now + r.work)) else given)
      ((g.settled given now).now + r.work)
    rw [← after, State.proceed_draw (by exact steady') Backoff.leastDraw r.draw] at next
    obtain ⟨starts, ending, last⟩ := ih (by simpa using steady') (Generator.told_ready p)
      fun r' member => shared r' (List.mem_cons_of_mem _ member)
    rw [next] at starts ending last
    rw [loop_achieved rest running achieved]
    exact ⟨by rw [starts], ending, last⟩

/-- There is such a user, whatever the rounds. -/
theorem Generator.served_of_ready (rounds : List Round)
    (steady : g.backoff.settings.jitter.atMost (.zero false) = true) (ready : g.Ready)
    (given : Option Time) (now : Time) :
    ∃ starts ending last, Served given rounds g now starts ending last := by
  induction rounds generalizing g given now with
  | nil =>
    obtain ⟨answer, t, g', pulled⟩ := pulled_of_ready steady ready given now
    have hands := (pulled.settled steady ready).2
    cases stopped : (g.settled given now).stopped with
    | true =>
      rw [stopped] at hands
      cases hands
      exact ⟨_, _, _, .stopped pulled⟩
    | false =>
      rw [stopped] at hands
      cases hands
      exact ⟨_, _, _, .unfinished pulled⟩
  | cons r rest ih =>
    obtain ⟨answer, t, g', pulled⟩ := pulled_of_ready steady ready given now
    have hands := (pulled.settled steady ready).2
    cases stopped : (g.settled given now).stopped with
    | true =>
      rw [stopped] at hands
      cases hands
      exact ⟨_, _, _, .stopped pulled⟩
    | false =>
      rw [stopped] at hands
      cases hands
      cases outcome : r.outcome with
      | error e => exact ⟨_, _, _, .failed pulled outcome⟩
      | ok p =>
        obtain ⟨starts, ending, last, served⟩ := ih
          (g := Generator.told ⟨(g.settled given now).backoff, .out false⟩ p)
          (by simpa [g.settled_settings] using steady) (told_ready p)
          (if r.setsGiven then earliest given (some (t + r.work)) else given) (t + r.work)
        exact ⟨_, _, _, .round pulled outcome served⟩

end Generators

/-! ### One schedule -/

/-- Loops and generators keep to one schedule, under every setting that can be used and has no
jitter, whatever the rounds do and whenever the stop comes. A loop starts the rounds of the
schedule that are due before the stop and follow rounds that go on, ends in one of the ways of
`Ends`, and leaves the stop that it was given alone unless a round sets it. A generator whose
user asks as soon as a round has ended hands out rounds at the same instants, and comes to the
same end at the same time; no user is given a round once the stop has come. -/
theorem polling_schedule (settings : Settings.Backoff) (valid : settings.validate = .ok ())
    (steady : settings.jitter.atMost (.zero false) = true) :
    ∃ backoff, Backoff.create settings = .ok backoff ∧
      Generator.create settings = .ok { backoff } ∧
      (∀ (rounds : List Round) (now : Time) (given : Option Time),
        let first : Slot := { start := now, delay := settings.initial }
        let ran := loop rounds { backoff, now, given }
        (∀ k t, ran.1[k]? = some t ↔
          Due settings first rounds given k ∧ t = (slot settings first rounds k).start) ∧
        (∀ t ∈ ran.1, hasCome given t = false) ∧
        Ends settings first rounds given ran.1.length ran.2.1 ran.2.2.now ∧
        ((∀ r ∈ rounds.take ran.1.length, r.setsGiven = false) → ran.2.2.given = given) ∧
        ((∀ r ∈ rounds, r.setsOwn = false) → ∀ starts ending last,
          Served given rounds { backoff } now starts ending last ↔
            starts = ran.1 ∧ ending = ran.2.1 ∧ last = ran.2.2.now)) ∧
      ∀ given g now t g', Pulled given g now .round t g' → hasCome given t = false := by
  have created : Backoff.create settings = .ok { settings, current := settings.initial } := by
    rw [Backoff.create, valid]
  refine ⟨_, created, by rw [Generator.create, created]; rfl, ?_, ?_⟩
  · intro rounds now given first ran
    have keeps : Keeps settings first { backoff := ⟨settings, settings.initial⟩, now, given } :=
      ⟨rfl, rfl, rfl⟩
    have started : ∀ k t, ran.1[k]? = some t ↔ _ := loop_started steady keeps
    refine ⟨started, ?_, loop_ends steady keeps, loop_given, ?_⟩
    · intro t member
      obtain ⟨k, there⟩ := List.getElem?_of_mem member
      obtain ⟨due, rfl⟩ := (started k t).mp there
      cases come : hasCome given (slot settings first rounds k).start with
      | false => rfl
      | true =>
        obtain ⟨c, same, before⟩ := hasCome_iff.mp come
        exact absurd before (Nat.not_le_of_lt (due.before c same))
    · intro shared starts ending last
      have ready : Generator.Ready { backoff := ⟨settings, settings.initial⟩ } := .inl rfl
      have agrees : ∀ {starts ending last},
          Served given rounds { backoff := ⟨settings, settings.initial⟩ } now starts ending last →
          ran.1 = starts ∧ ran.2.1 = ending ∧ ran.2.2.now = last :=
        fun served => served.agrees steady ready shared
      constructor
      · intro served
        obtain ⟨rfl, rfl, rfl⟩ := agrees served
        exact ⟨rfl, rfl, rfl⟩
      · rintro ⟨rfl, rfl, rfl⟩
        obtain ⟨starts, ending, last, served⟩ :=
          Generator.served_of_ready rounds steady ready given now
        obtain ⟨rfl, rfl, rfl⟩ := agrees served
        exact served
  · intro given g now t g' pulled
    exact pulled.round_before

/-- Two idle rounds, and a stop during the wait behind the second. -/
theorem polling_schedule_cut :
    let settings := Settings.Backoff.exponential 100 (.ofNat 2) 5000
    let rounds : List Round := List.replicate 3 { work := 5, outcome := .ok .idle }
    settings.validate = .ok () ∧ settings.jitter.atMost (.zero false) = true ∧
      ∃ backoff, Backoff.create settings = .ok backoff ∧
        (loop rounds { backoff, given := some 250 }).1 = [0, 105] ∧
        Served (some 250) rounds { backoff } 0 [0, 105] .stopped 250 := by
  intro settings rounds
  have valid : settings.validate = .ok () := by
    rw [Settings.Backoff.validate, if_neg (by decide +kernel), if_neg (by decide +kernel),
      if_neg (by decide +kernel), if_neg (by decide +kernel), if_neg (by decide +kernel)]
  have steady : settings.jitter.atMost (.zero false) = true := by decide +kernel
  obtain ⟨backoff, created, -, schedule, -⟩ := polling_schedule settings valid steady
  have same : backoff = { settings, current := 100 } := by
    have here : Backoff.create settings = .ok { settings, current := 100 } := by
      rw [Backoff.create, valid]
      rfl
    rw [created] at here
    injection here
  subst same
  have ran : loop rounds { backoff := { settings, current := 100 }, given := some 250 } =
      ([0, 105], .stopped,
        { backoff := { settings, current := 400 }, now := 250, given := some 250 }) := by
    decide +kernel
  obtain ⟨-, -, -, -, served⟩ := schedule rounds 0 (some 250)
  refine ⟨valid, steady, _, created, congrArg Prod.fst ran, (served ?_ _ _ _).mpr ?_⟩
  · decide
  · rw [ran]
    exact ⟨rfl, rfl, rfl⟩

end PullStream.Polling
