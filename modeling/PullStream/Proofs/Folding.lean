import PullStream.Proofs.Clockwork
import PullStream.Proofs.Machine.Delivery
import PullStream.Proofs.Stage.Via

/-!
What folds come to.

A fold whose step function depends on the memory, the element and its index only comes to what
the outputs of its sequence come to, whatever the instants and the worlds. It has its result as
soon as these decide it, and a sequence that delivers a list has one result.

* `foldResults` — the result of a list.
* `Consumer.took_reduce` — what the memory of a fold says about the answers.
* `Consumer.reduce_computes` — the result on a sequence that delivers a list.
-/

namespace PullStream

variable {ω α σ ρ : Type}

/-! ### Folding results -/

/-- Folds results with their indices, from the index `i` on and up to the first failure. -/
def foldResults (h : σ → α → Nat → Except Failure σ) :
    σ → Nat → List (Except Failure α) → Except Failure σ
  | s, _, [] => .ok s
  | s, i, .ok a :: rest => (h s a i).bind fun s => foldResults h s (i + 1) rest
  | _, _, .error e :: _ => .error e

section FoldResults

variable {h : σ → α → Nat → Except Failure σ}

theorem foldResults_append (s : σ) (i : Nat) (rs ss : List (Except Failure α)) :
    foldResults h s i (rs ++ ss) =
      (foldResults h s i rs).bind fun s => foldResults h s (i + rs.length) ss := by
  induction rs generalizing s i with
  | nil => rfl
  | cons r rs ih =>
    cases r with
    | error e => rfl
    | ok a =>
      simp only [List.cons_append, foldResults, List.length_cons]
      cases h s a i with
      | error e => rfl
      | ok s =>
        rw [Nat.add_comm rs.length, ← Nat.add_assoc]
        exact ih s (i + 1)

/-- One more result. -/
theorem foldResults_concat {s s' : σ} {rs : List (Except Failure α)}
    (before : foldResults h s 0 rs = .ok s') (a : α) :
    foldResults h s 0 (rs ++ [.ok a]) = h s' a rs.length := by
  rw [foldResults_append, before]
  simp only [Except.bind, foldResults, Nat.zero_add]
  cases h s' a rs.length <;> rfl

/-- A failure stays, whatever comes behind it. -/
theorem foldResults_error_mono {s : σ} {rs ss : List (Except Failure α)} {e : Failure}
    (first : rs <+: ss) (failed : foldResults h s 0 rs = .error e) :
    foldResults h s 0 ss = .error e := by
  obtain ⟨rest, rfl⟩ := first
  rw [foldResults_append, failed]
  rfl

/-- What has been folded without a failure has none. -/
theorem exists_of_foldResults_ok {s s' : σ} {i : Nat} {rs : List (Except Failure α)}
    (folded : foldResults h s i rs = .ok s') : ∃ as : List α, rs = as.map .ok := by
  induction rs generalizing s i with
  | nil => exact ⟨[], rfl⟩
  | cons r rs ih =>
    cases r with
    | error e => cases folded
    | ok a =>
      rw [foldResults] at folded
      cases called : h s a i with
      | error e =>
        rw [called] at folded
        cases folded
      | ok s₁ =>
        rw [called] at folded
        obtain ⟨as, rfl⟩ := ih folded
        exact ⟨a :: as, rfl⟩

/-- A fold fails at the first result that is a failure or that its step fails on. -/
theorem foldResults_eq_error {s : σ} {i : Nat} {rs : List (Except Failure α)} {e : Failure} :
    foldResults h s i rs = .error e ↔
      ∃ (before : List α) (s' : σ) (r : Except Failure α) (rest : _),
      rs = before.map .ok ++ r :: rest ∧ foldResults h s i (before.map .ok) = .ok s' ∧
      (r = .error e ∨ ∃ a, r = .ok a ∧ h s' a (i + before.length) = .error e) := by
  constructor
  · intro failed
    induction rs generalizing s i with
    | nil => cases failed
    | cons r rs ih =>
      cases r with
      | error e' =>
        cases failed
        exact ⟨[], s, _, rs, rfl, rfl, .inl rfl⟩
      | ok a =>
        rw [foldResults] at failed
        cases called : h s a i with
        | error e' =>
          rw [called] at failed
          cases failed
          exact ⟨[], s, _, rs, rfl, rfl, .inr ⟨a, rfl, called⟩⟩
        | ok s₁ =>
          rw [called] at failed
          obtain ⟨before, s', r, rest, rfl, folded, fails⟩ := ih failed
          refine ⟨a :: before, s', r, rest, rfl, ?_, ?_⟩
          · rw [List.map_cons, foldResults, called]
            exact folded
          · rwa [List.length_cons, Nat.add_comm before.length, ← Nat.add_assoc]
  · rintro ⟨before, s', r, rest, rfl, folded, fails⟩
    rw [foldResults_append, folded, List.length_map]
    rcases fails with rfl | ⟨a, rfl, fails⟩
    · rfl
    · change (h s' a (i + before.length)).bind _ = _
      rw [fails]
      rfl

/-- Only what comes up to the first failure counts. -/
theorem foldResults_untilFailure (s : σ) (i : Nat) (rs : List (Except Failure α)) :
    foldResults h s i (untilFailure rs) = foldResults h s i rs := by
  induction rs generalizing s i with
  | nil => rfl
  | cons r rs ih =>
    cases r with
    | error e => rfl
    | ok a =>
      simp only [untilFailure, foldResults]
      cases h s a i with
      | error e => rfl
      | ok s => exact ih s (i + 1)

/-- A step in two parts, of which the first is for the element alone. -/
theorem foldResults_bind {γ : Type} {f : α → Nat → Except Failure γ}
    {k : σ → γ → Nat → Except Failure σ} (s : σ) (i : Nat) (rs : List (Except Failure α)) :
    foldResults (fun s a i => (f a i).bind fun c => k s c i) s i rs =
      foldResults k s i (rs.mapIdx fun j r => r.bind fun a => f a (i + j)) := by
  induction rs generalizing s i with
  | nil => rfl
  | cons r rs ih =>
    rw [List.mapIdx_cons]
    cases r with
    | error e => rfl
    | ok a =>
      have shift : (fun j (r : Except Failure α) => r.bind fun a => f a (i + (j + 1))) =
          fun j r => r.bind fun a => f a (i + 1 + j) := by
        funext j r
        rw [Nat.add_right_comm, Nat.add_assoc]
      rw [shift]
      change ((f a i).bind fun c => k s c i).bind _ = foldResults k s i (f a i :: _)
      cases f a i with
      | error e => rfl
      | ok c =>
        change (k s c i).bind _ = (k s c i).bind _
        cases k s c i with
        | error e => rfl
        | ok s => exact ih s (i + 1)

end FoldResults

/-! ### Folds -/

/-- What a sequence gives a consumer: its result, as soon as the sequence has failed or ended. -/
structure Computes (m : Machine ω α) (c : Consumer ω α (Consumer.Result ρ))
    (r : Consumer.Result ρ) : Prop where
  /-- There is no other result, and until it has that the consumer asks for more. -/
  wants : ∀ {state answers memory}, m.Reach state answers → c.Took answers memory →
    c.want memory = .pull ∨ c.want memory = .finish r
  ends : ∀ {state answers memory}, m.Reach state answers → c.Took answers memory →
    .done ∈ answers ∨ (∃ e, .fail e ∈ answers) → c.want memory = .finish r
  runs : ∀ {now w rs s'},
    Setting.consume c 0 (.initially m.hub now w) = (.finished rs, s') → rs = [r]

namespace Consumer

variable {start : σ} {f : σ → Step ω α σ} {finish : σ → Result ρ}
  {h : σ → α → Nat → Except Failure σ}

theorem reduce_item_ok {s s' : σ} {a : α} {i : Nat} {now : Time} {w : ω}
    (result : (f s a i now w).1 = .ok s') :
    ((reduce start f finish).receive (.running s i) (.item a) now w).1 = .running s' (i + 1) := by
  rcases called : f s a i now w with ⟨r, w'⟩
  rw [called] at result
  cases result
  simp [reduce, fold, called]

theorem reduce_item_error {s : σ} {a : α} {i : Nat} {now : Time} {w : ω} {e : Failure}
    (result : (f s a i now w).1 = .error e) :
    ((reduce start f finish).receive (.running s i) (.item a) now w).1 =
      .finished (.error e) := by
  rcases called : f s a i now w with ⟨r, w'⟩
  rw [called] at result
  cases result
  simp [reduce, fold, called]

/-- What a fold has made of the answers so far. -/
inductive Folded (h : σ → α → Nat → Except Failure σ) (start : σ) (finish : σ → Result ρ)
    (answers : List (Answer α)) : Folding σ ρ → Prop where
  | running {s} : .done ∉ answers → foldResults h start 0 (outputs answers) = .ok s →
      Folded h start finish answers (.running s (outputs answers).length)
  | failed {e} : foldResults h start 0 (outputs answers) = .error e →
      Folded h start finish answers (.finished (.error e))
  | ended {s} : .done ∈ answers → foldResults h start 0 (outputs answers) = .ok s →
      Folded h start finish answers (.finished (finish s))

/-- An element is folded in, or fails. -/
theorem Folded.item {answers : List (Answer α)} {s : σ} {now : Time} {w : ω}
    (gives : ∀ s, (f s).Gives (h s)) (unfinished : .done ∉ answers)
    (folded : foldResults h start 0 (outputs answers) = .ok s) (a : α) :
    Folded h start finish (answers ++ [.item a])
      ((reduce start f finish).receive (.running s (outputs answers).length) (.item a) now
        w).1 := by
  have next := foldResults_concat folded a
  have result := gives s a (outputs answers).length now w
  have more : outputs (answers ++ [.item a]) = outputs answers ++ [.ok a] := by simp
  rw [← more] at next
  cases called : h s a (outputs answers).length with
  | ok s' =>
    rw [reduce_item_ok (result.trans called)]
    have length : (outputs answers).length + 1 = (outputs (answers ++ [.item a])).length := by
      rw [more, List.length_append, List.length_singleton]
    rw [length]
    exact .running (by simpa using unfinished) (next.trans called)
  | error e =>
    rw [reduce_item_error (result.trans called)]
    exact .failed (next.trans called)

theorem took_reduce (gives : ∀ s, (f s).Gives (h s)) {answers : List (Answer α)}
    {memory : (reduce start f finish).Memory}
    (took : (reduce start f finish).Took answers memory) :
    Folded h start finish answers memory := by
  induction took with
  | start => exact .running List.not_mem_nil rfl
  | @item answers m a _ wants now w ih =>
    cases ih with
    | running unfinished folded => exact .item gives unfinished folded a
    | failed => cases wants
    | ended => cases wants
  | @failure answers m e _ wants now w ih =>
    cases ih with
    | running unfinished folded =>
      apply Folded.failed
      rw [outputs_append, outputs_fail, foldResults_append, folded]
      rfl
    | failed => cases wants
    | ended => cases wants
  | @ended answers m _ wants now w ih =>
    cases ih with
    | running unfinished folded => exact .ended (by simp) (by simpa using folded)
    | failed => cases wants
    | ended => cases wants
  | @quiet answers m g _ wants notFail notDone ih =>
    have same : outputs (answers ++ [.signal g]) = outputs answers := by
      rw [outputs_append, outputs_singleton, Answer.output?_signal notFail]
      simp
    cases ih with
    | running unfinished folded =>
      rw [← same] at folded ⊢
      exact .running (by simpa [unfinished] using Ne.symm notDone) folded
    | failed => cases wants
    | ended => cases wants
  | @woken answers m due _ wants now w ih =>
    cases ih with
    | running => cases wants
    | failed => cases wants
    | ended => cases wants

section Deciding

variable {answers : List (Answer α)} {memory : (reduce start f finish).Memory}
  {list : List (Except Failure α)}

/-- A fold asks for more, or it has the result of the list that is being delivered. -/
theorem Folded.wants (folded : Folded h start finish answers memory)
    (first : outputs answers <+: list) (all : .done ∈ answers → outputs answers = list) :
    (reduce start f finish).want memory = .pull ∨
      (reduce start f finish).want memory = .finish ((foldResults h start 0 list).bind finish) := by
  cases folded with
  | running => exact .inl rfl
  | failed failed =>
    rw [foldResults_error_mono first failed]
    exact .inr rfl
  | ended done folded =>
    rw [← all done, folded]
    exact .inr rfl

/-- A fold that asks for more has been told neither of a failure nor of the end. -/
theorem Folded.unfinished (folded : Folded h start finish answers memory)
    (wants : (reduce start f finish).want memory = .pull) :
    .done ∉ answers ∧ ∀ e, .fail e ∉ answers := by
  cases folded with
  | running unfinished folded =>
    refine ⟨unfinished, fun e failed => ?_⟩
    have member := error_mem_outputs.mpr failed
    obtain ⟨items, same⟩ := exists_of_foldResults_ok folded
    rw [same] at member
    simp at member
  | failed => cases wants
  | ended => cases wants

/-- Behind a failure or the end there is the result. -/
theorem Folded.finishes (folded : Folded h start finish answers memory)
    (first : outputs answers <+: list) (all : .done ∈ answers → outputs answers = list)
    (isOver : .done ∈ answers ∨ ∃ e, .fail e ∈ answers) :
    (reduce start f finish).want memory = .finish ((foldResults h start 0 list).bind finish) := by
  rcases folded.wants first all with pulls | finished
  · obtain ⟨unended, unfailed⟩ := folded.unfinished pulls
    rcases isOver with done | ⟨e, failed⟩
    · exact absurd done unended
    · exact absurd failed (unfailed e)
  · exact finished

end Deciding

/-- A fold has the result of what its sequence delivers. -/
theorem reduce_computes {m : Machine ω α} {list : List (Except Failure α)}
    (delivers : m.Delivers list) (gives : ∀ s, (f s).Gives (h s)) :
    Computes m (reduce start f finish) ((foldResults h start 0 list).bind finish) := by
  have wants : ∀ {state answers memory}, m.Reach state answers →
      (reduce start f finish).Took answers memory →
      (reduce start f finish).want memory = .pull ∨
        (reduce start f finish).want memory =
          .finish ((foldResults h start 0 list).bind finish) := by
    intro state answers memory reached took
    obtain ⟨first, all⟩ := delivers reached
    exact (took_reduce gives took).wants first all
  refine ⟨wants, ?_, ?_⟩
  · intro state answers memory reached took isOver
    obtain ⟨first, all⟩ := delivers reached
    exact (took_reduce gives took).finishes first all isOver
  · intro now w rs s' ran
    obtain ⟨answers, memory, r, reached, took, finished, rfl⟩ := Setting.consume_took ran
    rcases wants reached took with pulls | only
    · cases finished.symm.trans pulls
    · cases finished.symm.trans only
      rfl

end Consumer
end PullStream
