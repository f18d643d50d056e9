import PullStream.Proofs.Reading
import PullStream.Sequence

/-!
Pipelines: what they come to, whether they may wait or not.

A pipeline is built from a source that is read without waiting by stages whose step functions
answer at once. It can be built on the source as it is, and on the source as one that may wait,
and any part of it can be made one that may wait: the stages then take another form. All that
is built from a pipeline plays one telling, so that pulled up to its end it hands out the same
and calls the step functions in the same way.

* `Pipeline.telling` — what a pipeline tells.
* `Pipeline.Builds.plays` — all that is built from it plays this telling.
* `Pipeline.Reads.telling` — what it hands out, if step functions depend on elements and indices
  only.
* `pipeline_telling` — the agreement.
-/

namespace PullStream.Sequence

open Telling Transducer

variable {ω α β κ : Type}

/-- A sequence that is read without waiting, and what it tells. -/
structure Source (ω α : Type) : Type 1 where
  sequence : Sequence ω α
  immediate : sequence.mode = .immediate
  telling : Telling ω α
  plays : sequence.machine.Plays sequence.machine.start telling
  fused : sequence.machine.Fused

/-- The items of a list, and a failure behind them or none. -/
def Source.ofReading (r : Reading α) : Source ω α where
  sequence := ofResults r.entries
  immediate := rfl
  telling := results r.entries
  plays := (Machine.ofResults_plays r.entries r.entries).guarded
  fused := Machine.guarded_fused _

theorem Source.ofReading_reads (r : Reading α) :
    (ofReading r : Source ω α).telling.Reads r :=
  .results r.items r.fault

/-- A source, and stages on it. -/
inductive Pipeline (ω : Type) : Type → Type 1 where
  | source {α : Type} (s : Source ω α) : Pipeline ω α
  | map {α β : Type} (p : Pipeline ω α) (f : Step ω α β) : Pipeline ω β
  | filter {α : Type} (p : Pipeline ω α) (f : Step ω α Bool) : Pipeline ω α
  | intercept {α : Type} (p : Pipeline ω α) (f : Step ω α Unit) : Pipeline ω α
  | flatMap {α β : Type} (p : Pipeline ω α) (f : Step ω α (List β)) : Pipeline ω β
  | take {α : Type} (p : Pipeline ω α) (count : Nat) : Pipeline ω α
  | skip {α : Type} (p : Pipeline ω α) (count : Nat) : Pipeline ω α
  | takeWhile {α : Type} (p : Pipeline ω α) (f : Step ω α Bool) : Pipeline ω α
  | assert {α : Type} (p : Pipeline ω α) (f : Step ω α Bool) : Pipeline ω α
  | distinct {α κ : Type} [DecidableEq κ] (p : Pipeline ω α) (key : α → κ) : Pipeline ω α
  | pairwise {α : Type} (p : Pipeline ω α) : Pipeline ω (α × α)
  | append {α : Type} (p q : Pipeline ω α) : Pipeline ω α
  | defaultIfEmpty {α : Type} (p : Pipeline ω α) (value : α) : Pipeline ω α
  | sort {α : Type} (p : Pipeline ω α) (notAfter : α → α → Bool) : Pipeline ω α

namespace Pipeline

/-- The step function of an assertion. -/
def asserting (f : Step ω α Bool) : Step ω α α :=
  fun a i now w => (asserted a i (f a i now w).1, (f a i now w).2)

/-- What a pipeline tells: each stage is a function on what its input tells, and step functions
are called with positions from zero on. -/
def telling : {α : Type} → Pipeline ω α → Telling ω α
  | _, .source s => s.telling
  | _, .map p f => p.telling.map f 0
  | _, .filter p f => p.telling.filter f 0
  | _, .intercept p f => p.telling.map (f.map fun a _ => a) 0
  | _, .flatMap p f => p.telling.flatMap f 0
  | _, .take p count => p.telling.take count
  | _, .skip p count => p.telling.skip count
  | _, .takeWhile p f => p.telling.takeWhile f 0
  | _, .assert p f => p.telling.map (asserting f) 0
  | _, @distinct _ _ _ _ p key => p.telling.distinct key []
  | _, .pairwise p => p.telling.pairwise none
  | _, .append p q => p.telling.append q.telling
  | _, .defaultIfEmpty p value => p.telling.orItem value
  | _, .sort p notAfter => p.telling.sort notAfter []

/-! ### Building -/

/-- The pipeline on its sources in a mode. -/
def build (mode : Mode) : {α : Type} → Pipeline ω α → Sequence ω α
  | _, .source s =>
    match mode with
    | .immediate => s.sequence
    | .waiting => s.sequence.toWaiting
  | _, .map p f => (p.build mode).map f
  | _, .filter p f => (p.build mode).filter f
  | _, .intercept p f => (p.build mode).intercept f
  | _, .flatMap p f => (p.build mode).flatMap f
  | _, .take p count => (p.build mode).take count
  | _, .skip p count => (p.build mode).skip count
  | _, .takeWhile p f => (p.build mode).takeWhile f
  | _, .assert p f => (p.build mode).assert f
  | _, @distinct _ _ _ _ p key => (p.build mode).distinct key
  | _, .pairwise p => (p.build mode).pairwise
  | _, .append p q => (p.build mode).append (q.build mode)
  | _, .defaultIfEmpty p value => (p.build mode).defaultIfEmpty value
  | _, .sort p notAfter => (p.build mode).sort notAfter

/-- The stages keep the mode. -/
theorem build_mode (p : Pipeline ω α) (mode : Mode) : (p.build mode).mode = mode := by
  induction p with
  | source s =>
    cases mode with
    | immediate => exact s.immediate
    | waiting => rfl
  | append p q ih ih' => cases mode <;> simp [build, Sequence.append, ih, ih']
  | map _ _ ih => exact ih
  | filter _ _ ih => exact ih
  | intercept _ _ ih => exact ih
  | flatMap _ _ ih => exact ih
  | take _ _ ih => exact ih
  | skip _ _ ih => exact ih
  | takeWhile _ _ ih => exact ih
  | assert _ _ ih => exact ih
  | distinct _ _ ih => exact ih
  | pairwise _ ih => exact ih
  | defaultIfEmpty _ _ ih => exact ih
  | sort _ _ ih => exact ih

/-- A sequence that is built from the pipeline; any part of it may have been made one that may
wait. -/
inductive Builds : {α : Type} → Pipeline ω α → Sequence ω α → Prop where
  | source {α : Type} (s : Source ω α) : Builds (.source s) s.sequence
  | toWaiting {α : Type} {p : Pipeline ω α} {s} : Builds p s → Builds p s.toWaiting
  | map {α β : Type} {p : Pipeline ω α} {s} (f : Step ω α β) :
      Builds p s → Builds (p.map f) (s.map f)
  | filter {α : Type} {p : Pipeline ω α} {s} (f) : Builds p s → Builds (p.filter f) (s.filter f)
  | intercept {α : Type} {p : Pipeline ω α} {s} (f) :
      Builds p s → Builds (p.intercept f) (s.intercept f)
  | flatMap {α β : Type} {p : Pipeline ω α} {s} (f : Step ω α (List β)) :
      Builds p s → Builds (p.flatMap f) (s.flatMap f)
  | take {α : Type} {p : Pipeline ω α} {s} (count) :
      Builds p s → Builds (p.take count) (s.take count)
  | skip {α : Type} {p : Pipeline ω α} {s} (count) :
      Builds p s → Builds (p.skip count) (s.skip count)
  | takeWhile {α : Type} {p : Pipeline ω α} {s} (f) :
      Builds p s → Builds (p.takeWhile f) (s.takeWhile f)
  | assert {α : Type} {p : Pipeline ω α} {s} (f) : Builds p s → Builds (p.assert f) (s.assert f)
  | distinct {α κ : Type} [DecidableEq κ] {p : Pipeline ω α} {s} (key : α → κ) :
      Builds p s → Builds (p.distinct key) (s.distinct key)
  | pairwise {α : Type} {p : Pipeline ω α} {s} : Builds p s → Builds p.pairwise s.pairwise
  | append {α : Type} {p q : Pipeline ω α} {s t} :
      Builds p s → Builds q t → Builds (p.append q) (s.append t)
  | defaultIfEmpty {α : Type} {p : Pipeline ω α} {s} (value) :
      Builds p s → Builds (p.defaultIfEmpty value) (s.defaultIfEmpty value)
  | sort {α : Type} {p : Pipeline ω α} {s} (notAfter) :
      Builds p s → Builds (p.sort notAfter) (s.sort notAfter)

theorem builds (p : Pipeline ω α) (mode : Mode) : p.Builds (p.build mode) := by
  induction p with
  | source s =>
    cases mode with
    | immediate => exact .source s
    | waiting => exact .toWaiting (.source s)
  | map _ f ih => exact .map f ih
  | filter _ f ih => exact .filter f ih
  | intercept _ f ih => exact .intercept f ih
  | flatMap _ f ih => exact .flatMap f ih
  | take _ count ih => exact .take count ih
  | skip _ count ih => exact .skip count ih
  | takeWhile _ f ih => exact .takeWhile f ih
  | assert _ f ih => exact .assert f ih
  | distinct _ key ih => exact .distinct key ih
  | pairwise _ ih => exact .pairwise ih
  | append _ _ ih ih' => exact .append ih ih'
  | defaultIfEmpty _ value ih => exact .defaultIfEmpty value ih
  | sort _ notAfter ih => exact .sort notAfter ih

/-- Everything built from a pipeline plays what the pipeline tells. -/
theorem Builds.plays {p : Pipeline ω α} {s : Sequence ω α} (builds : p.Builds s) :
    s.machine.Plays s.machine.start p.telling ∧ s.machine.Fused := by
  induction builds with
  | source s => exact ⟨s.plays, s.fused⟩
  | toWaiting _ ih => exact ih
  | map f _ ih =>
    exact ⟨((map_retells f).retells.via_plays ih.1 (0 : Nat)).guarded, Machine.guarded_fused _⟩
  | filter f _ ih =>
    exact ⟨((filter_retells f).retells.via_plays ih.1 (0 : Nat)).guarded, Machine.guarded_fused _⟩
  | intercept f _ ih =>
    exact ⟨((map_retells _).retells.via_plays ih.1 (0 : Nat)).guarded, Machine.guarded_fused _⟩
  | flatMap f _ ih =>
    exact ⟨((flatMap_retells _ f).via_plays ih.1 {}).guarded, Machine.guarded_fused _⟩
  | take count _ ih =>
    exact ⟨((takeFirst_retells _ count).via_plays ih.1 (count : Nat)).guarded,
      Machine.guarded_fused _⟩
  | skip count _ ih =>
    exact ⟨((skipFirst_retells count).retells.via_plays ih.1 (count : Nat)).guarded,
      Machine.guarded_fused _⟩
  | takeWhile f _ ih =>
    exact ⟨((takeWhile_retells _ f).via_plays ih.1 {}).guarded, Machine.guarded_fused _⟩
  | assert f _ ih =>
    exact ⟨((map_retells (asserting f)).retells.via_plays ih.1 (0 : Nat)).guarded,
      Machine.guarded_fused _⟩
  | distinct key _ ih =>
    exact ⟨((distinct_retells key).retells.via_plays ih.1 []).guarded, Machine.guarded_fused _⟩
  | pairwise _ ih =>
    exact ⟨(pairwise_retells.retells.via_plays ih.1 none).guarded, Machine.guarded_fused _⟩
  | append _ _ ih ih' =>
    exact ⟨(Machine.append_plays ih.1 ih'.1).guarded, Machine.guarded_fused _⟩
  | defaultIfEmpty value _ ih =>
    exact ⟨((defaultIfEmpty_retells value).via_plays ih.1 .empty).guarded, Machine.guarded_fused _⟩
  | sort notAfter _ ih =>
    exact ⟨((sort_retells notAfter).via_plays ih.1 (.collecting [])).guarded,
      Machine.guarded_fused _⟩

/-! ### Reading -/

/-- What a pipeline is read as whose step functions give results that depend on the element and
its index only. -/
inductive Reads : {α : Type} → Pipeline ω α → Reading α → Prop where
  | source {α : Type} (s : Source ω α) {r} : s.telling.Reads r → Reads (.source s) r
  | map {α β : Type} {p : Pipeline ω α} {r} {f : Step ω α β} {g} : f.Gives g → Reads p r →
      Reads (p.map f) (r.each fun a i => (g a i).map fun b => [b])
  | filter {α : Type} {p : Pipeline ω α} {r} {f : Step ω α Bool} {g} : f.Gives g → Reads p r →
      Reads (p.filter f) (r.each fun a i => (g a i).map fun yes => if yes then [a] else [])
  | intercept {α : Type} {p : Pipeline ω α} {r} {f : Step ω α Unit} {g} : f.Gives g →
      Reads p r → Reads (p.intercept f) (r.each fun a i => (g a i).map fun _ => [a])
  | flatMap {α β : Type} {p : Pipeline ω α} {r} {f : Step ω α (List β)} {g} : f.Gives g →
      Reads p r → Reads (p.flatMap f) (r.each g)
  | take {α : Type} {p : Pipeline ω α} {r} (count) : Reads p r →
      Reads (p.take count) (r.take count)
  | skip {α : Type} {p : Pipeline ω α} {r} (count) : Reads p r →
      Reads (p.skip count) (r.skip count)
  | takeWhile {α : Type} {p : Pipeline ω α} {r} {f : Step ω α Bool} {g} : f.Gives g →
      Reads p r → Reads (p.takeWhile f) (r.takeWhile g)
  | assert {α : Type} {p : Pipeline ω α} {r} {f : Step ω α Bool} {g} : f.Gives g → Reads p r →
      Reads (p.assert f) (r.each fun a i => (asserted a i (g a i)).map fun a => [a])
  | distinct {α κ : Type} [DecidableEq κ] {p : Pipeline ω α} {r} (key : α → κ) : Reads p r →
      Reads (p.distinct key) (r.distinct key)
  | pairwise {α : Type} {p : Pipeline ω α} {r} : Reads p r → Reads p.pairwise r.pairwise
  | append {α : Type} {p q : Pipeline ω α} {r t} : Reads p r → Reads q t →
      Reads (p.append q) (r.append t)
  | defaultIfEmpty {α : Type} {p : Pipeline ω α} {r} (value) : Reads p r →
      Reads (p.defaultIfEmpty value) (r.orItem value)
  | sort {α : Type} {p : Pipeline ω α} {r} (notAfter) : Reads p r →
      Reads (p.sort notAfter) (r.sort notAfter)

theorem intercepting_gives {f : Step ω α Unit} {g : α → Nat → Except Failure Unit}
    (gives : f.Gives g) :
    (f.map fun a _ => a).Gives fun a i => (g a i).map fun _ => a :=
  fun a i now w => congrArg (Except.map fun _ => a) (gives a i now w)

theorem asserting_gives {f : Step ω α Bool} {g : α → Nat → Except Failure Bool}
    (gives : f.Gives g) : (asserting f).Gives fun a i => asserted a i (g a i) :=
  fun a i now w => congrArg (asserted a i) (gives a i now w)

/-- What a pipeline tells is what it is read as. -/
theorem Reads.telling {p : Pipeline ω α} {r : Reading α} (reads : p.Reads r) :
    p.telling.Reads r := by
  induction reads with
  | source _ reads => exact reads
  | map gives _ ih => exact ih.map gives 0
  | filter gives _ ih => exact ih.filter gives 0
  | @intercept α p r f g gives _ ih =>
    have same : (fun a i => ((g a i).map fun _ => a).map fun b => [b]) =
        fun a i => (g a i).map fun _ => [a] := by
      funext a i
      cases g a i <;> rfl
    have told := ih.map (intercepting_gives gives) 0
    rw [same] at told
    exact told
  | flatMap gives _ ih => exact ih.flatMap gives 0
  | take count _ ih => exact ih.take count
  | skip count _ ih => exact ih.skip count
  | takeWhile gives _ ih => exact ih.takeWhile gives 0
  | assert gives _ ih => exact ih.map (asserting_gives gives) 0
  | distinct key _ ih => exact ih.distinct key []
  | pairwise _ ih => exact ih.pairwise
  | append _ _ ih ih' => exact ih.append ih'
  | defaultIfEmpty value _ ih => exact ih.orItem value
  | sort notAfter _ ih => exact ih.sort notAfter []

end Pipeline

/-- Whatever is built from a pipeline, on its sources as they are, on the same sources as ones
that may wait, or with any part made one that may wait: pulled up to its first end it hands out
what the pipeline tells, and leaves the world as the pipeline's telling does, with the same calls
of the step functions. If the results of step functions depend on the element and its index only,
it hands out what the pipeline is read as, whoever pulls. -/
theorem pipeline_telling (p : Pipeline ω α) :
    (∀ mode, (p.build mode).mode = mode ∧ p.Builds (p.build mode)) ∧
    (∀ s, p.Builds s → ∀ visitor w rs w',
      s.machine.Pulled visitor w rs w' ↔ p.telling.pulled visitor w = (rs, w')) ∧
    ∀ r, p.Reads r → ∀ visitor w, (p.telling.pulled visitor w).1 = r.entries := by
  refine ⟨fun mode => ⟨p.build_mode mode, p.builds mode⟩, ?_, ?_⟩
  · intro s builds visitor w rs w'
    obtain ⟨plays, fused⟩ := builds.plays
    exact plays.drains_iff fused
  · intro r reads visitor w
    exact reads.telling.run_eq visitor 0 _ _

/-- Four numbers without the first, of which the third fails, and another number behind that is
never reached. The calls are logged. -/
theorem pipeline_telling_logged :
    let g : Nat → Nat → Except Failure Nat := fun a i =>
      if a = 3 then .error .zeroRate else .ok (10 * a + i)
    let f : Step (List (Nat × Nat)) Nat Nat := fun a i _ log => (g a i, log ++ [(a, i)])
    let p : Pipeline (List (Nat × Nat)) Nat :=
      (((Pipeline.source (.ofReading ⟨[5, 4, 3, 2], none⟩)).skip 1).map f).append
        (.source (.ofReading ⟨[7], none⟩))
    let visitor : Visitor (List (Nat × Nat)) := fun _ log => (0, log)
    p.Builds (p.build .immediate) ∧ p.Builds (p.build .waiting) ∧
    (p.build .immediate).machine.Pulled visitor [] [.ok 40, .error .zeroRate] [(4, 0), (3, 1)] ∧
    (p.build .waiting).machine.Pulled visitor [] [.ok 40, .error .zeroRate] [(4, 0), (3, 1)] ∧
    p.Reads ⟨[40], some .zeroRate⟩ ∧
    (p.telling.pulled visitor []).1 = [.ok 40, .error .zeroRate] := by
  intro g f p visitor
  obtain ⟨built, pulled, read⟩ := pipeline_telling p
  have immediate := (built .immediate).2
  have waiting := (built .waiting).2
  have gives : f.Gives g := fun _ _ _ _ => rfl
  have reads : p.Reads ⟨[40], some .zeroRate⟩ :=
    .append (.map gives (.skip 1 (.source _ (Source.ofReading_reads _))))
      (.source _ (Source.ofReading_reads _))
  exact ⟨immediate, waiting, (pulled _ immediate _ _ _ _).mpr rfl,
    (pulled _ waiting _ _ _ _).mpr rfl, reads, read _ reads visitor []⟩

end PullStream.Sequence
