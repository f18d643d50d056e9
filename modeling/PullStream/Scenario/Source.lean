import PullStream.Scenario.Step

/-!
Scripted sources, and the logging of what is taken from them.

A logged source reports each answer that is taken from it, with its position, and
the first time that it finds its end.
-/

namespace PullStream.Scenario

open PullStream

/-- A source of elements. -/
inductive Source where
  /-- Elements and failures, at once. -/
  | results (items : List (Except Failure Element))
  /-- Elements and failures, each a while after it was taken. -/
  | slowResults (items : List (Except Failure Element)) (delay : Delay)
  /-- Elements, at once. -/
  | elements (items : List Element)
  /-- Elements, each a while after it was taken. -/
  | slowElements (items : List Element) (delay : Delay)
  /-- Elements, at once and not logged. -/
  | plain (items : List Element)
  /-- The integers between two bounds, both included; not logged. -/
  | range (first last : Int64)
  /-- The integers from `first` on, without an end. -/
  | counting (first : Int64)
  /-- Elements, each after the same wait; not logged. -/
  | delayed (items : List Element) (delay : Time)

/-- Logs what is taken: the memory is the next position and whether the end has
been logged. -/
def logged (label : String) : Transducer Log Element Element where
  Memory := Nat × Bool
  start := (0, false)
  item m e now log :=
    (.item e, (m.1 + 1, m.2), log.add now label .pull m.1 (.element e))
  fail m f now log :=
    (.fail f, (m.1 + 1, m.2), log.add now label .pull m.1 (.element (.text "!")))
  done m now log :=
    (.done, (m.1, true),
      if m.2 then log else log.add now label .exhausted m.1 (.element (.text "")))

/-- The sequence of a source. -/
def Source.sequence (source : Source) (label : String) : Sequence Log Element :=
  let label := label ++ "src"
  match source with
  | .results items => .ofMachine ((Machine.ofResults items).via (logged label))
  | .slowResults items delay =>
    .ofWaiting (((Machine.ofResults items).via (logged label)).via (.arriving delay.at))
  | .elements items => ⟨.immediate, (Machine.ofList items).via (logged label)⟩
  | .slowElements items delay =>
    ⟨.waiting, ((Machine.ofList items).via (logged label)).via (.arriving delay.at)⟩
  | .plain items => .ofList items
  | .range first last =>
    let s : Sequence Log Int64 := .range first last
    ⟨s.mode, s.machine.via (.map (Step.pure fun n _ => .ok (.int n)))⟩
  | .counting first =>
    ⟨.immediate, (Machine.counting fun n => Element.int (first + Int64.ofNat n)).via
      (logged label)⟩
  | .delayed items delay => .delayed items delay

end PullStream.Scenario
