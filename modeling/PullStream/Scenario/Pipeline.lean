import PullStream.Scenario.Stage

/-!
Running a pipeline: to a result, or command by command.

A run puts the stages on, lets a terminal consume the sequence, and then lets some
time pass so that workers which nobody waits for can finish. Commands address the
outputs of a fan-out, or the pipeline itself as the only output, by number: pull
with a time limit, pull to the end, drop, sleep. After each command some time
passes and the events so far are counted.

A machine that breaks down while it is pulled, or while its pipeline is put together,
breaks the whole run: of that nothing is left but the message.
-/

namespace PullStream.Scenario

open PullStream

/-- What consumes a pipeline. -/
inductive Terminal where
  | pull (sorted : Bool)
  | toList
  | drain
  | forEach (s : Script)
  | forEachAsync (s : Script)
  | reduce (s : Script) (start : Element) (how : Accumulation)
  | any (s : Script)
  | all (s : Script)
  | first (default : Option Element)
  | last (default : Option Element)
  | single (default : Option Element)
  | group (s : Script)
  | groupSingle (s : Script)
  | parallelForEach (s : Script) (concurrency : Nat)
  | parallelGroup (s : Script) (concurrency : Nat)
  /-- Everything the sequence answers, as a sequence that may wait. -/
  | stream
  /-- Everything the sequence answers, walked without waiting. -/
  | walk
  | multiplex (count buffer : Nat)
  /-- The texts of the sequence in a log. -/
  | inspect

/-- A command to an output. -/
inductive Command where
  | next (output : Nat) (wait : Time)
  | drop (output : Nat)
  | collect (output : Nat)
  | sleep (length : Time)
  deriving Repr

/-- What is done with a pipeline. -/
inductive Use where
  | consume (terminal : Terminal)
  /-- Commands to the outputs of a fan-out, given by count and buffer, or to the
  pipeline; after each, `settle` milliseconds pass. -/
  | command (outputs : Option (Nat × Nat)) (commands : List Command) (settle : Time)

/-- What a command answers. -/
inductive Reply where
  | arrival (a : Arrival Element)
  | pending
  /-- The output does not exist or is gone. -/
  | gone
  | dropped (something : Bool)
  | collected (p : Consumer.Pulled Element)
  | slept
  | endless

/-- The answer to a command, the instant, and the counts some time later. -/
structure Note where
  reply : Reply
  time : Time
  pulled : Nat
  called : Nat
  finished : Nat

/-- The result of a use. -/
inductive Result where
  | pulled (p : Consumer.Pulled Element)
  | element (e : Element)
  | flag (b : Bool)
  | failure (f : Failure)
  | arrivals (list : List (Arrival Element))
  | outputs (list : List (Consumer.Pulled Element))
  | texts (list : List String)
  | notes (list : List Note)
  | endless

/-- A pipeline and its use. -/
structure Pipeline where
  source : Source
  stages : List Stage
  use : Use
  /-- How long to wait at the end for workers that nobody waits for. -/
  linger : Time := 0

/-- What has become of a pipeline: the modes it went through, the result or the
stage that was refused, when, and the log. A stage that was put on endlessly was
refused without a failure. -/
structure Report where
  modes : List Mode
  result : Except (Option Failure × Nat) Result
  time : Time
  log : Log

/-! ### Texts -/

/-- The name of a mode. -/
def modeName : Mode → String
  | .immediate => "Sync"
  | .waiting => "Async"

/-- A sequence in a log, as the outer and as the inner type. -/
def modeTexts (mode : Mode) : List String :=
  [s!"Enumerable \x7b mode: {modeName mode} \x7d", s!"Sequence({modeName mode})"]

/-! ### Consuming -/

variable {α ρ : Type}

/-- What is left after a use: the result, the instant, and the log some time
later. -/
abbrev Ended := Result × Time × Log

/-- Drops all outputs, and lets `linger` milliseconds pass. -/
def conclude {hub : Hub Log α} (s : Setting Log α hub) (linger : Time) (result : Result) :
    Ended :=
  let gone := (List.range hub.outputs).foldl (fun s k => s.drop k) s
  (result, s.now, (gone.rest linger).world)

/-- The result of a run that may have been cut short, or the message of the machine that
broke down. -/
def resultOf (f : List ρ → Result) : Ending ρ → Except String Result
  | .finished results => .ok (f results)
  | .crashed message => .error message
  | .timedOut | .stuck | .outOfFuel => .ok .endless

/-- Consumes the first output. -/
def consumed (hub : Hub Log α) (now : Time) (log : Log) (linger : Time)
    (c : Consumer Log α ρ) (f : ρ → Result) : Except String Ended :=
  let (ending, s) := (Setting.initially hub now log).consume c 0
  (resultOf (fun rs => (rs.head?.map f).getD .endless) ending).map (conclude s linger)

/-- As `consumed`, for a consumer that may fail. -/
def concluded (hub : Hub Log α) (now : Time) (log : Log) (linger : Time)
    (c : Consumer Log α (Consumer.Result ρ)) (f : ρ → Result) : Except String Ended :=
  consumed hub now log linger c fun
    | .ok r => f r
    | .error e => .failure e

/-- The word for an operation without a result. -/
def doneText : Result := .element (.text "done")

/-- Entries in order of their keys. -/
def sortedEntries (entries : List (Element × Element)) : Result :=
  .element (.list ((entries.mergeSort fun a b => a.1.notAfter b.1).map pairList))

/-- Groups in order of their keys. -/
def sortedGroups (groups : Consumer.Groups Element Element) : Result :=
  sortedEntries (groups.map fun g => (g.1, .list g.2))

/-- The element that stands in for a missing one, or the failure to have none. -/
def orMissing (default : Option Element) (name need : String) :
    Consumer.Result Element :=
  match default with
  | some e => .ok e
  | none => .error (.noElements name need)

/-- The label of the terminal's events. -/
def endLabel : String := "end"

/-- Lets a terminal consume a sequence. -/
def Terminal.run (t : Terminal) (s : Sequence Log Element) (now : Time) (log : Log)
    (linger : Time) : Except String Ended :=
  let hub := s.machine.hub
  let refused (e : Failure) : Except String Ended :=
    .ok (conclude (Setting.initially hub now log) linger (.failure e))
  match t with
  | .pull sorted =>
    consumed hub now log linger .pullAll fun p =>
      .pulled { p with
        items := if sorted then p.items.mergeSort Element.notAfter else p.items }
  | .toList => concluded hub now log linger .toList fun es => .element (.list es)
  | .drain => concluded hub now log linger .drain fun n => .element (.ofNat n)
  | .forEach f =>
    concluded hub now log linger (.forEach (f.step endLabel Script.visited)) fun _ => doneText
  | .forEachAsync f =>
    concluded hub now log linger (.forEachAsync (f.slowStep endLabel Script.visited))
      fun _ => doneText
  | .reduce f start how =>
    let item (acc : Element) : PullStream.Step Log Element Element :=
      (f.step endLabel fun e i => (f.mapped e i, i)).map fun _ x => how.apply acc x.1 x.2
    concluded hub now log linger (.reduce start item .ok) .element
  | .any f => concluded hub now log linger (.any (f.step endLabel f.decided)) .flag
  | .all f => concluded hub now log linger (.all (f.step endLabel f.decided)) .flag
  | .first default =>
    concluded hub now log linger (.first (orMissing default "first" "at least")) .element
  | .last default =>
    concluded hub now log linger (.last (orMissing default "last" "at least")) .element
  | .single default =>
    concluded hub now log linger (.single (orMissing default "single" "exactly")) .element
  | .group f =>
    concluded hub now log linger (.group (f.step endLabel f.mapped)) sortedGroups
  | .groupSingle f =>
    concluded hub now log linger (.groupSingle (f.step endLabel f.mapped)) sortedEntries
  | .parallelForEach f n =>
    match s.parallelVisits n (f.riskyStep endLabel Script.visited) with
    | .error e => refused e
    | .ok s => concluded s.machine.hub now log linger .drain fun _ => doneText
  | .parallelGroup f n =>
    match s.parallelKeyed n (f.riskyStep endLabel f.mapped) with
    | .error e => refused e
    | .ok s => concluded s.machine.hub now log linger .groupKeyed sortedGroups
  | .stream => consumed hub now log linger .arrivals .arrivals
  | .walk =>
    match s.tryWalk with
    | .error e => refused e
    | .ok m => consumed m.hub now log linger .arrivals .arrivals
  | .multiplex count buffer =>
    match s.multiplex count buffer with
    | .error e => refused e
    | .ok hub =>
      let c : Consumer Log Element (Consumer.Pulled Element) := .pullAll
      let readers := (List.range count).map fun k =>
        ({ output := k, memory := c.start } : Setting.Reader c)
      let (ending, s) :=
        Setting.run none Setting.patience readers (Setting.initially hub now log)
      (resultOf .outputs ending).map (conclude s linger)
  | .inspect =>
    .ok (conclude (Setting.initially hub now log) linger (.texts (modeTexts s.mode)))

/-! ### Commands -/

/-- A hub on the clock, and which of its outputs are still there. -/
structure Session (hub : Hub Log Element) where
  setting : Setting Log Element hub
  present : List Bool

namespace Session

variable {hub : Hub Log Element}

/-- Whether an output is still there. -/
def has (s : Session hub) (output : Nat) : Bool :=
  s.present[output]?.getD false

/-- Drops an output. -/
def without (s : Session hub) (output : Nat) : Session hub :=
  { setting := s.setting.drop output, present := s.present.set output false }

/-- What a pull answers that may have been cut short. -/
def pulledReply : Ending (Arrival Element) → Except String Reply
  | .finished (a :: _) => .ok (.arrival a)
  | .finished [] | .timedOut => .ok .pending
  | .crashed message => .error message
  | .stuck | .outOfFuel => .ok .endless

/-- What pulling to the end answers. -/
def collectedReply : Ending (Consumer.Pulled Element) → Except String Reply
  | .finished (p :: _) => .ok (.collected p)
  | .crashed message => .error message
  | .finished [] | .timedOut | .stuck | .outOfFuel => .ok .endless

/-- Executes a command. -/
def execute (s : Session hub) : Command → Except String (Reply × Session hub)
  | .next k wait =>
    if s.has k then
      let (ending, setting) := s.setting.pull k wait
      (pulledReply ending).map fun reply => (reply, { s with setting })
    else .ok (.gone, s)
  | .drop k => .ok (if s.has k then (.dropped true, s.without k) else (.dropped false, s))
  | .collect k =>
    if s.has k then
      let (ending, setting) := s.setting.consume .pullAll k
      (collectedReply ending).map fun reply => (reply, { s with setting }.without k)
    else .ok (.gone, s)
  | .sleep length => .ok (.slept, { s with setting := s.setting.rest length })

/-- Executes commands in order, with a note on each. -/
def executeAll (settle : Time) :
    List Command → Session hub → Except String (List Note × Session hub)
  | [], s => .ok ([], s)
  | c :: rest, s => do
    let (reply, s) ← s.execute c
    let time := s.setting.now
    let s := { s with setting := s.setting.rest settle }
    let log := s.setting.world
    let (notes, s) ← executeAll settle rest s
    return ({ reply, time, pulled := log.occurrences .pull, called := log.occurrences .call,
              finished := log.occurrences .done } :: notes, s)

end Session

/-- Executes commands on a hub. -/
def commanded (hub : Hub Log Element) (now : Time) (log : Log) (linger : Time)
    (commands : List Command) (settle : Time) : Except String Ended :=
  let session : Session hub :=
    { setting := .initially hub now log, present := List.replicate hub.outputs true }
  (session.executeAll settle commands).map fun (notes, session) =>
    conclude session.setting linger (.notes notes)

/-- Uses a sequence. -/
def Use.run (u : Use) (s : Sequence Log Element) (now : Time) (log : Log)
    (linger : Time) : Except String Ended :=
  match u with
  | .consume t => t.run s now log linger
  | .command none commands settle =>
    commanded s.machine.hub now log linger commands settle
  | .command (some (count, buffer)) commands settle =>
    match s.multiplex count buffer with
    | .error e => .ok (conclude (Setting.initially s.machine.hub now log) linger (.failure e))
    | .ok hub => commanded hub now log linger commands settle

/-- Puts a pipeline together and uses it. If a machine breaks down, there is its message in
place of a report. -/
def Pipeline.run (p : Pipeline) : Except String Report :=
  let nobody : Machine Log Element := .ofList []
  let source := p.source.sequence ""
  let start : Progress nobody :=
    { outcome := ⟨source, none, { now := 0, log := {}, state := nobody.start }⟩
      modes := [source.mode], position := 0 }
  let progress := Stage.putonAll "" p.stages start
  let sequence := progress.outcome.sequence
  let making := progress.outcome.making
  let refused (failure : Option Failure) : Report :=
    let setting := Setting.initially sequence.machine.hub making.now making.log
    { modes := progress.modes.reverse, result := .error (failure, progress.position)
      time := making.now, log := (setting.rest p.linger).world }
  match progress.outcome.refusal with
  | some (.crashed message) => .error message
  | some (.failed e) => .ok (refused (some e))
  | some .endless => .ok (refused none)
  | none =>
    (p.use.run sequence making.now making.log p.linger).map fun (result, time, log) =>
      { modes := progress.modes.reverse, result := .ok result, time, log }

end PullStream.Scenario
