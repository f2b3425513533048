/-
  Primacy.LeadNode.Rehearsal

  A lead node run against a file tree and a virtual clock, beside a rival who holds the lock file
  and someone who sends a signal.
-/
import Primacy.LeadNode.Program
import Primacy.Scenario.Command
import Primacy.Settings.Load

namespace Primacy.LeadNode

open Files (Tree NodeId)
open Scenario (World Outcome)

/-- The surroundings of a run. -/
structure Surroundings where
  env : Settings.Environment
  files : Tree
  processId : Nat
  /-- The log file to report. -/
  log : String
  /-- The registry file to report. -/
  registry : Option String
  /-- A file that a rival has locked. -/
  rivalLock : Option String
  /-- The rival lets go once the log holds this text. -/
  releaseAfter : Option String
  /-- The signal comes shortly after the log holds this text. -/
  signalAfter : Option String
  signal : Signal

/-- What a run comes to. -/
structure Result where
  /-- None of a node that a signal ended, or that never ends. -/
  exitCode : Option Nat
  error : Option Error
  lines : List Line
  registry : Option String

/-- A run in progress. -/
structure Stage where
  world : World
  point : Point
  lines : List Line
  /-- How much of what the node tells the reported log shows. -/
  detail : Nat
  rival : Option NodeId
  signalAt : Option Nat

namespace Stage

/-- From the text that sets a signal off to the signal, in milliseconds. -/
def signalDelay : Nat := 150

def say (s : Stage) (lines : List Line) : Stage :=
  { s with lines := s.lines ++ lines.filter fun l => LeadNode.detail l.severity ≤ s.detail }

/-- Writes the lines of what the elector made known. -/
def collect (s : Stage) : Stage :=
  let s := s.say (s.world.events.filterMap fun e => Line.ofEvent? e.1 e.2)
  { s with world := { s.world with events := [] } }

/-- The log holds `text`. -/
def holds (s : Stage) (text : Option String) : Bool :=
  match text with
  | some t => s.lines.any fun l => Text.hasInfix t.toList l.text.toList
  | none => false

/-- Moves to the point that follows the end of a call. -/
def move (s : Stage) (next : Point × List Line) : Stage := { s.say next.2 with point := next.1 }

/-- Takes note of the calls that ended: number 0 is the start, 1 the wait, 2 the stop. -/
def settleCalls (i : Identity) (s : Stage) : Stage :=
  let ended := s.world.ended
  let s := { s with world := { s.world with ended := [] } }
  ended.foldl (fun s e =>
    match e.1, e.2.1, s.point with
    | 0, .state state, _ =>
      let s := s.move (onStarted i (.ok state))
      { s with world := s.world.spawn (some 1) (.elector 0 (.await .check)) }
    | 0, .failed err, _ => s.move (onStarted i (.error err))
    | 1, .state state, .watching => s.move (onAwaited state)
    | 2, .failed err, _ => s.move (onStopped (.error err))
    | 2, _, _ => s.move (onStopped (.ok ()))
    | _, _, _ => s) s

/-- Lets the rival and the sender of the signal look at the log.  The signal is sent once. -/
def react (x : Surroundings) (s : Stage) : Stage :=
  let s := match s.rival with
    | some id =>
      if s.holds x.releaseAfter then
        { s with
          rival := none
          world := { s.world with locked := s.world.locked.erase id } }
      else s
    | none => s
  match s.signalAt, s.point with
  | some _, _ => s
  | none, .stopping => s
  | none, _ =>
    if s.holds x.signalAfter then { s with signalAt := some (s.world.now + signalDelay) } else s

/-- Everything that can be done at the present moment is done. -/
def rest (i : Identity) (s : Stage) : Stage :=
  settleCalls i ({ s with world := (World.settle World.maxSteps s.world) }).collect

/-- Sends the signal. -/
def signal (x : Surroundings) (s : Stage) : Option Stage :=
  match s.point with
  | .starting => none
  | _ =>
    let s := s.move (onSignal x.signal)
    some { s with
      signalAt := none
      world := (s.world.breakOffStep 1).spawn (some 2) (.elector 0 (.stop .request)) }

/-- Runs until the node ends; `fuel` bounds the moments on the way.  The result is none for a node
that does not end by itself. -/
def run (s : Stage) (x : Surroundings) (i : Identity) : Nat → Stage × Option (Except Error Unit)
  | 0 => (s, none)
  | fuel + 1 =>
    let s := react x (rest i s)
    match s.point with
    | .ended r => (s, some r)
    | _ =>
      if !s.world.isIdle then run s x i fuel
      else
        match s.signalAt, s.world.nextWake? with
        | some t, wake =>
          if wake.all (t ≤ ·) then
            match signal x { s with world := { s.world with now := t }.wake } with
            | some s => run s x i fuel
            | none => (s, none)
          else run { s with world := { s.world with now := wake.getD t }.wake } x i fuel
        | none, some t => run { s with world := { s.world with now := t }.wake } x i fuel
        | none, none => (s, none)

/-- The moments that a run may take. -/
def maxMoments : Nat := 100000

end Stage

/-- What a file holds, if it can be read as text. -/
def fileText? (files : Tree) (path : String) : Option String :=
  match files.read path with
  | .ok (bytes, _) => Text.Utf8.decode? bytes
  | .error _ => none

/-- The rival takes its lock; the file is made if need be. -/
def rivalLocks (files : Tree) (path : Option String) : Tree × Option NodeId :=
  match path with
  | none => (files, none)
  | some path =>
    match files.openForAppend path with
    | (files, .ok id) => (files, some id)
    | (files, .error _) => (files, none)

/-- How much a node whose log is `log` shows in the reported one: nothing if that is another. -/
def Surroundings.detail (x : Surroundings) (files : Tree) (log : NodeId) : Nat :=
  match files.find x.log with
  | .ok id => if id = log then detailIn x.env else 0
  | .error _ => 0

/-- The world of a node: a registry, a lock and an elector, all under number 0. -/
def worldOf (settings : Settings) (i : Identity) (files : Tree) (rival : Option NodeId) : World :=
  let store : Scenario.RegistryStore := match settings.election.registryPath with
    | some path => .file path
    | none => .memory .empty
  let w : World := { now := 0, timeOfDay := 0, files := files, locked := rival.toList }
  let w := (w.addRegistry "registry" store).addLock "lock"
    (.file .fresh settings.election.lockPollInterval)
  let w := (w.makeNode "node" i settings.node.port (some settings.node.nodeDir) 0 0).1
  w.setElector 0 fun cell => { cell with elector := cell.elector.register "" }

/-- The elector is started. -/
def Stage.begin (s : Stage) (settings : Settings) (i : Identity) : Stage :=
  match Election.StartPoint.enter settings.election.coordinator settings.election.blockingStart,
      settings.election.coordinator with
  | .error e, _ => s.move (onStarted i (.error e))
  | _, .error e => s.move (onStarted i (.error e))
  | .ok p, .ok address =>
    let s := match s.world.files.prepareParent address with
      | (_, .error _) => s.say [noDirectoryOf address]
      | _ => s
    { s with world := s.world.spawn (some 0) (.elector 0 (.start p)) }

/-- A run that has come to its end, or is given up. -/
def Stage.result (s : Stage) (x : Surroundings) (r : Option (Except Error Unit)) : Result where
  exitCode := r.map fun
    | .ok () => 0
    | .error _ => 1
  error := match r with
    | some (.error e) => some e
    | _ => none
  lines := s.lines
  registry := x.registry.bind (fileText? s.world.files)

/-- Runs a lead node from its settings on. -/
def rehearse (x : Surroundings) : Result :=
  let (files, rival) := rivalLocks x.files x.rivalLock
  let stage (detail : Nat) (files : Tree) : Stage :=
    { world := { now := 0, timeOfDay := 0, files := files }, point := .starting, lines := []
      detail := detail, rival := rival, signalAt := none }
  match Settings.load files x.env with
  | .error e => (stage 0 files).result x (some (.error (.settings e)))
  | .ok settings =>
    match settings.validate with
    | .error e => (stage 0 files).result x (some (.error e))
    | .ok () =>
      let path := settings.node.logPath
      match files.openForAppend path with
      | (files, .error f) => (stage 0 files).result x (some (.error (noLog path f)))
      | (files, .ok log) =>
        let detail := x.detail files log
        let (files, prepared) := match settings.election.registryPath with
          | some path => files.prepareParent path
          | none => (files, .ok ())
        match prepared, settings.election.registryPath with
        | .error f, some path =>
          ((stage detail files).say [noDirectoryOf path]).result x
            (some (.error (.registry (.file f))))
        | _, _ =>
          let i := settings.node.identity x.processId
          let stage := { stage detail files with world := worldOf settings i files rival }
          let (stage, r) := (stage.begin settings i).run x i Stage.maxMoments
          stage.result x r

end Primacy.LeadNode
