/-
  Primacy.Scenario.World

  The world of a scripted run: files, gates, locks, registries, electors and drivers under names,
  the tasks at work on them, and a virtual clock.
-/
import Primacy.Election.Activity
import Primacy.Failover.Cycle
import Primacy.Failover.Takeover
import Primacy.Lock.File
import Primacy.Lock.Memory
import Primacy.Registry.Content
import Primacy.Scenario.Outcome
import Primacy.Text.Number

namespace Primacy.Scenario

open Files (Tree NodeId)

abbrev TaskId := Nat

/-! ## Locks -/

/-- The kind of a lock call. -/
def LockCallKind.of : Lock.Call → LockCallKind
  | .connect _ => .connect
  | .tryLock _ => .tryLock
  | .lock _ => .lock
  | .unlock _ => .unlock

/-- What a script makes of one lock call. -/
inductive ScriptItem where
  /-- Answers without touching the lock. -/
  | answer (granted : Bool)
  | fail (reason : String)
  | hang
  | breakDown
  /-- Makes the call. -/
  | pass
  /-- Stops a node first; then makes the call if `pass` holds, and grants it otherwise. -/
  | stop (node : String) (pass : Bool)

inductive LockService where
  | memory (m : Lock.Memory)
  /-- A handle on a lock file, and how often it is looked at, in milliseconds. -/
  | file (h : Lock.Handle) (poll : Nat)

structure LockCell where
  service : LockService
  script : List (LockCallKind × ScriptItem) := []
  calls : List (LockCallKind × String) := []
  named : Bool := true

/-! ## Registries -/

inductive RegistryCallKind where
  | put
  | get
  | increment
  | zero
  deriving DecidableEq

def RegistryCallKind.of : Registry.Request → RegistryCallKind
  | .put .. => .put
  | .get _ => .get
  | .increment _ => .increment
  | .zero _ => .zero

/-- What happens to a registry call that a fault applies to. -/
inductive FaultAction where
  | fail (reason : String)
  /-- The call waits until the registry is resumed. -/
  | hold
  /-- Stops a node first. -/
  | stop (node : String)
  | breakDown

/-- A fault of calls of one kind, perhaps on one key only: it lets `skip` of them through and then
applies to the next `times`. -/
structure FaultRule where
  call : RegistryCallKind
  key : Option String
  skip : Nat
  times : Nat
  action : FaultAction

def FaultRule.matches (f : FaultRule) (q : Registry.Request) : Bool :=
  0 < f.times && f.call == .of q && (f.key.isNone || f.key == some q.subject)

inductive RegistryStore where
  | memory (c : Registry.Content)
  | file (path : String)

structure RegistryCell where
  store : RegistryStore
  faults : List FaultRule := []
  /-- How often the registry was resumed. -/
  resumed : Nat := 0

/-! ## Electors and drivers -/

structure ElectorCell where
  name : String
  elector : Election.Elector
  lock : Nat
  registry : Nat
  named : Bool := true

/-- What a launch comes to. -/
inductive LaunchItem where
  | exitCode (code : Int)
  | hang
  | fail (reason : String)

/-- What a termination comes to. -/
inductive TerminateItem where
  | done
  | hang
  | fail (reason : String)

/-- Nodes of the roster that hooks start and stop. -/
structure Cluster where
  lock : Nat
  registry : Nat
  coordinator : Option String
  /-- Members that were terminated, to be started again. -/
  down : List Member := []

structure DriverCell where
  driver : Failover.Driver
  registry : Nat
  launches : List LaunchItem
  terminations : List TerminateItem
  cluster : Option Cluster
  hookCalls : List HookCall := []

/-! ## Tasks -/

/-- How far the request that a task waits for has got. -/
inductive Phase where
  /-- Not made yet. -/
  | fresh
  /-- To be made as it is, nothing else to be looked at. -/
  | due
  /-- To be granted. -/
  | granted
  /-- Enrolled with a lock in memory. -/
  | enrolled (lock : Nat)
  | sleeping (till : Nat)
  /-- Held until a registry was resumed more than `seen` times. -/
  | held (registry seen : Nat)
  /-- Waits for the disk. -/
  | disk
  | hung

/-- What a hook of a cluster is at. -/
inductive Hook where
  /-- Starts an elector, with more members to start. -/
  | starting (elector : Nat) (a : Election.Activity) (rest : List Member)
  /-- Waits for another node to be primary, and looks so many times more. -/
  | settling (looks : Nat)

/-- The dialogue of a failover driver that comes to an outcome. -/
abbrev DriverDialogue := Dialogue Failover.Request Failover.Request.Reply Outcome

/-- The dialogue of a registry procedure that comes to an outcome. -/
abbrev RegistryDialogue := Dialogue Registry.Request Registry.Request.Reply Outcome

/-- What a task is at. -/
inductive Work where
  | elector (id : Nat) (a : Election.Activity)
  | gate (id : Nat)
  | lock (id : Nat) (c : Lock.Call)
  | registry (id : Nat) (d : RegistryDialogue)
  | failover (id : Nat) (d : DriverDialogue) (hook : Option Hook)
  | ended

structure Task where
  /-- The step that made the call; none of background work. -/
  step : Option Nat
  began : Nat
  work : Work
  phase : Phase := .fresh

structure World where
  now : Nat
  /-- The time of day, which virtual time does not move. -/
  timeOfDay : Int
  files : Tree
  /-- The files that are locked. -/
  locked : List NodeId := []
  gates : Array Election.Gate := #[]
  gateNames : Keyed Nat := []
  locks : Array LockCell := #[]
  lockNames : Keyed Nat := []
  registries : Array RegistryCell := #[]
  registryNames : Keyed Nat := []
  electors : Array ElectorCell := #[]
  nodeNames : Keyed Nat := []
  drivers : Array DriverCell := #[]
  driverNames : Keyed Nat := []
  /-- Times of day that were written as so many milliseconds ago. -/
  agos : List (String × Int) := []
  tasks : Array Task := #[]
  /-- Tasks at work: the first one works on, the others wait for those before them. -/
  stack : List TaskId := []
  /-- Tasks that can work on, in the order they came to. -/
  queue : List TaskId := []
  /-- Tasks that wait for something, in the order they came to. -/
  waiting : List TaskId := []
  /-- Tasks that wait for the disk. -/
  disk : List TaskId := []
  ended : List (Nat × Outcome × Nat) := []
  /-- What electors made known. -/
  events : List (Identity × Election.Event) := []

namespace World

def task? (w : World) (t : TaskId) : Option Task := w.tasks[t]?

/-- How far the request of a task has got. -/
def phase? (w : World) (t : TaskId) : Option Phase := (w.task? t).map Task.phase

def service? (w : World) (id : Nat) : Option LockService := w.locks[id]?.map LockCell.service

def store? (w : World) (id : Nat) : Option RegistryStore :=
  w.registries[id]?.map RegistryCell.store

def setTask (w : World) (t : TaskId) (f : Task → Task) : World :=
  { w with tasks := w.tasks.modify t f }

def setPhase (w : World) (t : TaskId) (p : Phase) : World :=
  w.setTask t fun k => { k with phase := p }

def setWork (w : World) (t : TaskId) (work : Work) : World :=
  w.setTask t fun k => { k with work := work, phase := .fresh }

def setLock (w : World) (id : Nat) (f : LockCell → LockCell) : World :=
  { w with locks := w.locks.modify id f }

def setRegistry (w : World) (id : Nat) (f : RegistryCell → RegistryCell) : World :=
  { w with registries := w.registries.modify id f }

def setElector (w : World) (id : Nat) (f : ElectorCell → ElectorCell) : World :=
  { w with electors := w.electors.modify id f }

def setDriver (w : World) (id : Nat) (f : DriverCell → DriverCell) : World :=
  { w with drivers := w.drivers.modify id f }

def elector? (w : World) (id : Nat) : Option Election.Elector :=
  w.electors[id]?.map (·.elector)

/-! ## Names of owners -/

/-- The elector that a node name means: the one made last, even if it was dropped. -/
def latest? (w : World) (name : String) : Option Nat :=
  (List.range w.electors.size).reverse.find? fun id =>
    match w.electors[id]? with
    | some cell => cell.name == name
    | none => false

/-- The owner that a text means: `@` and a name mean the owner of that node. -/
def ownerOf (w : World) (s : String) : String :=
  match s.toList with
  | '@' :: name =>
    match (w.latest? (String.ofList name)).bind w.elector? with
    | some e => e.owner
    | none => s
  | _ => s

/-- An owner as reports show it. -/
def showOwner (w : World) (owner : String) : String :=
  match w.electors.find? (·.elector.owner == owner) with
  | some cell => "@" ++ cell.name
  | none => owner

/-- An error as reports show it. -/
def showError (w : World) : Error → Error
  | .lock (.notHeld owner) => .lock (.notHeld (w.showOwner owner))
  | e => e

/-- A text as reports show it: times of day are told by where they came from. -/
def showText (w : World) (s : String) : String :=
  s |> Text.mapNumbers fun n =>
    match w.agos.find? (·.1 == n) with
    | some (_, ago) => s!"<ago:{ago}>"
    | none => if n == toString w.timeOfDay then "<now>" else n

/-! ## Tasks -/

/-- Adds a task that can work at once. -/
def spawn (w : World) (step : Option Nat) (work : Work) : World :=
  { w with
    tasks := w.tasks.push { step := step, began := w.now, work := work }
    queue := w.queue ++ [w.tasks.size] }

/-- Adds a task that works before the one that is at work now goes on. -/
def spawnFirst (w : World) (work : Work) : World :=
  { w with
    tasks := w.tasks.push { step := none, began := w.now, work := work }
    stack := w.tasks.size :: w.stack }

/-- The task at work has to wait. -/
def block (w : World) (t : TaskId) : World :=
  { w with stack := w.stack.erase t, waiting := w.waiting ++ [t] }

/-- The task is over. -/
def finish (w : World) (t : TaskId) (r : Outcome) : World :=
  let w := match w.task? t with
    | some k =>
      match k.step, r with
      | some i, .broken => { w with ended := w.ended ++ [(i, r, 0)] }
      | some i, .cancelled => { w with ended := w.ended ++ [(i, r, 0)] }
      | some i, r => { w with ended := w.ended ++ [(i, r, w.now - k.began)] }
      | none, _ => w
    | none => w
  { w.setWork t .ended with
    stack := w.stack.erase t
    queue := w.queue.erase t
    waiting := w.waiting.erase t
    disk := w.disk.erase t }

end World

end Primacy.Scenario
