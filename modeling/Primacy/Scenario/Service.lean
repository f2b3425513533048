/-
  Primacy.Scenario.Service

  Calls to lock services and registries: scripts and faults come first, then the service itself.
-/
import Primacy.Scenario.World

namespace Primacy.Scenario

/-- What has come of a request when it was looked at. -/
inductive Progress (α : Type) where
  | answered (a : α)
  /-- It is to be looked at again, after the tasks that come first. -/
  | again
  /-- It has to wait. -/
  | wait
  | broken

/-- Goes on with the answer to a request, if there is one. -/
def onAnswer {α β : Type} (look : World × Progress α) (f : World → α → World × Progress β) :
    World × Progress β :=
  match look with
  | (w, .answered a) => f w a
  | (w, .again) => (w, .again)
  | (w, .wait) => (w, .wait)
  | (w, .broken) => (w, .broken)

namespace World

/-- Stops a node in the background; the stop goes as far as it can at once. -/
def stopFirst (w : World) (node : String) : World :=
  match w.nodeNames.get? node with
  | some id => w.spawnFirst (.elector id (.stop .request))
  | none => w

/-! ## Locks -/

/-- Wakes the tasks that wait for a lock in memory. -/
def release (w : World) (id : Nat) (m : Lock.Memory) : World :=
  w.setLock id fun cell => { cell with service := .memory m.wakeAll.2 }

/-- Makes a lock call. -/
def callLock (w : World) (t : TaskId) (id : Nat) (c : Lock.Call) :
    World × Progress Election.Reply :=
  match w.service? id with
  | none => (w, .broken)
  | some (.memory m) =>
    let (r, m) := m.serve t c
    let w := w.setLock id fun cell => { cell with service := .memory m }
    match r with
    | some r => (w, .answered (r.mapError .lock))
    | none => (w.setPhase t (.enrolled id), .wait)
  | some (.file h poll) =>
    let ((files, locked), r, h) := h.serve w.files w.locked c
    let w := { w with files := files, locked := locked }
    let w := w.setLock id fun cell => { cell with service := .file h poll }
    match r with
    | some r => (w, .answered (r.mapError .lock))
    | none => (w.setPhase t (.sleeping (w.now + poll)), .wait)

/-- The script's item for a call of kind `k`, which is used up. -/
def takeItem (k : LockCallKind) (script : List (LockCallKind × ScriptItem)) :
    Option ScriptItem × List (LockCallKind × ScriptItem) :=
  match script with
  | [] => (none, [])
  | (kind, item) :: rest =>
    if kind = k then (some item, rest)
    else
      let (found, rest) := takeItem k rest
      (found, (kind, item) :: rest)

/-- A lock call is made for the first time: it is recorded, and the script is asked. -/
def startLock (w : World) (t : TaskId) (id : Nat) (c : Lock.Call) :
    World × Progress Election.Reply :=
  match w.locks[id]? with
  | none => (w, .broken)
  | some cell =>
    let (item, script) := takeItem (.of c) cell.script
    let w := w.setLock id fun cell =>
      { cell with script := script, calls := cell.calls ++ [(.of c, c.subject)] }
    match item with
    | none | some .pass => (w.setPhase t .due, .again)
    | some (.answer granted) => (w, .answered (.ok granted))
    | some (.fail reason) => (w, .answered (.error (.lock (.unavailable reason))))
    | some .hang => (w.setPhase t .hung, .wait)
    | some .breakDown => (w, .broken)
    | some (.stop node pass) =>
      ((w.setPhase t (if pass then .due else .granted)).stopFirst node, .again)

/-- Looks at a lock call. -/
def lookLock (w : World) (t : TaskId) (id : Nat) (c : Lock.Call) :
    World × Progress Election.Reply :=
  match w.phase? t with
  | some .fresh => w.startLock t id c
  | some .granted => (w, .answered (.ok true))
  | some .hung => (w, .wait)
  | _ => w.callLock t id c

/-- Gives up a lock call. -/
def withdraw (w : World) (t : TaskId) : World :=
  match w.phase? t with
  | some (.enrolled id) =>
    w.setLock id fun cell =>
      match cell.service with
      | .memory m => { cell with service := .memory (m.withdraw t) }
      | _ => cell
  | _ => w

/-! ## Registries -/

/-- Answers a registry request. -/
def callRegistry (w : World) (id : Nat) (q : Registry.Request) : World × q.Reply :=
  match w.store? id with
  | none => (w, .error (.failed ""))
  | some (.memory c) =>
    match c.answer q with
    | .ok (a, c) => (w.setRegistry id fun cell => { cell with store := .memory c }, .ok a)
    | .error e => (w, .error e)
  | some (.file path) =>
    match w.files.openFile path with
    | .error f => (w, .error (.file f))
    | .ok (files, node) =>
      match Registry.Content.answerFile (files.content node).1 q with
      | .error e => ({ w with files := files }, .error e)
      | .ok (a, none) => ({ w with files := files }, .ok a)
      | .ok (a, some bytes) => ({ w with files := files.overwrite node bytes }, .ok a)

/-- The action of the first fault that applies to a request, and the faults from then on. -/
def takeFault (q : Registry.Request) : List FaultRule → Option FaultAction × List FaultRule
  | [] => (none, [])
  | f :: faults =>
    if f.matches q then
      if 0 < f.skip then (none, { f with skip := f.skip - 1 } :: faults)
      else (some f.action, { f with times := f.times - 1 } :: faults)
    else
      let (found, faults) := takeFault q faults
      (found, f :: faults)

/-- A registry in a file has to wait for the disk. -/
def onDisk (w : World) (id : Nat) : Bool :=
  match w.store? id with
  | some (.file _) => true
  | _ => false

/-- A task has to wait for the disk. -/
def awaitDisk (w : World) (t : TaskId) : World :=
  { w.setPhase t .disk with disk := w.disk ++ [t] }

/-- The disk is done with a task's request. -/
def diskIsDone (w : World) (t : TaskId) : Bool := !w.disk.contains t

/-- Looks at a registry request. -/
def lookRegistry (w : World) (t : TaskId) (id : Nat) (q : Registry.Request) :
    World × Progress q.Reply :=
  let answer (w : World) : World × Progress q.Reply :=
    let (w, r) := w.callRegistry id q
    (w, .answered r)
  match w.phase? t, w.registries[id]? with
  | some .fresh, some cell =>
    let (action, faults) := takeFault q cell.faults
    let w := w.setRegistry id fun cell => { cell with faults := faults }
    match action with
    | none => (w.setPhase t .due, .again)
    | some (.fail reason) => (w, .answered (.error (.failed reason)))
    | some .hold => (w.setPhase t (.held id cell.resumed), .wait)
    | some (.stop node) => ((w.setPhase t .due).stopFirst node, .again)
    | some .breakDown => (w, .broken)
  | some .disk, _ => if w.diskIsDone t then answer w else (w, .wait)
  | _, _ => if w.onDisk id then (w.awaitDisk t, .wait) else answer w

end World

end Primacy.Scenario
