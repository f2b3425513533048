/-
  Primacy.Main

  The program: a lead node that works on the files, the clock and the signals of its machine.  What
  it does next is decided by the elector and by the node's program; what stands here carries it out.
-/
import Primacy.Election.Activity
import Primacy.LeadNode.Program
import Primacy.Lock.File
import Primacy.Registry.Content
import Primacy.Settings.Load
import Std.Async.Signal
import Std.Internal.UV.System
import Std.Time

namespace Primacy.Live

open Election (Activity Elector Ending Reply Turn)
open LeadNode (Line Point)

/-! ## Files -/

/-- The fault that an error of the operating system is. -/
def faultOf : IO.Error → Files.Fault
  | .noFileOrDirectory .. => .notFound
  | .inappropriateType _ code _ => if code = 20 then .notDirectory else .isDirectory
  | .alreadyExists .. => .alreadyExists
  | _ => .unfinished

def attempt {α : Type} (work : IO α) : IO (Except Files.Fault α) := do
  match ← work.toBaseIO with
  | .ok a => return .ok a
  | .error e => return .error (faultOf e)

/-- Makes the directory that `path` lies in, unless something is there already. -/
def prepareParent (path : String) : IO Unit := do
  let above := (Path.parent? path).getD ""
  unless above.isEmpty do
    match ← (IO.FS.createDirAll above).toBaseIO with
    | .ok () => return
    | .error (.alreadyExists ..) => return
    | .error e => throw e

/-- The file that the settings may come from, as a tree of its own. -/
def settingsFiles (env : Settings.Environment) : IO Files.Tree := do
  let files := Files.Tree.blank 0
  match env.get? Settings.fileVariable with
  | none => return files
  | some name =>
    [name, name ++ ".toml"].foldlM (fun files (path : String) => do
      match ← attempt (IO.FS.readBinFile path) with
      | .ok bytes => return ((files.prepareParent path).1.write path bytes.toList).1
      | .error _ => return files) files

/-! ## The node at work -/

/-- The lock file, once connected, and the open file that is locked, while it is. -/
structure LockFile where
  path : Option String := none
  held : Option IO.FS.Handle := none

structure Machine where
  settings : Settings
  log : IO.FS.Handle
  /-- How much the log tells. -/
  detail : Nat
  lock : IO.Ref LockFile
  /-- What the registry holds, if it is not on disk. -/
  memory : IO.Ref Registry.Content

namespace Machine

def say (m : Machine) (lines : List Line) : IO Unit := do
  for l in lines do
    if LeadNode.detail l.severity ≤ m.detail then
      let now := Std.Time.DateTime.ofTimestampWithZone (← Std.Time.Timestamp.now) .UTC
      let time := now.format "uuuu-MM-dd'T'HH:mm:ss.SSSSSS'Z'"
      m.log.putStrLn s!"{time} {LeadNode.severityName l.severity} {l.text}"
  m.log.flush

/-! ## Locks -/

def connect (m : Machine) (address : String) : IO Reply := do
  match ← attempt (prepareParent address) with
  | .error f =>
    m.say [LeadNode.noDirectoryOf address]
    return .error (Lock.cannotPrepare address f)
  | .ok () =>
    match ← attempt (IO.FS.Handle.mk address .append) with
    | .error f => return .error (Lock.cannotOpen address f)
    | .ok _ =>
      m.lock.modify fun l => { l with path := l.path <|> some address }
      return .ok true

def tryLock (m : Machine) : IO Reply := do
  let l ← m.lock.get
  match l.path, l.held with
  | none, _ => return .error Lock.notConnected
  | some _, some _ => return .ok true
  | some path, none =>
    match ← attempt (IO.FS.Handle.mk path .append) with
    | .error f => return .error (LockError.file path f)
    | .ok file =>
      match ← attempt file.tryLock with
      | .error f => return .error (LockError.file path f)
      | .ok granted =>
        if granted then m.lock.set { l with held := some file }
        return .ok granted

def unlock (m : Machine) (owner : String) : IO Reply := do
  let l ← m.lock.get
  match l.held with
  | none => return .error (LockError.notHeld owner)
  | some file =>
    file.unlock
    m.lock.set { l with held := none }
    return .ok true

/-! ## Registries -/

/-- Answers a request from the registry on disk, which is locked meanwhile. -/
def answerOnDisk (path : String) (q : Registry.Request) : IO q.Reply := do
  let file ← IO.FS.Handle.mk path .append
  file.lock
  let document ← IO.FS.Handle.mk path .readWrite
  match Registry.Content.answerFile (← document.readBinToEnd).toList q with
  | .error e => return .error e
  | .ok (a, none) => return .ok a
  | .ok (a, some bytes) =>
    document.rewind
    document.truncate
    document.write ⟨bytes.toArray⟩
    document.flush
    return .ok a

def askRegistry (m : Machine) (q : Registry.Request) : IO q.Reply := do
  match m.settings.election.registryPath with
  | some path =>
    match ← attempt (answerOnDisk path q) with
    | .ok r => return r
    | .error f => return .error (.file f)
  | none =>
    match (← m.memory.get).answer q with
    | .error e => return .error e
    | .ok (a, content) =>
      m.memory.set content
      return .ok a

/-- Answers a request of the elector; a lock that is taken has no answer yet. -/
def answer (m : Machine) (owner : String) (q : Election.Request) : IO (Option Reply) :=
  match q with
  | .connect address => return some (← m.connect address)
  | .tryLock => return some (← m.tryLock)
  | .lock => do
    match ← m.tryLock with
    | .ok false => return none
    | r => return some r
  | .unlock => return some (← m.unlock owner)
  | .put key value => do
    match ← m.askRegistry (.put key value) with
    | .ok () => return some (.ok true)
    | .error e => return some (.error e)

end Machine

/-! ## Running -/

/-- An activity of the elector, and the time before which it does not ask again. -/
structure Running where
  id : Election.CallId
  activity : Activity
  wake : Nat := 0

/-- A signal that is listened for. -/
structure Listener where
  signal : LeadNode.Signal
  came : Std.Async.AsyncTask Int

structure Stage where
  elector : Elector
  point : Point
  running : List Running
  listeners : List Listener := []

/-- The numbers of the calls. -/
def startCall : Election.CallId := 0

def awaitCall : Election.CallId := 1

def stopCall : Election.CallId := 2

def waiterCall : Election.CallId := 3

def listen : IO (List Listener) :=
  [(LeadNode.Signal.interrupt, Std.Async.Signal.sigint),
   (LeadNode.Signal.terminate, Std.Async.Signal.sigterm)].mapM fun s => do
    let waiter ← Std.Async.Signal.Waiter.mk s.2 false
    return ⟨s.1, ← waiter.wait⟩

/-- The signal that has come, if one has. -/
def heard (s : Stage) : IO (Option LeadNode.Signal) := do
  for l in s.listeners do
    if (← l.came.getState) = .finished then return some l.signal
  return none

/-- Looks at an activity: it takes a turn, or goes on waiting. -/
def look (m : Machine) (e : Elector) (r : Running) : IO (Running ⊕ Turn Activity Ending) := do
  if r.activity.isReady e r.id then return .inr (r.activity.step e r.id)
  match r.activity.request? e with
  | none => return .inl r
  | some q =>
    let now ← IO.monoMsNow
    if now < r.wake then return .inl r
    match ← m.answer e.owner q with
    | some reply => return .inr (r.activity.reply e reply)
    | none => return .inl { r with wake := now + m.settings.election.lockPollInterval }

/-- Takes note of the end of a call. -/
def conclude (m : Machine) (s : Stage) (ending : Ending) : IO Stage := do
  match ending, s.point with
  | .started r, _ =>
    let (point, lines) := LeadNode.onStarted s.elector.identity r
    m.say lines
    match r with
    | .error _ => return { s with point := point }
    | .ok _ =>
      return { s with
        point := point
        running := s.running ++ [⟨awaitCall, .await .check, 0⟩]
        listeners := ← listen }
  | .awaited state, .watching =>
    let (point, lines) := LeadNode.onAwaited state
    m.say lines
    return { s with point := point }
  | .stopped r, _ =>
    let (point, lines) := LeadNode.onStopped r
    m.say lines
    return { s with point := point }
  | _, _ => return s

/-- Carries out a turn of the activity `r`. -/
def carryOut (m : Machine) (s : Stage) (r : Running) (t : Turn Activity Ending) : IO Stage := do
  m.say (t.events.filterMap (Line.ofEvent? s.elector.identity))
  let isNew := s.elector.waiter = .absent ∧ t.elector.waiter = .active
  let others := s.running.filter (·.id != r.id)
  let others := if isNew then others ++ [⟨waiterCall, .waiter .await, 0⟩] else others
  match t.next with
  | .inl a =>
    let r := { r with activity := a, wake := 0 }
    return { s with elector := t.elector, running := others ++ [r] }
  | .inr ending => conclude m { s with elector := t.elector, running := others } ending

/-- Lets the first of some activities that can take a turn do so; tells whether there was one. -/
def advance (m : Machine) (s : Stage) : List Running → IO (Stage × Bool)
  | [] => return (s, false)
  | r :: rest => do
    match ← look m s.elector r with
    | .inr t => return (← carryOut m s r t, true)
    | .inl r =>
      let running := s.running.map fun k => if k.id = r.id then r else k
      advance m { s with running := running } rest

/-- Between two looks at what goes on, in milliseconds. -/
def pause : UInt32 := 5

partial def run (m : Machine) (s : Stage) : IO (Except Error Unit) := do
  match s.point with
  | .ended r => return r
  | _ =>
    match ← advance m s s.running with
    | (s, true) => run m s
    | (s, false) =>
      match ← heard s with
      | none =>
        IO.sleep pause
        run m s
      | some signal =>
        let (point, lines) := LeadNode.onSignal signal
        m.say lines
        let others := s.running.filter (·.id != awaitCall)
        run m { s with
          point := point, listeners := []
          running := others ++ [⟨stopCall, .stop .request, 0⟩] }

/-- Runs a lead node with the given settings. -/
def serve (m : Machine) (i : Identity) : IO (Except Error Unit) := do
  let s := m.settings
  let elector := Elector.fresh i i.ownerToken s.node.port (some s.node.nodeDir)
  let elector := elector.register ""
  match Election.StartPoint.enter s.election.coordinator s.election.blockingStart with
  | .error e =>
    m.say (LeadNode.fails e).2
    return .error e
  | .ok p => run m ⟨elector, .starting, [⟨startCall, .start p, 0⟩], []⟩

/-- Runs a lead node from its settings on. -/
def rise (env : Settings.Environment) : IO (Except Error Unit) := do
  match Settings.load (← settingsFiles env) env with
  | .error e => return .error e
  | .ok s =>
    match s.validate with
    | .error e => return .error e
    | .ok () =>
      let path := s.node.logPath
      match ← attempt (do prepareParent path; IO.FS.Handle.mk path .append) with
      | .error f => return .error (LeadNode.noLog path f)
      | .ok log =>
        let m : Machine :=
          ⟨s, log, LeadNode.detailIn env, ← IO.mkRef {}, ← IO.mkRef Registry.Content.empty⟩
        let prepared ← match s.election.registryPath with
          | some path => attempt (prepareParent path)
          | none => pure (.ok ())
        match prepared, s.election.registryPath with
        | .error f, some path =>
          m.say [LeadNode.noDirectoryOf path]
          return .error (RegistryError.file f)
        | _, _ => serve m (s.node.identity (← Std.Internal.UV.System.osGetPid).toNat)

end Primacy.Live

def main : IO UInt32 := do
  match ← Primacy.Live.rise (← Std.Internal.UV.System.osEnviron).toList with
  | .ok () => return 0
  | .error e =>
    IO.eprintln s!"Error: {e.message}"
    return 1
