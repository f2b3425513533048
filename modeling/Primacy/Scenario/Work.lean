/-
  Primacy.Scenario.Work

  One step of one task: an activity of an elector, a call to a gate, a lock or a registry, or the
  dialogue of a failover driver with its hooks.
-/
import Primacy.Files.Search
import Primacy.Scenario.Service
import Primacy.Settings.Election

namespace Primacy.Scenario

namespace World

/-! ## Electors -/

/-- Carries out a turn of an activity.  A waiter that it brought to life gets a task of its own. -/
def carryOut (w : World) (id : Nat) (before : Election.Elector)
    (turn : Election.Turn Election.Activity Election.Ending) :
    World × Progress (Election.Activity ⊕ Election.Ending) :=
  let w := w.setElector id fun cell => { cell with elector := turn.elector }
  let w :=
    if before.waiter = .absent ∧ turn.elector.waiter = .active then
      w.spawn none (.elector id (.waiter .await))
    else w
  ({ w with events := w.events ++ turn.events.map fun ev => (before.identity, ev) },
    .answered turn.next)

/-- Looks at the request of an elector. -/
def lookElector (w : World) (t : TaskId) (cell : ElectorCell) (q : Election.Request) :
    World × Progress Election.Reply :=
  match q.target cell.elector.owner with
  | .inl c => w.lookLock t cell.lock c
  | .inr (key, value) =>
    onAnswer (w.lookRegistry t cell.registry (.put key value)) fun w r =>
      match r with
      | .ok () => (w, .answered (.ok true))
      | .error e => (w, .answered (.error (.registry e)))

/-- The request is to be answered whatever else has happened. -/
def isCommitted (w : World) (t : TaskId) : Bool :=
  match w.phase? t with
  | some .due => true
  | some .granted => true
  | _ => false

/-- One step of an activity. -/
def stepActivity (w : World) (t : TaskId) (id : Nat) (a : Election.Activity) :
    World × Progress (Election.Activity ⊕ Election.Ending) :=
  match w.electors[id]? with
  | none => (w, .broken)
  | some cell =>
    let e := cell.elector
    match a.request? e with
    | none => if a.isReady e t then w.carryOut id e (a.step e t) else (w, .wait)
    | some q =>
      if a.isReady e t && !w.isCommitted t then
        -- it stops waiting for the lock
        (w.withdraw t).carryOut id e (a.step e t)
      else
        onAnswer (w.lookElector t cell q) fun w r => w.carryOut id e (a.reply e r)

/-- Makes an elector under a name; one of that name before loses it. -/
def makeNode (w : World) (name : String) (i : Identity) (port : Nat) (nodeDir : Option String)
    (lock registry : Nat) : World × Nat :=
  let w := match w.nodeNames.get? name with
    | some old => w.setElector old fun cell => { cell with named := false }
    | none => w
  let id := w.electors.size
  let digits := (toString id).toList
  let session := String.ofList (List.replicate (8 - digits.length) '0' ++ digits)
  let elector := Election.Elector.fresh i (i.ownerToken ++ "#" ++ session) port nodeDir
  ({ w with
      electors := w.electors.push
        { name := name, elector := elector, lock := lock, registry := registry }
      nodeNames := w.nodeNames.insert name id }, id)

/-- Takes the name of an elector away. -/
def dropNode (w : World) (name : String) : World :=
  match w.nodeNames.get? name with
  | some id =>
    { w.setElector id fun cell => { cell with named := false } with
      nodeNames := w.nodeNames.erase name }
  | none => w

/-- Takes the lock from an owner who failed; says whether he held it. -/
def evict (w : World) (lock : Nat) (owner : String) : World × Bool :=
  match w.service? lock with
  | some (.memory m) =>
    match m.clear? owner with
    | some m => (w.release lock m, true)
    | none => (w, false)
  | _ => (w, false)

/-! ## Hooks -/

/-- A dialogue that is at a launch, with its answer. -/
def launched (d : DriverDialogue) (r : Except Error Int) : DriverDialogue :=
  match d with
  | .ask (.launch _ _) next => next r
  | d => d

/-- A dialogue that is at a termination, with its answer. -/
def terminated (d : DriverDialogue) (r : Except Error Unit) : DriverDialogue :=
  match d with
  | .ask (.terminate _ _) next => next r
  | d => d

/-- Starts members one after the other, as part of a launch. -/
def startMembers (w : World) (t : TaskId) (id : Nat) (c : Cluster) (d : DriverDialogue) :
    List Member → World
  | [] => w.setWork t (.failover id (launched d (.ok 0)) none)
  | m :: rest =>
    let (w, e) :=
      w.makeNode m.identity.label m.identity m.port (some m.nodeDir) c.lock c.registry
    let settings : Settings.Election := { coordinatorAddress := c.coordinator }
    match Election.StartPoint.enter settings.coordinator false with
    | .error err => w.setWork t (.failover id (launched d (.error err)) none)
    | .ok p => w.setWork t (.failover id d (some (.starting e (.start p) rest)))

/-- A launch by the hooks of a driver. -/
def launch (w : World) (t : TaskId) (id : Nat) (cell : DriverCell) (d : DriverDialogue)
    (role : String) (args : List String) : World × Progress Unit :=
  let w := w.setDriver id fun cell =>
    { cell with hookCalls := cell.hookCalls ++ [.launch role args], launches := cell.launches.tail }
  let go (r : Except Error Int) : World × Progress Unit :=
    (w.setWork t (.failover id (launched d r) none), .again)
  match cell.launches, cell.cluster with
  | .exitCode code :: _, _ => go (.ok code)
  | .hang :: _, _ => (w.setPhase t .hung, .wait)
  | .fail reason :: _, _ => go (.error (.fatal reason))
  | [], none => go (.ok 0)
  | [], some c =>
    let down := c.down.filter (·.role == role)
    let members := if down.isEmpty then cell.driver.roster.filter (·.role == role) else down
    let w := w.setDriver id fun cell =>
      { cell with cluster := some { c with down := c.down.filter (·.role != role) } }
    (w.startMembers t id c d members, .again)

/-- How often a terminated node's successor is looked for. -/
def maxLooks : Nat := 500

/-- Between two such looks, in milliseconds. -/
def lookInterval : Nat := 10

/-- A termination by the hooks of a driver. -/
def terminate (w : World) (t : TaskId) (id : Nat) (cell : DriverCell) (d : DriverDialogue)
    (role dir : String) : World × Progress Unit :=
  let w := w.setDriver id fun cell =>
    { cell with
      hookCalls := cell.hookCalls ++ [.terminate role dir]
      terminations := cell.terminations.tail }
  let go (w : World) (r : Except Error Unit) : World × Progress Unit :=
    (w.setWork t (.failover id (terminated d r) none), .again)
  match cell.terminations, cell.cluster with
  | .done :: _, _ => go w (.ok ())
  | .hang :: _, _ => (w.setPhase t .hung, .wait)
  | .fail reason :: _, _ => go w (.error (.fatal reason))
  | [], none => go w (.ok ())
  | [], some c =>
    match cell.driver.roster.find? (·.nodeDir == dir) with
    | none => go w (.ok ())
    | some m =>
      let w := w.setDriver id fun cell =>
        { cell with cluster := some { c with down := c.down.filter (· != m) ++ [m] } }
      match w.nodeNames.get? m.identity.label with
      | none => go w (.ok ())
      | some e =>
        match w.elector? e with
        | none => go w (.ok ())
        | some elector =>
          let w := ((w.dropNode m.identity.label).evict c.lock elector.owner).1
          if elector.status = .running then
            (w.setWork t (.failover id d (some (.settling maxLooks))), .again)
          else go w (.ok ())

/-- Exactly one named node is primary. -/
def hasOnePrimary (w : World) : Bool :=
  (w.nodeNames.filter fun n =>
    match w.elector? n.2 with
    | some e => e.status == .running
    | none => false).length == 1

/-! ## Drivers -/

/-- The log files of a node. -/
def nodeLogs (w : World) (dir : String) : Failover.NodeLogs :=
  (w.files.withExtension dir "log").map fun found =>
    found.map fun f => { path := f.1, content := .ok (w.files.content f.2) }

/-- Makes a line the content of a file. -/
def writeLine (w : World) (dir path line : String) : World × Except Files.Fault Unit :=
  match w.files.makeDirectories dir with
  | (files, .error f) => ({ w with files := files }, .error f)
  | (files, .ok ()) =>
    match files.write path (Text.Utf8.encode line) with
    | (files, .error f) => ({ w with files := files }, .error f)
    | (files, .ok _) => ({ w with files := files }, .ok ())

/-- The longest sleep that is counted in full, and what a longer one is taken for. -/
def longestSleep : Nat := 9000000000000000000

def sleepTime (duration : Nat) : Nat := if duration ≤ longestSleep then duration else 946080000000

/-- One step of a driver's dialogue. -/
def stepDialogue (w : World) (t : TaskId) (id : Nat) (d : DriverDialogue) :
    World × Progress Unit :=
  let go (w : World) (d : DriverDialogue) : World × Progress Unit :=
    (w.setWork t (.failover id d none), .again)
  match w.drivers[id]? with
  | none => (w, .broken)
  | some cell =>
    match d with
    | .done r => (w.finish t r, .again)
    | .ask (.registry q) next =>
      onAnswer (w.lookRegistry t cell.registry q) fun w r => go w (next r)
    | .ask (.logs dir) next =>
      match w.phase? t with
      | some .disk => if w.diskIsDone t then go w (next (w.nodeLogs dir)) else (w, .wait)
      | _ => (w.awaitDisk t, .wait)
    | .ask (.writeLine dir path line) next =>
      match w.phase? t with
      | some .disk =>
        if w.diskIsDone t then
          let (w, r) := w.writeLine dir path line
          go w (next r)
        else (w, .wait)
      | _ => (w.awaitDisk t, .wait)
    | .ask (.terminate role dir) next =>
      match w.phase? t with
      | some .hung => (w, .wait)
      | _ => w.terminate t id cell (.ask (.terminate role dir) next) role dir
    | .ask (.launch role args) next =>
      match w.phase? t with
      | some .hung => (w, .wait)
      | _ => w.launch t id cell (.ask (.launch role args) next) role args
    | .ask (.sleep duration) next =>
      match w.phase? t with
      | some (.sleeping till) => if till ≤ w.now then go w (next ()) else (w, .wait)
      | _ =>
        if duration = 0 then go w (next ())
        else (w.setPhase t (.sleeping (w.now + sleepTime duration)), .wait)
    | .ask .stopwatch next => go w (next w.now)
    | .ask .clock next => go w (next w.timeOfDay)
    | .ask (.draw _) next => go w (next 0)
    | .ask .breakDown _ => (w, .broken)

/-- One step of a hook. -/
def stepHook (w : World) (t : TaskId) (id : Nat) (d : DriverDialogue) :
    Hook → World × Progress Unit
  | .starting e a rest =>
    onAnswer (w.stepActivity t e a) fun w next =>
      match next with
      | .inl a => (w.setWork t (.failover id d (some (.starting e a rest))), .again)
      | .inr (.started (.error err)) =>
        (w.setWork t (.failover id (launched d (.error err)) none), .again)
      | .inr _ =>
        match w.drivers[id]?.bind DriverCell.cluster with
        | some c => (w.startMembers t id c d rest, .again)
        | none => (w, .broken)
  | .settling looks =>
    match w.phase? t with
    | some (.sleeping till) =>
      if till ≤ w.now then (w.setWork t (.failover id d (some (.settling (looks - 1)))), .again)
      else (w, .wait)
    | _ =>
      if looks = 0 ∨ w.hasOnePrimary then
        (w.setWork t (.failover id (terminated d (.ok ())) none), .again)
      else (w.setPhase t (.sleeping (w.now + lookInterval)), .wait)

/-! ## Tasks -/

/-- What the end of an activity comes to. -/
def outcomeOf : Election.Ending → Outcome
  | .started (.ok s) => .state s
  | .started (.error e) => .failed e
  | .stopped (.ok ()) => .done
  | .stopped (.error e) => .failed e
  | .awaited s => .state s
  | .done => .done

/-- What the answer to a lock call comes to. -/
def outcomeOfLock (c : Lock.Call) : Election.Reply → Outcome
  | .error e => .failed e
  | .ok granted =>
    match c with
    | .tryLock _ => .flag granted
    | _ => .done

/-- One step of a task. -/
def stepTask (w : World) (t : TaskId) (k : Task) : World × Progress Unit :=
  match k.work with
  | .ended => ({ w with stack := w.stack.erase t }, .again)
  | .elector id a =>
    onAnswer (w.stepActivity t id a) fun w next =>
      match next with
      | .inl a => (w.setWork t (.elector id a), .again)
      | .inr ending => (w.finish t (outcomeOf ending), .again)
  | .gate id =>
    match w.gates[id]? with
    | some g => if g.isSettled then (w.finish t (.gate g), .again) else (w, .wait)
    | none => (w, .broken)
  | .lock id c =>
    onAnswer (w.lookLock t id c) fun w r => (w.finish t (outcomeOfLock c r), .again)
  | .registry _ (.done r) => (w.finish t r, .again)
  | .registry id (.ask q next) =>
    onAnswer (w.lookRegistry t id q) fun w r => (w.setWork t (.registry id (next r)), .again)
  | .failover id d (some hook) => w.stepHook t id d hook
  | .failover id d none => w.stepDialogue t id d

end World

end Primacy.Scenario
