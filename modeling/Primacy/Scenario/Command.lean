/-
  Primacy.Scenario.Command

  The steps of a scripted run.  Each makes one call; everything works on until all tasks wait, then
  one millisecond passes, and what has come of it is told.
-/
import Primacy.Scenario.Clock

namespace Primacy.Scenario

open Text.Utf8 (Bytes)

/-- A call to a failover driver; members are told by their labels. -/
inductive DriverCall where
  | roster
  | select (n : Nat) (role : String)
  | killAndRestart (label : String)
  | cycle (target : Failover.Target)
  | refresh (role : String)
  /-- Another fragment makes the previous member differ from the one of the roster. -/
  | waitNew (previous : Option String) (fragment : Option String) (timeout : Nat)
  | startRole (role : String) (args : List String)
  | stopRole (label : String)
  | currentPrimary (role : String)
  | primaryFromLogs (role : String)
  | hookCalls

inductive RegistryCall where
  | put (key value : String)
  /-- Writes the time of day some milliseconds ago. -/
  | putAgo (key : String) (ago : Int)
  | get (key : String)
  | increment (key : String)
  | zero (key : String)
  | isFirstWriter (key : String)
  /-- How many of `n` callers are told that they are first. -/
  | race (key : String) (n : Nat)
  | getInt64 (key : String)
  | publish (host : String) (port : Nat)
  | load
  | entries
  | counter (key : String)
  | path
  | fault (f : FaultRule)
  | resume

inductive GateCall where
  | make
  | release
  | close
  | status
  | await

inductive FileCall where
  /-- Makes a file with its directories; `written` is in seconds. -/
  | write (path : String) (bytes : Bytes) (written : Int)
  | makeDirectories (path : String)
  | makeLink (path target : String)
  | remove (path : String)
  | read (path : String)
  | kind (path : String)
  | prepareParent (path : String)
  | append (path text : String)
  | withExtension (dir ext : String)
  | contains (path : String) (needles : List String)

inductive NodeCall where
  | make (i : Identity) (port : Nat) (nodeDir : Option String) (lock registry : String)
  | start (coordinator : Option String) (blocking : Bool)
  | stop
  | await
  | notify (callback : String)
  | drop
  | owner
  | identity
  | waiterFailure

inductive LockStep where
  | makeMemory (reachable : Bool)
  | makeFile (poll : Nat)
  | call (c : Lock.Call)
  | evict (owner : String)
  | path
  | drop
  | calls
  | script (kind : LockCallKind) (items : List ScriptItem)

inductive Command where
  | advance (duration : Nat)
  | cancel (step : Nat)
  | file (c : FileCall)
  | gate (name : String) (c : GateCall)
  | makeMemoryRegistry (name : String)
  | openRegistry (name path : String)
  | registry (name : String) (c : RegistryCall)
  | lock (name : String) (c : LockStep)
  | node (name : String) (c : NodeCall)
  /-- The settings of the driver are JSON. -/
  | makeDriver (name registry : String) (here : Identity) (roster : List Member)
      (settings : String) (launches : List LaunchItem) (terminations : List TerminateItem)
      (cluster : Option (String × String × Option String))
  | driver (name : String) (c : DriverCall)

namespace World

/-! ## Files -/

/-- Carries out a call to the file tree. -/
def runFile (w : World) (c : FileCall) : World × Outcome :=
  let settled (r : Files.Tree × Except Files.Fault Unit) : World × Outcome :=
    ({ w with files := r.1 }, match r.2 with
      | .ok () => .done
      | .error f => .fileFault f)
  let changed (r : Except Files.Fault Files.Tree) : World × Outcome :=
    match r with
    | .ok files => ({ w with files := files }, .done)
    | .error f => (w, .fileFault f)
  match c with
  | .write path bytes written =>
    match w.files.makeDirectories ((Path.parent? path).getD "") with
    | (files, .error f) => ({ w with files := files }, .fileFault f)
    | (files, .ok ()) =>
      match files.write path bytes with
      | (files, .error f) => ({ w with files := files }, .fileFault f)
      | (files, .ok id) => ({ w with files := files.setWritten id (written * 1000000000) }, .done)
  | .makeDirectories path => settled (w.files.makeDirectories path)
  | .makeLink path target => changed (w.files.makeLink path target)
  | .remove path => changed (w.files.remove path)
  | .read path =>
    match w.files.read path with
    | .error f => (w, .fileFault f)
    | .ok (bytes, _) =>
      match Text.Utf8.decode? bytes with
      | some s => (w, .text s)
      | none => (w, .bytes bytes)
  | .kind path => (w, .kind (w.files.kind path))
  | .prepareParent path => settled (w.files.prepareParent path)
  | .append path text =>
    match w.files.openForAppend path with
    | (files, .error f) => ({ w with files := files }, .fileFault f)
    | (files, .ok id) => ({ w with files := files.extend id (Text.Utf8.encode text) }, .done)
  | .withExtension dir ext =>
    match w.files.withExtension dir ext with
    | .error f => (w, .fileFault f)
    | .ok found => (w, .texts (found.map (·.1)))
  | .contains path needles =>
    match w.files.contains path needles with
    | .error f => (w, .fileFault f)
    | .ok found => (w, .flag found)

/-! ## Gates -/

def addGate (w : World) (name : String) : World :=
  { w with gates := w.gates.push .pending, gateNames := w.gateNames.insert name w.gates.size }

/-! ## Registries -/

def addRegistry (w : World) (name : String) (store : RegistryStore) : World :=
  { w with
    registries := w.registries.push { store := store }
    registryNames := w.registryNames.insert name w.registries.size }

/-- A registry procedure as a dialogue that comes to an outcome. -/
def registryDialogue {α : Type} (p : Registry.Procedure α) (f : α → Outcome) :
    RegistryDialogue := do
  match ← p.run with
  | .ok a => return f a
  | .error e => return .failed (.registry e)

/-- How many of `n` callers are told that they are first; a call that fails is not. -/
def raceDialogue (key : String) : Nat → Nat → RegistryDialogue
  | 0, winners => return .number winners
  | n + 1, winners => do
    match ← (Registry.isFirstWriter key).run with
    | .ok true => raceDialogue key n (winners + 1)
    | _ => raceDialogue key n winners

def textOutcome : Option String → Outcome
  | some s => .text s
  | none => .absent

/-! ## Drivers -/

/-- A driver's procedure as a dialogue that comes to an outcome. -/
def driverDialogue {α : Type} (p : Failover.Procedure α) (f : α → Outcome) : DriverDialogue := do
  match ← p.run with
  | .ok a => return f a
  | .error e => return .failed e

def labelOutcome : Option Member → Outcome
  | some m => .text m.identity.label
  | none => .absent

def memberOf? (d : Failover.Driver) (label : String) : Option Member :=
  d.roster.find? (·.identity.label == label)

/-- Groups of hook calls that begin at each termination and at the start. -/
def hookGroups : List HookCall → List (List HookCall)
  | [] => []
  | c :: calls =>
    match hookGroups calls with
    | [] => [[c]]
    | group :: groups =>
      match group.head? with
      | some (.terminate ..) => [c] :: group :: groups
      | _ => (c :: group) :: groups

/-- The calls group by group, the groups in the order of their JSON text. -/
def sortHookCalls (calls : List HookCall) : List HookCall :=
  let text (g : List HookCall) : String :=
    String.ofList ('[' :: List.intercalate [','] (g.map HookCall.json) ++ [']'])
  ((hookGroups calls).mergeSort fun a b => text a ≤ text b).flatten

/-- The dialogue of a driver call; none if the call is answered at once. -/
def dialogueOf (d : Failover.Driver) : DriverCall → Option DriverDialogue
  | .roster => none
  | .hookCalls => none
  | .select n role => some (driverDialogue (d.selectVictims n role) .members)
  | .killAndRestart label =>
    (memberOf? d label).map fun m => driverDialogue (d.killAndRestart m) fun () => .done
  | .cycle target => some (driverDialogue (d.cycle target) .cycle)
  | .refresh role =>
    some (driverDialogue (d.refreshRecord role) fun
      | some r => .record r
      | none => .absent)
  | .waitNew previous fragment timeout =>
    let previous := (previous.bind (memberOf? d)).map fun m =>
      { m with fragment := fragment.getD m.fragment }
    some (driverDialogue (d.waitForNewPrimary previous timeout) labelOutcome)
  | .startRole role args => some (driverDialogue (Failover.Driver.startRoleOnce role args) .flag)
  | .stopRole label =>
    (memberOf? d label).map fun m => driverDialogue (Failover.Driver.stopRole m) fun () => .done
  | .currentPrimary role =>
    some (driverDialogue (Failover.currentPrimary d.roster role) labelOutcome)
  | .primaryFromLogs role =>
    some (driverDialogue (Failover.primaryFromLogs d.roster role) labelOutcome)

/-! ## Steps -/

/-- The call of step `i` is answered at once. -/
def answer (w : World) (i : Nat) (r : Outcome) : World :=
  { w with ended := w.ended ++ [(i, r, 0)] }

/-- A name that stands for nothing breaks the call. -/
def unknown (w : World) (i : Nat) : World := w.answer i .broken

def runGate (w : World) (i : Nat) (name : String) (c : GateCall) : World :=
  match c, w.gateNames.get? name with
  | .make, _ => (w.addGate name).answer i .done
  | _, none => w.unknown i
  | c, some id =>
    let g := w.gates.getD id .pending
    let settle (r : Bool × Election.Gate) :=
      ({ w with gates := w.gates.setIfInBounds id r.2 }).answer i (.flag r.1)
    match c with
    | .make => w
    | .release => settle g.release
    | .close => settle g.close
    | .status => w.answer i (.gate g)
    | .await => w.spawn (some i) (.gate id)

def runRegistry (w : World) (i : Nat) (name : String) (c : RegistryCall) : World :=
  match w.registryNames.get? name with
  | none => w.unknown i
  | some id =>
    let run {α : Type} (p : Registry.Procedure α) (f : α → Outcome) : World :=
      w.spawn (some i) (.registry id (registryDialogue p f))
    match c with
    | .put key value => run (Registry.call (.put key value)) fun () => .done
    | .putAgo key ago =>
      let value := toString (w.timeOfDay - ago)
      let w := { w with agos := (value, ago) :: w.agos }
      w.spawn (some i)
        (.registry id (registryDialogue (Registry.call (.put key value)) fun () => .done))
    | .get key => run (Registry.call (.get key)) textOutcome
    | .increment key => run (Registry.call (.increment key)) .number
    | .zero key => run (Registry.call (.zero key)) fun () => .done
    | .isFirstWriter key => run (Registry.isFirstWriter key) .flag
    | .race key n => w.spawn (some i) (.registry id (raceDialogue key n 0))
    | .getInt64 key => run (Registry.getInt64 key) fun
      | some n => .number n
      | none => .absent
    | .publish host port =>
      run (Registry.PrimaryRecord.publish ⟨host, port⟩) fun () => .done
    | .load => run Registry.PrimaryRecord.load fun
      | some r => .record r
      | none => .absent
    | .entries =>
      match w.store? id with
      | some (.memory c) => w.answer i (.pairs c.entries)
      | some (.file path) =>
        let r := w.runFile (.read path)
        r.1.answer i r.2
      | none => w.unknown i
    | .counter key =>
      match w.store? id with
      | some (.memory c) => w.answer i (.number (c.counter key))
      | _ => w.unknown i
    | .path =>
      match w.store? id with
      | some (.file path) => w.answer i (.text path)
      | _ => w.unknown i
    | .fault f =>
      (w.setRegistry id fun cell => { cell with faults := cell.faults ++ [f] }).answer i .done
    | .resume =>
      (w.setRegistry id fun cell => { cell with resumed := cell.resumed + 1 }).answer i .done

/-- Takes the name of a lock away. -/
def dropLock (w : World) (name : String) : World :=
  match w.lockNames.get? name with
  | some id =>
    { w.setLock id fun cell => { cell with named := false } with
      lockNames := w.lockNames.erase name }
  | none => w

def addLock (w : World) (name : String) (service : LockService) : World :=
  let w := w.dropLock name
  { w with
    locks := w.locks.push { service := service }
    lockNames := w.lockNames.insert name w.locks.size }

/-- A lock call with the owner that its text means. -/
def resolveCall (w : World) : Lock.Call → Lock.Call
  | .connect address => .connect address
  | .tryLock owner => .tryLock (w.ownerOf owner)
  | .lock owner => .lock (w.ownerOf owner)
  | .unlock owner => .unlock (w.ownerOf owner)

def runLock (w : World) (i : Nat) (name : String) (c : LockStep) : World :=
  match c, w.lockNames.get? name with
  | .makeMemory reachable, _ =>
    (w.addLock name (.memory (if reachable then .fresh else .unreachable))).answer i .done
  | .makeFile poll, _ => (w.addLock name (.file .fresh poll)).answer i .done
  | _, none => w.unknown i
  | c, some id =>
    match c with
    | .makeMemory _ | .makeFile _ => w
    | .call c => w.spawn (some i) (.lock id (w.resolveCall c))
    | .evict owner =>
      let r := w.evict id (w.ownerOf owner)
      r.1.answer i (.flag r.2)
    | .path =>
      match w.service? id with
      | some (.file h _) =>
        w.answer i (match h.path with
          | some path => .text path
          | none => .absent)
      | _ => w.unknown i
    | .drop => (w.dropLock name).answer i .done
    | .calls =>
      match w.locks[id]? with
      | some cell =>
        let shown := cell.calls.map fun c =>
          (c.1, if c.1 = .connect then c.2 else w.showOwner c.2)
        (w.setLock id fun cell => { cell with calls := [] }).answer i (.calls shown)
      | none => w.unknown i
    | .script kind items =>
      (w.setLock id fun cell =>
        { cell with script := cell.script ++ items.map fun item => (kind, item) }).answer i .done

def runNode (w : World) (i : Nat) (name : String) (c : NodeCall) : World :=
  match c, w.nodeNames.get? name with
  | .make identity port nodeDir lock registry, _ =>
    match w.lockNames.get? lock, w.registryNames.get? registry with
    | some l, some r => (w.makeNode name identity port nodeDir l r).1.answer i .done
    | _, _ => w.unknown i
  | _, none => w.unknown i
  | c, some id =>
    match w.elector? id with
    | none => w.unknown i
    | some e =>
      match c with
      | .make .. => w
      | .start coordinator blocking =>
        let settings : Settings.Election := { coordinatorAddress := coordinator }
        match Election.StartPoint.enter settings.coordinator blocking with
        | .ok p => w.spawn (some i) (.elector id (.start p))
        | .error err => w.answer i (.failed err)
      | .stop => w.spawn (some i) (.elector id (.stop .request))
      | .await => w.spawn (some i) (.elector id (.await .check))
      | .notify callback => w.spawn (some i) (.elector id (.notify (.register callback)))
      | .drop => (w.dropNode name).answer i .done
      | .owner =>
        let session := (e.owner.toList.reverse.takeWhile (· != '#')).reverse
        let token := e.owner.toList.take (e.owner.length - session.length - 1)
        w.answer i (.owner (String.ofList token) session.length
          (session.all fun c => c.isAlphanum || c == '_' || c == '-'))
      | .identity => w.answer i (.identity e.identity)
      | .waiterFailure =>
        w.answer i (match e.waiterFailure with
          | some reason => .text reason
          | none => .absent)

def runDriver (w : World) (i : Nat) (name : String) (c : DriverCall) : World :=
  match w.driverNames.get? name with
  | none => w.unknown i
  | some id =>
    match w.drivers[id]? with
    | none => w.unknown i
    | some cell =>
      match c with
      | .roster => w.answer i (.texts (cell.driver.roster.map (·.identity.label)))
      | .hookCalls =>
        (w.setDriver id fun cell => { cell with hookCalls := [] }).answer i
          (.hooks (sortHookCalls cell.hookCalls))
      | c =>
        match dialogueOf cell.driver c with
        | some d => w.spawn (some i) (.failover id d none)
        | none => w.unknown i

/-- Makes the call of step `i`. -/
def run (w : World) (i : Nat) : Command → World
  | .advance duration => (w.pass duration).answer i .done
  | .cancel step => (w.breakOffStep step).answer i (.flag (w.taskOfStep? step).isSome)
  | .file c =>
    let r := w.runFile c
    r.1.answer i r.2
  | .gate name c => w.runGate i name c
  | .makeMemoryRegistry name => (w.addRegistry name (.memory .empty)).answer i .done
  | .openRegistry name path =>
    match w.files.prepareParent path with
    | (files, .ok ()) => (({ w with files := files }).addRegistry name (.file path)).answer i .done
    | (files, .error f) => ({ w with files := files }).answer i (.failed (.registry (.file f)))
  | .registry name c => w.runRegistry i name c
  | .lock name c => w.runLock i name c
  | .node name c => w.runNode i name c
  | .makeDriver name registry here roster settings launches terminations cluster =>
    match Settings.Failover.ofJson settings, w.registryNames.get? registry with
    | .error f, _ => w.answer i (.badJson f)
    | _, none => w.unknown i
    | .ok s, some r =>
      let cluster := cluster.bind fun c =>
        match w.lockNames.get? c.1, w.registryNames.get? c.2.1 with
        | some l, some r => some { lock := l, registry := r, coordinator := c.2.2 }
        | _, _ => none
      ({ w with
          drivers := w.drivers.push
            { driver := ⟨here, roster, s⟩, registry := r, launches := launches,
              terminations := terminations, cluster := cluster }
          driverNames := w.driverNames.insert name w.drivers.size }).answer i .done
  | .driver name c => w.runDriver i name c

/-! ## Reports -/

/-- An outcome as reports show it. -/
def showOutcome (w : World) : Outcome → Outcome
  | .failed e => .failed (w.showError e)
  | .text s => .text (w.showText s)
  | .pairs ps => .pairs (ps.map fun p => (p.1, w.showText p.2))
  | .number n =>
    -- a number read from an entry may be a time of day too
    let s := toString n
    if w.showText s == s then .number n else .text (w.showText s)
  | r => r

/-- What is told after step `i`. -/
def report (w : World) (i : Nat) : Report where
  result := (w.ended.find? (·.1 == i)).map fun e => w.showOutcome e.2.1
  ended := ((w.ended.filter (·.1 != i)).mergeSort fun a b => a.1 ≤ b.1).map fun e =>
    (e.1, w.showOutcome e.2.1, e.2.2)
  nodes := w.nodeNames.filterMap fun n => (w.elector? n.2).map fun e => (n.1, e.status)
  holders := w.lockNames.filterMap fun n =>
    match w.service? n.2 with
    | some (.memory m) => some (n.1, m.holder.map w.showOwner)
    | _ => none
  fired := w.events.filterMap fun e =>
    match e.2 with
    | .fired callback => some (callback, e.1.text)
    | _ => none
  markers := w.events.filterMap fun e =>
    if e.2.isMarker then (e.2.line? e.1).map (·.2) else none

/-- Carries out step `i`. -/
def perform (w : World) (i : Nat) (c : Command) : World × Report :=
  let w := { w with ended := [], events := [] }
  let w := (settle maxSteps ((w.run i c).tidy)).pass 1
  (w, w.report i)

/-- Carries out steps from number `i` on. -/
def performAll (w : World) (i : Nat) : List Command → List Report
  | [] => []
  | c :: cs =>
    let (w, r) := w.perform i c
    r :: performAll w (i + 1) cs

end World

/-- Carries out a scripted run in an empty working directory. -/
def runScript (timeOfDay : Int) (commands : List Command) : List Report :=
  World.performAll
    { now := 0, timeOfDay := timeOfDay, files := .blank (timeOfDay * 1000000) } 0 commands

end Primacy.Scenario
