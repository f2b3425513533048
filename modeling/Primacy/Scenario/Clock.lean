/-
  Primacy.Scenario.Clock

  Who works next.  Tasks that can work do so one after the other, until all of them wait; only then
  does virtual time move, to the next moment at which one of them wakes.
-/
import Primacy.Scenario.Work

namespace Primacy.Scenario.World

/-! ## Waking -/

/-- What a task's request waits for has come. -/
def phaseIsOver (w : World) (t : TaskId) : Phase → Bool
  | .fresh => false
  | .due => true
  | .granted => true
  | .enrolled id =>
    match w.service? id with
    | some (.memory m) => !m.waiting.contains t
    | _ => true
  | .sleeping till => till ≤ w.now
  | .held id seen =>
    match w.registries[id]? with
    | some cell => seen < cell.resumed
    | none => true
  | .disk => w.diskIsDone t
  | .hung => false

/-- An activity can take a step of its own. -/
def activityIsReady (w : World) (t : TaskId) (id : Nat) (a : Election.Activity) : Bool :=
  match w.elector? id with
  | some e => a.isReady e t
  | none => false

/-- A task that waited can go on. -/
def canGoOn (w : World) (t : TaskId) : Bool :=
  match w.task? t with
  | none => false
  | some k =>
    match k.work with
    | .ended => false
    | .elector id a => w.activityIsReady t id a || w.phaseIsOver t k.phase
    | .gate id =>
      match w.gates[id]? with
      | some g => g.isSettled
      | none => false
    | .lock .. => w.phaseIsOver t k.phase
    | .registry .. => w.phaseIsOver t k.phase
    | .failover _ _ (some (.starting id a _)) =>
      w.activityIsReady t id a || w.phaseIsOver t k.phase
    | .failover .. => w.phaseIsOver t k.phase

/-- Queues the tasks that waited and can go on. -/
def wake (w : World) : World :=
  let ready := w.waiting.filter w.canGoOn
  if ready.isEmpty then w
  else { w with waiting := w.waiting.filter (!ready.contains ·), queue := w.queue ++ ready }

/-! ## What nobody uses -/

/-- The task keeps an elector from being dropped; the waiter alone does not. -/
def keepsElector (k : Task) (id : Nat) : Bool :=
  match k.work with
  | .elector e a => e == id && a.isCall
  | .failover _ _ (some (.starting e _ _)) => e == id
  | _ => false

/-- Drops the electors that have no name and no call in progress. -/
def dropElectors (w : World) : World :=
  { w with electors := w.electors.mapIdx fun id cell =>
      if cell.named || cell.elector.shutdown || w.tasks.any (keepsElector · id) then cell
      else { cell with elector := cell.elector.drop } }

/-- The elector is still there, if only for its waiter. -/
def electorIsAlive (w : World) (id : Nat) (cell : ElectorCell) : Bool :=
  cell.named || w.tasks.any fun k =>
    keepsElector k id || match k.work with
      | .elector e _ => e == id
      | _ => false

/-- Somebody uses the handle of a lock. -/
def lockIsUsed (w : World) (id : Nat) (cell : LockCell) : Bool :=
  cell.named ||
    (List.range w.electors.size).any (fun e =>
      match w.electors[e]? with
      | some c => c.lock == id && w.electorIsAlive e c
      | none => false) ||
    w.tasks.any (fun k =>
      match k.work with
      | .lock l _ => l == id
      | _ => false) ||
    w.drivers.any fun d =>
      match d.cluster with
      | some c => c.lock == id
      | none => false

/-- Frees the lock files of handles that nobody uses. -/
def freeLocks (w : World) : World :=
  (List.range w.locks.size).foldl (fun w id =>
    match w.locks[id]? with
    | some cell =>
      match cell.service with
      | .file h poll =>
        if h.held.isSome && !w.lockIsUsed id cell then
          let freed : LockService := .file { h with held := none } poll
          { w.setLock id fun cell => { cell with service := freed } with
            locked := h.abandon w.locked }
        else w
      | _ => w
    | none => w) w

/-! ## Running -/

/-- Breaks a task off, with the given result. -/
def breakOff (w : World) (t : TaskId) (r : Outcome) : World :=
  match w.task? t with
  | none => w
  | some k =>
    let w := w.withdraw t
    let w := match k.work with
      | .elector id a =>
        w.setElector id fun cell => { cell with elector := a.abandon cell.elector t }
      | .failover _ _ (some (.starting id a _)) =>
        w.setElector id fun cell => { cell with elector := a.abandon cell.elector t }
      | _ => w
    w.finish t r

/-- The task at the call of a step, if it is not over. -/
def taskOfStep? (w : World) (step : Nat) : Option TaskId :=
  (List.range w.tasks.size).find? fun t =>
    match w.task? t with
    | some k => k.step == some step && (match k.work with | .ended => false | _ => true)
    | none => false

/-- Gives up the call of a step. -/
def breakOffStep (w : World) (step : Nat) : World :=
  match w.taskOfStep? step with
  | some t => w.breakOff t .cancelled
  | none => w

/-- Puts things in order after a step. -/
def tidy (w : World) : World := w.dropElectors.freeLocks.wake

/-- One step of the world at the present moment. -/
def step (w : World) : World :=
  match w.stack, w.queue, w.disk with
  | t :: _, _, _ =>
    match w.task? t with
    | none => { w with stack := w.stack.tail }
    | some k =>
      (match w.stepTask t k with
        | (w, .wait) => w.block t
        | (w, .broken) => w.breakOff t .broken
        | (w, _) => w).tidy
  | [], t :: queue, _ => { w with stack := [t], queue := queue }
  | [], [], _ :: disk => { w with disk := disk }.wake
  | [], [], [] => w

/-- Nothing can be done at the present moment. -/
def isIdle (w : World) : Bool := w.stack.isEmpty && w.queue.isEmpty && w.disk.isEmpty

/-- Steps until nothing can be done any more, at most `fuel` times. -/
def settle : Nat → World → World
  | 0, w => w
  | fuel + 1, w => if w.isIdle then w else settle fuel w.step

/-- The steps that one moment may take. -/
def maxSteps : Nat := 1000000

/-- The next moment at which a task wakes. -/
def nextWake? (w : World) : Option Nat :=
  w.waiting.foldl (fun next t =>
    match w.phase? t with
    | some (.sleeping till) => some (match next with
        | none => till
        | some n => min n till)
    | _ => next) none

/-- Lets time pass until `till`; `fuel` bounds the moments on the way. -/
def passUntil (till : Nat) : Nat → World → World
  | 0, w => { w with now := till }
  | fuel + 1, w =>
    match w.nextWake? with
    | some n =>
      if n ≤ till then passUntil till fuel (settle maxSteps { w with now := max n w.now }.wake)
      else { w with now := till }
    | none => { w with now := till }

/-- Lets `duration` milliseconds pass. -/
def pass (w : World) (duration : Nat) : World := passUntil (w.now + duration) (duration + 1) w

end Primacy.Scenario.World
