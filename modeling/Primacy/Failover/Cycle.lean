/-
  Primacy.Failover.Cycle

  A cycle brings nodes of one kind down and up again.  A counter in the registry lets one client at
  a time do it, and cycles keep a distance in time.
-/
import Primacy.Clock
import Primacy.Failover.Restart

namespace Primacy.Failover.Driver

/-- The time since the last cycle that the registry tells of allows for another one; waits for the
grace period if there was one and its time is not known. -/
def mayCycle (d : Driver) (t : Target) : Procedure Bool := do
  match ← registry (Registry.call (.get t.cycledKey)) with
  | none => return true
  | some _ =>
    match ← registry (Registry.getInt64 t.cycledTimeKey) with
    | none =>
      ask (.sleep d.settings.graceMillis)
      return true
    | some last =>
      match Clock.elapsed? (← ask .clock) last with
      | some elapsed => return d.settings.minCycleMillis ≤ elapsed
      | none => nomatch ← ask .breakDown

/-- The part of a cycle that one client at a time is in. -/
def cycleInside (d : Driver) (t : Target) : Procedure CycleOutcome := do
  if ← d.mayCycle t then
    let victims ← d.selectVictims (t.count d.settings) (t.role d.settings)
    d.killAndRestartAll victims
    if victims.isEmpty then return .noVictims
    let finished ← ask .clock
    registry (Registry.call (.put t.cycledTimeKey (toString finished)))
    registry (Registry.call (.put t.cycledKey "true"))
    return .cycled victims
  else return .rateLimited

/-- One cycle.  The next client may try as soon as it is over, however it ends. -/
def cycle (d : Driver) (t : Target) : Procedure CycleOutcome := do
  if !d.settings.cycleNodes then return .disabled
  if ← registry (Registry.isFirstWriter t.gateCounter) then
    let outcome ← ExceptT.lift (d.cycleInside t).run
    let reopened ← ExceptT.lift (registry (Registry.call (.zero t.gateCounter))).run
    match outcome, reopened with
    | .ok _, .error e => throw e
    | outcome, _ => orThrow outcome
  else return .notMyTurn

end Primacy.Failover.Driver
