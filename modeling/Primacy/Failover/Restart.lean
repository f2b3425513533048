/-
  Primacy.Failover.Restart

  Bringing single nodes down and up again, and starting a role once.
-/
import Primacy.Failover.Selection

namespace Primacy.Failover.Driver

/-- Starts a node; an exit code other than zero is a failure. -/
def launch (role : String) (args : List String) : Procedure Unit := do
  let code ← orThrow (← ask (.launch role args))
  if code ≠ 0 then throw (.failover (.launchFailed role code))

/-- The file that holds the configuration line of the nodes of a role. -/
def fragmentPath (d : Driver) (role : String) : String :=
  Path.join d.settings.confDir (role ++ "s")

/-- Writes the configuration line of a node for its next start. -/
def writeFragment (d : Driver) (m : Member) : Procedure Unit := do
  let path := d.fragmentPath m.role
  match ← ask (.writeLine d.settings.confDir path (m.fragment ++ "\n")) with
  | .ok () => return
  | .error fault => throw (.failover (.file path fault))

/-- Stops a node, writes its configuration line if the settings ask for it, and starts it. -/
def killAndRestart (d : Driver) (m : Member) : Procedure Unit := do
  orThrow (← ask (.terminate m.role m.nodeDir))
  if d.settings.regenerateConfig then d.writeFragment m
  launch m.role m.args

/-- Does so with one node after the other. -/
def killAndRestartAll (d : Driver) : List Member → Procedure Unit
  | [] => return
  | m :: members => do
    d.killAndRestart m
    d.killAndRestartAll members

/-- Starts a role unless another client did; says whether it started it. -/
def startRoleOnce (role : String) (args : List String) : Procedure Bool := do
  if ← registry (Registry.isFirstWriter (Registry.startedCounter role)) then
    launch role args
    return true
  else return false

/-- Stops a node and lets its role be started again. -/
def stopRole (m : Member) : Procedure Unit := do
  orThrow (← ask (.terminate m.role m.nodeDir))
  registry (Registry.call (.zero (Registry.startedCounter m.role)))

end Primacy.Failover.Driver
