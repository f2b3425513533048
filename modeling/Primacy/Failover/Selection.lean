/-
  Primacy.Failover.Selection

  Choosing which nodes to bring down: at random and without repetition, never the driver's own
  process, and of the leads only the one that is primary.
-/
import Primacy.Failover.Observation

namespace Primacy.Failover

/-- A driver: the process it runs in, the nodes it knows, and how it is to go about its work. -/
structure Driver where
  here : Identity
  roster : List Member
  settings : Settings.Failover

/-- `xs` without the element at place `i`; the last element moves into its place. -/
def swapRemove {α : Type} (xs : List α) (i : Nat) : List α :=
  match xs.getLast? with
  | none => []
  | some last => if i + 1 < xs.length then xs.dropLast.set i last else xs.dropLast

/-- Draws up to `n` members from a pool. -/
def drawFrom : Nat → List Member → Procedure (List Member)
  | n + 1, m :: pool => do
    let i := (← ask (.draw (pool.length + 1))) % (pool.length + 1)
    let rest ← drawFrom n (swapRemove (m :: pool) i)
    return (m :: pool).getD i m :: rest
  | _, _ => return []

namespace Driver

/-- Members of a role other than the driver's own process. -/
def others (d : Driver) (role : String) : List Member :=
  d.roster.filter fun m => m.role == role && !m.identity.sameProcess d.here

/-- Chooses up to `n` members of a role. -/
def selectVictims (d : Driver) (n : Nat) (role : String) : Procedure (List Member) := do
  let pool := d.others role
  if role = d.settings.leadTarget then
    let primary ← currentPrimary d.roster role
    drawFrom n (pool.filter fun m => decide (primary = some m))
  else drawFrom n pool

end Driver

end Primacy.Failover
