/-
  Primacy.Failover.Target

  The two kinds of nodes that a driver brings down, and the registry names that belong to each.
-/
import Primacy.Member
import Primacy.Registry.Key
import Primacy.Settings.Failover

namespace Primacy.Failover

inductive Target where
  | lead
  | store
  deriving DecidableEq, Inhabited

namespace Target

/-- The counter that lets one client at a time bring nodes of this kind down. -/
def gateCounter : Target → String
  | lead => Registry.leadGateCounter
  | store => Registry.storeGateCounter

/-- The entry that tells when nodes of this kind were last brought down. -/
def cycledTimeKey : Target → String
  | lead => Registry.leadCycledTimeKey
  | store => Registry.storeCycledTimeKey

/-- The entry that tells that nodes of this kind were brought down before. -/
def cycledKey : Target → String
  | lead => Registry.leadCycledKey
  | store => Registry.storeCycledKey

/-- The role of the nodes. -/
def role (s : Settings.Failover) : Target → String
  | lead => s.leadTarget
  | store => s.storeTarget

/-- How many nodes to bring down. -/
def count (s : Settings.Failover) : Target → Nat
  | lead => s.leadsToStop
  | store => s.storesToStop

end Target

/-- Result of one cycle. -/
inductive CycleOutcome where
  /-- The settings do not allow cycles. -/
  | disabled
  /-- Another client is at it. -/
  | notMyTurn
  /-- The last cycle was too short a time ago. -/
  | rateLimited
  /-- No node may be brought down. -/
  | noVictims
  | cycled (victims : List Member)

end Primacy.Failover
