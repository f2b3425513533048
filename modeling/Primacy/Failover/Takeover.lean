/-
  Primacy.Failover.Takeover

  Watching for a new primary, and mending the primary record.
-/
import Primacy.Failover.Selection

namespace Primacy.Failover.Driver

/-- Finds the primary from the logs and publishes it. -/
def refreshRecord (d : Driver) (role : String) : Procedure (Option Registry.PrimaryRecord) := do
  match ← primaryFromLogs d.roster role with
  | none => return none
  | some m =>
    let record : Registry.PrimaryRecord := ⟨m.identity.host, m.port⟩
    registry record.publish
    return some record

/-- Asks for the primary until it is another than `previous` or the deadline is reached, at most
`polls` times. -/
def pollPrimary (d : Driver) (previous : Option Member) (deadline : Nat) :
    Nat → Procedure (Option Member)
  | 0 => return none
  | polls + 1 => do
    let primary ← currentPrimary d.roster d.settings.leadTarget
    if primary.isSome ∧ previous ≠ primary then return primary
    if deadline ≤ (← ask .stopwatch) then return none
    ask (.sleep d.settings.primaryPollInterval)
    d.pollPrimary previous deadline polls

/-- The number of polls that reach the end of a timeout. -/
def pollsWithin (timeout interval : Nat) : Nat := (timeout + interval - 1) / interval + 1

/-- The lead that becomes primary after `previous`, if one does within `timeout` milliseconds. -/
def waitForNewPrimary (d : Driver) (previous : Option Member) (timeout : Nat) :
    Procedure (Option Member) := do
  let start ← ask .stopwatch
  d.pollPrimary previous (start + timeout) (pollsWithin timeout d.settings.primaryPollInterval)

end Primacy.Failover.Driver
