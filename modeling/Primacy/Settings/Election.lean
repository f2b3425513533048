/-
  Primacy.Settings.Election

  Where the lock service lives and how a node starts.
-/
import Primacy.Settings.Setting

namespace Primacy.Settings

structure Election where
  /-- Where the lock service is found. -/
  coordinatorAddress : Option String := none
  /-- A start waits for the lock instead of standing by. -/
  blockingStart : Bool := false
  /-- How often a lock is looked at that has no way to wake those who wait, in milliseconds. -/
  lockPollInterval : Nat := 100
  /-- The registry file; without one the registry stays in memory. -/
  registryPath : Option String := none
  deriving DecidableEq, Inhabited

namespace Election

def settings : List (Setting Election) :=
  [.of "coordinator_address" (.optional .text) (·.coordinatorAddress)
     fun a s => { s with coordinatorAddress := a },
   .of "blocking_start" .flag (·.blockingStart) fun a s => { s with blockingStart := a },
   .of "lock_poll_interval_ms" (.natural Text.nat64Max) (·.lockPollInterval)
     fun a s => { s with lockPollInterval := a },
   .of "registry_path" (.optional .text) (·.registryPath) fun a s => { s with registryPath := a }]

def validate (s : Election) : Except Error Unit :=
  if s.lockPollInterval = 0 then
    .error (.invalidSettings "election.lock_poll_interval_ms must be greater than 0")
  else .ok ()

/-- The coordinator address without blanks around it; a blank one counts as none. -/
def coordinator (s : Election) : Except Error String :=
  match (s.coordinatorAddress.map Text.trimmed).filter (· ≠ "") with
  | some address => .ok address
  | none =>
    .error (.invalidSettings "election.coordinator_address is required to start the lead elector")

end Election

end Primacy.Settings
