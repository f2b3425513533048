/-
  Primacy.Registry.Key

  Names of registry entries and counters.  The entries of a node carry its label and process id,
  so that each has one writer; the others are reserved names.
-/
import Primacy.Identity

namespace Primacy.Registry

/-- Where the primary is reached. -/
def primaryHostKey : String := "primaryLeadHost"

def primaryPortKey : String := "primaryLeadPort"

/-- When nodes of a kind were last brought down, in milliseconds of the epoch. -/
def storeCycledTimeKey : String := "lastCycledTime"

def leadCycledTimeKey : String := "lastCycledTimeForLead"

/-- Present once nodes of a kind were brought down. -/
def storeCycledKey : String := "storeVmCycled"

def leadCycledKey : String := "leadVmCycled"

/-- Counters that let one client at a time bring nodes of a kind down. -/
def storeGateCounter : String := "stopStartVms"

def leadGateCounter : String := "stopStartLeadVms"

/-! ## The entries of one node -/

def hostKey (i : Identity) : String := s!"{i.role}Host_{i.suffix}"

def portKey (i : Identity) : String := s!"{i.role}Port_{i.suffix}"

def logDirKey (i : Identity) : String := s!"logDir_{i.suffix}"

/-- Counts how often a role was started since it was last stopped. -/
def startedCounter (role : String) : String := s!"{role}sStarted"

end Primacy.Registry
