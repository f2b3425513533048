/-
  Primacy.Election.State

  The life of a lead node.  A node starts, may stand by, runs as primary and is stopped; a primary
  is never demoted.
-/

namespace Primacy.Election

inductive State where
  | uninitialized
  | standby
  /-- The node is primary. -/
  | running
  | stopped
  deriving DecidableEq, Inhabited

namespace State

def text : State → String
  | .uninitialized => "UNINITIALIZED"
  | .standby => "STANDBY"
  | .running => "RUNNING"
  | .stopped => "STOPPED"

def all : List State := [.uninitialized, .standby, .running, .stopped]

def ofText? (s : String) : Option State := all.find? (·.text == s)

def isPrimary (s : State) : Bool := s == .running

/-- The moves that starting and promotion may make.  Stopping may end any state and is not among
them. -/
def canBecome : State → State → Bool
  | .uninitialized, .standby => true
  | .uninitialized, .running => true
  | .standby, .running => true
  | _, _ => false

end State

end Primacy.Election
