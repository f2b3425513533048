/-
  Primacy.Member

  Entries of a cluster's roster: a node, where it keeps its logs, where it can be reached, and how
  it is started again.
-/
import Primacy.Identity

namespace Primacy

structure Member where
  identity : Identity
  /-- Holds the log files; names the node to whoever stops it. -/
  nodeDir : String
  port : Nat
  /-- The line that configures the node when it is started again. -/
  fragment : String
  /-- What a start of the node is given. -/
  args : List String
  deriving DecidableEq, Inhabited

namespace Member

/-- A member with the usual fragment and start arguments. -/
def ofIdentity (identity : Identity) (nodeDir : String) (port : Nat) : Member where
  identity := identity
  nodeDir := nodeDir
  port := port
  fragment := s!"{identity.host} -dir={nodeDir} -client-port={port}"
  args := ["start"]

def role (m : Member) : String := m.identity.role

/-- The member is reached at this endpoint. -/
def isAt (m : Member) (host : String) (port : Nat) : Bool :=
  m.identity.host == host && m.port == port

end Member

end Primacy
