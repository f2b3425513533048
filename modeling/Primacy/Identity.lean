/-
  Primacy.Identity

  Who a node is.  An identity is fixed when a process starts; names derived from it tell its lock
  ownership and its registry entries from those of other processes.
-/
import Primacy.Json.Shape

namespace Primacy

structure Identity where
  host : String
  processId : Nat
  role : String
  label : String
  deriving DecidableEq, Inhabited

namespace Identity

/-- The greatest process id. -/
def maxProcessId : Nat := 4294967295

/-- The name under which the process competes for a lock. -/
def ownerToken (i : Identity) : String := s!"{i.role}@{i.host}:{i.processId}"

/-- What sets the registry entries of one process apart from those of others. -/
def suffix (i : Identity) : String := s!"{i.label}_{i.processId}"

/-- The identity as logs show it. -/
def text (i : Identity) : String := s!"{i.label}[{i.role}] {i.host}:{i.processId}"

/-- Both identities name one process, whatever role and label it goes by. -/
def sameProcess (i j : Identity) : Bool := i.host == j.host && i.processId == j.processId

/-- The identity as one line of JSON. -/
def json (i : Identity) : String :=
  String.ofList ("\x7b\"host\":".toList ++ Json.quoted i.host ++
    s!",\"process_id\":{i.processId},\"role\":".toList ++ Json.quoted i.role ++
    ",\"client_label\":".toList ++ Json.quoted i.label ++ ['\x7d'])

def fields : List (Json.Field Identity) :=
  [{ name := "host", required := true
     read := do let s ← Json.string; return fun i => { i with host := s } },
   { name := "process_id", required := true
     read := do let n ← Json.natural maxProcessId; return fun i => { i with processId := n } },
   { name := "role", required := true
     read := do let s ← Json.string; return fun i => { i with role := s } },
   { name := "client_label", required := true
     read := do let s ← Json.string; return fun i => { i with label := s } }]

/-- Reads an identity from JSON. -/
def ofJson (text : String) : Except Json.Fault Identity :=
  Json.read (Json.record fields default) text

end Identity

end Primacy
