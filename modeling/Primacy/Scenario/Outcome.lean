/-
  Primacy.Scenario.Outcome

  What the calls of a scripted run come to, and what is told after each of its steps.
-/
import Primacy.Election.Gate
import Primacy.Files.Access
import Primacy.Text.Utf8
import Primacy.Failover.Target
import Primacy.Registry.Request

namespace Primacy.Scenario

/-- A call of a hook that stops or starts nodes. -/
inductive HookCall where
  | terminate (role nodeDir : String)
  | launch (role : String) (args : List String)
  deriving DecidableEq

/-- The call as compact JSON, which also puts groups of calls in order. -/
def HookCall.json : HookCall → List Char
  | terminate role dir =>
    "[\"terminate\",".toList ++ Json.quoted role ++ [','] ++ Json.quoted dir ++ [']']
  | launch role args =>
    "[\"launch\",".toList ++ Json.quoted role ++ ",[".toList ++
      List.intercalate [','] (args.map Json.quoted) ++ "]]".toList

/-- The kinds of lock calls. -/
inductive LockCallKind where
  | connect
  | tryLock
  | lock
  | unlock
  deriving DecidableEq

inductive Outcome where
  | done
  | cancelled
  /-- The call broke down. -/
  | broken
  | failed (e : Error)
  | fileFault (f : Files.Fault)
  | badJson (f : Json.Fault)
  | flag (b : Bool)
  | number (n : Int)
  | text (s : String)
  | bytes (bytes : Text.Utf8.Bytes)
  | absent
  | texts (ss : List String)
  | pairs (ps : List (String × String))
  | kind (k : Files.Tree.Kind)
  | state (s : Election.State)
  | gate (g : Election.Gate)
  | record (r : Registry.PrimaryRecord)
  | owner (token : String) (sessionLength : Nat) (isPlain : Bool)
  | identity (i : Identity)
  | calls (cs : List (LockCallKind × String))
  | cycle (c : Failover.CycleOutcome)
  | members (ms : List Member)
  | hooks (hs : List HookCall)

/-- What is told after one step. -/
structure Report where
  /-- The result of the step's call, none while it is pending. -/
  result : Option Outcome
  /-- Calls of earlier steps that ended: the step, the result, and the time they took. -/
  ended : List (Nat × Outcome × Nat)
  nodes : List (String × Election.State)
  /-- The holders of the locks in memory. -/
  holders : List (String × Option String)
  /-- The callbacks that were called, with the identity they were called for. -/
  fired : List (String × String)
  /-- The promotion markers that were logged. -/
  markers : List String

end Primacy.Scenario
