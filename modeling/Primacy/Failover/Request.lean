/-
  Primacy.Failover.Request

  What a failover driver asks of its surroundings: the registry, the logs of nodes, the hooks that
  stop and start nodes, the disk, the clock and chance.
-/
import Primacy.Failover.Target
import Primacy.Member
import Primacy.Registry.Request
import Primacy.Text.Utf8

namespace Primacy.Failover

open Files (Fault)
open Text.Utf8 (Bytes)

/-- A log file: its path, and its bytes and the time of its last change, if it can be read. -/
structure LogFile where
  path : String
  content : Except Fault (Bytes × Int)

/-- The log files of one node, in the order of their paths. -/
abbrev NodeLogs := Except Fault (List LogFile)

inductive Request where
  | registry (q : Registry.Request)
  | logs (nodeDir : String)
  /-- Stops the node that works in `nodeDir`. -/
  | terminate (role nodeDir : String)
  /-- Starts a node; answers the exit code of the hook. -/
  | launch (role : String) (args : List String)
  /-- Makes a line the content of a file, and its directory if need be. -/
  | writeLine (dir path line : String)
  /-- Waits, in milliseconds. -/
  | sleep (duration : Nat)
  /-- The time since some moment in the past, in milliseconds. -/
  | stopwatch
  /-- The time of day, in milliseconds of the epoch. -/
  | clock
  /-- A number below `bound`. -/
  | draw (bound : Nat)
  /-- The procedure breaks down here; there is no answer. -/
  | breakDown

/-- What a request is answered with. -/
@[reducible] def Request.Reply : Request → Type
  | .registry q => q.Reply
  | .logs _ => NodeLogs
  | .terminate .. => Except Error Unit
  | .launch .. => Except Error Int
  | .writeLine .. => Except Fault Unit
  | .sleep _ => Unit
  | .stopwatch => Nat
  | .clock => Int
  | .draw _ => Nat
  | .breakDown => Empty

/-- A procedure of a driver; it ends at the first error that it does not expect. -/
abbrev Procedure (α : Type) : Type := ExceptT Error (Dialogue Request Request.Reply) α

variable {α : Type}

/-- The procedure of one request that always succeeds. -/
def ask (q : Request) : Procedure q.Reply := ExceptT.lift (Dialogue.request q)

/-- A registry procedure as part of a driver's. -/
def registry (p : Registry.Procedure α) : Procedure α := do
  match ← ExceptT.lift (Dialogue.embed Request.registry (fun _ r => r) p.run) with
  | .ok a => return a
  | .error e => throw (Error.registry e)

/-- Goes on with the answer of a request that may fail. -/
def orThrow (r : Except Error α) : Procedure α := ExceptT.mk (.done r)

end Primacy.Failover
