/-
  Primacy.Settings.Node

  Who a node is and where it keeps its files.
-/
import Primacy.Identity
import Primacy.Path
import Primacy.Settings.Setting

namespace Primacy.Settings

structure Node where
  host : String := "127.0.0.1"
  label : String := "lead1"
  role : String := "lead"
  /-- The port that the primary record names. -/
  port : Nat := 8090
  /-- Holds the logs. -/
  nodeDir : String := "./lead"
  logFile : String := "lead.log"
  deriving DecidableEq, Inhabited

namespace Node

def settings : List (Setting Node) :=
  [.of "host" .text (·.host) fun a s => { s with host := a },
   .of "client_label" .text (·.label) fun a s => { s with label := a },
   .of "role" .text (·.role) fun a s => { s with role := a },
   .of "port" (.natural Text.nat16Max) (·.port) fun a s => { s with port := a },
   .of "node_dir" .text (·.nodeDir) fun a s => { s with nodeDir := a },
   .of "log_file" .text (·.logFile) fun a s => { s with logFile := a }]

def validate (s : Node) : Except Error Unit :=
  if Text.isBlankText s.host then .error (.invalidSettings "node.host cannot be empty")
  else if Text.isBlankText s.role then .error (.invalidSettings "node.role cannot be empty")
  else if s.port = 0 then .error (.invalidSettings "node.port must be non-zero")
  else if s.nodeDir.isEmpty then .error (.invalidSettings "node.node_dir cannot be empty")
  else if Text.isBlankText s.logFile then .error (.invalidSettings "node.log_file cannot be empty")
  else .ok ()

/-- The identity of process `processId` under these settings. -/
def identity (s : Node) (processId : Nat) : Identity := ⟨s.host, processId, s.role, s.label⟩

/-- The log file, below the node's directory unless its path is absolute; without a file name the
directory with a slash behind it. -/
def logPath (s : Node) : String :=
  if s.logFile.isEmpty && !s.nodeDir.isEmpty && s.nodeDir.toList.getLast? != some '/' then
    s.nodeDir ++ "/"
  else Path.join s.nodeDir s.logFile

end Node

end Primacy.Settings
