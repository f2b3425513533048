/-
  Primacy.LeadNode.Program

  What a lead node does from its start to its end: it starts an elector, serves when it is primary,
  and stops when a signal comes.
-/
import Primacy.Election.Activity
import Primacy.LeadNode.Line
import Primacy.Path

namespace Primacy.LeadNode

inductive Point where
  /-- The elector starts; a signal ends the process at once. -/
  | starting
  /-- The node waits to become primary, or for a signal. -/
  | watching
  /-- The node is done waiting, and goes on until a signal comes. -/
  | serving
  | stopping
  | ended (r : Except Error Unit)

/-- The signals that end a node. -/
inductive Signal where
  | interrupt
  | terminate
  deriving DecidableEq

def Signal.name : Signal → String
  | .interrupt => "SIGINT"
  | .terminate => "SIGTERM"

/-- The node ends with an error. -/
def fails (e : Error) : Point × List Line := (.ended (.error e), [.error "lead node stops"])

/-- The node cannot write its log. -/
def noLog (path : String) (f : Files.Fault) : Error :=
  .fatal s!"cannot open log file {path}: {f.message}"

/-- The directory that a path lies in cannot be made. -/
def noDirectoryOf (path : String) : Line := .noDirectory ((Path.parent? path).getD "")

/-- The start of the elector has come to an end. -/
def onStarted (i : Identity) : Election.StartResult → Point × List Line
  | .ok state =>
    (.watching,
      [.info s!"{i.text} started in {state.text}",
       .info "Application started. Waiting for CTRL+C signal..."])
  | .error e => fails e

/-- The wait for becoming primary has come to an end. -/
def onAwaited (state : Election.State) : Point × List Line :=
  (.serving, if state.isPrimary then [.info "serving as primary lead"] else [])

/-- A signal has come. -/
def onSignal (s : Signal) : Point × List Line :=
  (.stopping, [.info s!"{s.name} detected.", .info "Shutdown lead node.."])

/-- The elector has stopped. -/
def onStopped : Election.StopResult → Point × List Line
  | .ok () => (.ended (.ok ()), [.info "Shutdown completed"])
  | .error e => fails e

end Primacy.LeadNode
