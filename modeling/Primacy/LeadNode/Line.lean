/-
  Primacy.LeadNode.Line

  The log of a lead node: lines of a severity, and which severities are written.
-/
import Primacy.Election.Event
import Primacy.Settings.Environment

namespace Primacy.LeadNode

open Election (Severity)

structure Line where
  severity : Severity
  text : String
  deriving DecidableEq

def Line.info (text : String) : Line := ⟨.info, text⟩

def Line.error (text : String) : Line := ⟨.error, text⟩

/-- The name of a severity in a log. -/
def severityName : Severity → String
  | .error => "ERROR"
  | .warning => "WARN"
  | .info => "INFO"

/-- The line of an elector's event.  The callback that the node registers tells that it is
primary. -/
def Line.ofEvent? (i : Identity) (ev : Election.Event) : Option Line :=
  match ev with
  | .fired _ => some (.info s!"{i.text} is now the primary lead")
  | ev => (ev.line? i).map fun l => ⟨l.1, l.2⟩

/-! ## Quoted paths -/

/-- A character inside a quoted path. -/
def quotedChar (c : Char) : List Char :=
  if c = '"' then ['\\', '"']
  else if c = '\\' then ['\\', '\\']
  else if c = '\n' then ['\\', 'n']
  else if c = '\r' then ['\\', 'r']
  else if c = '\t' then ['\\', 't']
  else if c = '\x00' then ['\\', '0']
  else if c.toNat < 0x20 ∨ (0x7F ≤ c.toNat ∧ c.toNat < 0xA0) then
    ['\\', 'u', '\x7b'] ++ Nat.toDigits 16 c.toNat ++ ['\x7d']
  else [c]

/-- The line that tells that a directory could not be made. -/
def Line.noDirectory (path : String) : Line :=
  .error ("Failed to create directory \"" ++ String.ofList (path.toList.flatMap quotedChar) ++ "\"")

/-! ## Severities -/

/-- The detail of a log that shows lines of a severity. -/
def detail : Severity → Nat
  | .error => 1
  | .warning => 2
  | .info => 3

/-- The detail that a word asks for. -/
def detailOf? (word : String) : Option Nat :=
  match Text.lowercased word with
  | "off" | "0" => some 0
  | "error" | "1" => some 1
  | "warn" | "2" => some 2
  | "info" | "3" | "debug" | "4" | "trace" | "5" => some 3
  | _ => none

/-- The variable that sets how much the log tells. -/
def detailVariable : String := "RUST_LOG"

/-- How much the log tells under an environment: up to what the variable says, else all. -/
def detailIn (env : Settings.Environment) : Nat :=
  match env.get? detailVariable with
  | some "" => 1
  | some word => (detailOf? (Text.trimmed word)).getD 3
  | none => 3

end Primacy.LeadNode
