/-
  Primacy.Error

  What can go wrong, by the part of the system that it goes wrong in, and the text shown for it.
-/
import Primacy.Election.State
import Primacy.Files.Fault
import Primacy.Json.Fault

namespace Primacy

/-- Failures of a lock service. -/
inductive LockError where
  /-- The service was never connected or cannot be reached. -/
  | unavailable (reason : String)
  /-- An owner released a lock that it does not hold. -/
  | notHeld (owner : String)
  | file (path : String) (fault : Files.Fault)
  deriving DecidableEq

/-- Failures of a registry. -/
inductive RegistryError where
  | file (fault : Files.Fault)
  /-- The file holds something that is not a registry document. -/
  | corrupted (fault : Json.Fault)
  /-- An entry cannot be read as the type asked for. -/
  | invalidValue (key value : String)
  | failed (reason : String)
  /-- The operation broke off in the middle of its work: a counter is at its greatest value. -/
  | brokenOff
  deriving DecidableEq

/-- Failures of an election. -/
inductive ElectionError where
  | invalidTransition (before after : Election.State)
  | alreadyStarted (state : Election.State)
  | waiterFailed (reason : String)
  deriving DecidableEq

/-- Failures of a failover driver. -/
inductive FailoverError where
  | launchFailed (role : String) (exitCode : Int)
  | file (path : String) (fault : Files.Fault)
  deriving DecidableEq

/-- Failures of loading settings. -/
inductive SettingsError where
  /-- A value is not of the type of its setting; `key` is the path of the setting. -/
  | wrongType (key : Option String)
  /-- A file is not TOML. -/
  | fileSyntax
  /-- A file is missing, or of a kind that is not read. -/
  | fileUnusable
  /-- The settings as a whole do not fit together. -/
  | unsuitable
  deriving DecidableEq

inductive Error where
  | settings (e : SettingsError)
  /-- Settings were read, and one has a value that it must not have. -/
  | invalidSettings (reason : String)
  | lock (e : LockError)
  | registry (e : RegistryError)
  | election (e : ElectionError)
  | failover (e : FailoverError)
  | fatal (reason : String)
  deriving DecidableEq

instance : Coe LockError Error := ⟨.lock⟩
instance : Coe RegistryError Error := ⟨.registry⟩
instance : Coe ElectionError Error := ⟨.election⟩
instance : Coe FailoverError Error := ⟨.failover⟩
instance : Coe SettingsError Error := ⟨.settings⟩

/-! ## Texts -/

def LockError.message : LockError → String
  | .unavailable reason => s!"Lock service unavailable: {reason}"
  | .notHeld owner => s!"Lock is not held by {owner}"
  | .file path _ => s!"Lock file error at {path}"

def RegistryError.message : RegistryError → String
  | .file fault => fault.message
  | .corrupted _ => "Registry document corrupted"
  | .invalidValue key value => s!"Invalid value for key {key}: {value}"
  | .failed reason => s!"Registry task failed: {reason}"
  | .brokenOff => "Registry task failed: the task broke off"

def ElectionError.message : ElectionError → String
  | .invalidTransition before after =>
    s!"Invalid state transition from {before.text} to {after.text}."
  | .alreadyStarted state => s!"Elector already started in state {state.text}."
  | .waiterFailed reason => s!"Promotion waiter failed: {reason}"

def FailoverError.message : FailoverError → String
  | .launchFailed role exitCode => s!"Launching {role} failed with exit code {exitCode}"
  | .file path _ => s!"Error occurred at path: {path}"

def SettingsError.message : SettingsError → String
  | .wrongType (some key) => s!"invalid type for key {key}"
  | .wrongType none => "invalid type"
  | .fileSyntax => "a settings file is not TOML"
  | .fileUnusable => "a settings file is missing or of an unknown kind"
  | .unsuitable => "the settings do not fit together"

def Error.message : Error → String
  | .settings e => e.message
  | .invalidSettings reason => s!"Invalid config: {reason}"
  | .lock e => e.message
  | .registry e => e.message
  | .election e => e.message
  | .failover e => e.message
  | .fatal reason => s!"Fatal error: {reason}"

end Primacy
