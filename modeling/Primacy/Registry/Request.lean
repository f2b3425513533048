/-
  Primacy.Registry.Request

  What is asked of a registry: four requests, and the procedures that are made of them.
-/
import Primacy.Dialogue
import Primacy.Error
import Primacy.Registry.Key
import Primacy.Text.Blank
import Primacy.Text.Numeral

namespace Primacy.Registry

inductive Request where
  | put (key value : String)
  | get (key : String)
  /-- Adds one to a counter; answers the new value. -/
  | increment (counter : String)
  | zero (counter : String)
  deriving DecidableEq

namespace Request

/-- What a request is answered with if it succeeds. -/
@[reducible] def Answer : Request → Type
  | put .. => Unit
  | get _ => Option String
  | increment _ => Int
  | zero _ => Unit

/-- The answer to a request, or why there is none. -/
abbrev Reply (q : Request) : Type := Except RegistryError q.Answer

/-- The entry or counter that a request is about. -/
def subject : Request → String
  | put key _ => key
  | get key => key
  | increment counter => counter
  | zero counter => counter

/-- The request changes what the registry holds. -/
def changes : Request → Bool
  | get _ => false
  | _ => true

end Request

/-- A procedure of registry requests that ends at the first one to fail. -/
abbrev Procedure (α : Type) : Type :=
  ExceptT RegistryError (Dialogue Request Request.Reply) α

/-- The procedure of one request. -/
def call (q : Request) : Procedure q.Answer := ExceptT.mk (Dialogue.request q)

/-- Exactly one of those who ask while the counter is fresh is told that it was first. -/
def isFirstWriter (counter : String) : Procedure Bool := do
  let turn ← call (.increment counter)
  return decide (turn = 1)

/-- The entry at `key` as a 64-bit number; blanks around it do not matter. -/
def getInt64 (key : String) : Procedure (Option Int) := do
  match ← call (.get key) with
  | none => return none
  | some raw =>
    match Text.int64? (Text.trimmed raw) with
    | some n => return some n
    | none => throw (.invalidValue key raw)

/-! ## The primary record -/

/-- Where the primary can be reached. -/
structure PrimaryRecord where
  host : String
  port : Nat
  deriving DecidableEq

namespace PrimaryRecord

/-- Writes both halves of the record, the host first. -/
def publish (r : PrimaryRecord) : Procedure Unit := do
  call (.put primaryHostKey r.host)
  call (.put primaryPortKey (toString r.port))

/-- The record that two entries make up: none unless both are there. -/
def ofEntries (host port : Option String) : Except RegistryError (Option PrimaryRecord) :=
  match host, port with
  | some host, some port =>
    match Text.natUpTo? Text.nat16Max (Text.trimmed port) with
    | some n => .ok (some ⟨host, n⟩)
    | none => .error (.invalidValue primaryPortKey port)
  | _, _ => .ok none

/-- Reads the record. -/
def load : Procedure (Option PrimaryRecord) := do
  let host ← call (.get primaryHostKey)
  let port ← call (.get primaryPortKey)
  ExceptT.mk (.done (ofEntries host port))

end PrimaryRecord

end Primacy.Registry
