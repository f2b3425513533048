/-
  Primacy.Toml.Document

  TOML documents: lines that set keys, open tables or say nothing.
-/
import Primacy.Toml.Number
import Primacy.Toml.Table

namespace Primacy.Toml

open Settings (Value)
open Text (Reader)

/-! ## Values -/

/-- The items of an array, behind its opening bracket. -/
def arrayItems (value : Read Value) : Read Value :=
  Reader.iterate .malformed (fun (s : Bool × List Value) => do
    -- the flag tells whether another item may come
    skipLines
    if ← Reader.accept ']' then return .inr (.array s.2.reverse)
    else if !s.1 then refuse
    else
      let v ← value
      skipLines
      return .inl (← Reader.accept ',', v :: s.2)) (true, [])

/-- One member of a table within a line, added to `m`. -/
def inlineMember (value : Read Value) (m : Members) : Read Members := do
  let parts ← key
  expect '='
  skipSpaces
  let v ← value
  skipSpaces
  match m.insert parts v with
  | some m => return m
  | none => refuse

/-- The members of a table within a line, behind its opening brace. -/
def inlineMembers (value : Read Value) : Read Value := do
  skipSpaces
  if ← Reader.accept '\x7d' then return .table []
  else
    let m ← Reader.iterate .malformed (fun (m : Members) => do
      let m ← inlineMember value m
      if ← Reader.accept ',' then return .inl m
      else
        expect '\x7d'
        return .inr m) []
    return .table (toValues m)

/-- A value that nests at most `depth` deep. -/
def value (depth : Nat) : Read Value := do
  match ← Reader.peek with
  | some '"' => return .text (← string)
  | some '\'' => return .text (← string)
  | some '[' =>
    match depth with
    | 0 => refuse
    | depth + 1 => Reader.skip 1; arrayItems (value depth)
  | some '\x7b' =>
    match depth with
    | 0 => refuse
    | depth + 1 => Reader.skip 1; inlineMembers (value depth)
  | some 't' => if ← Reader.acceptWord "true" then return .flag true else refuse
  | some 'f' => if ← Reader.acceptWord "false" then return .flag false else refuse
  | _ => numberOrDate

/-! ## Lines -/

/-- A document while it is read: its tables, and the path of the last header. -/
structure Draft where
  members : Members
  header : List String

/-- A header, behind its first bracket. -/
def headerLine (d : Draft) : Read Draft := do
  let double ← Reader.accept '['
  let parts ← key
  expect ']'
  if double then expect ']'
  endLine
  match if double then d.members.openRow parts else d.members.openTable parts with
  | some m => return ⟨m, parts⟩
  | none => refuse

/-- A key and its value. -/
def keyLine (d : Draft) : Read Draft := do
  let parts ← key
  expect '='
  skipSpaces
  let v ← value maxDepth
  endLine
  match Members.atHeader (fun m => m.insert parts v) d.header d.members with
  | some m => return { d with members := m }
  | none => refuse

/-- The lines of a document. -/
def document : Read (List (String × Value)) := do
  let _ ← Reader.accept '\uFEFF'
  let d ← Reader.iterate .malformed (fun (d : Draft) => do
    skipLines
    match ← Reader.peek with
    | none => return .inr d
    | some '[' => Reader.skip 1; return .inl (← headerLine d)
    | some _ => return .inl (← keyLine d)) ⟨[], []⟩
  return toValues d.members

/-- Reads a document; none if the text is not TOML. -/
def read? (text : String) : Option (List (String × Value)) :=
  match document text.toList with
  | .ok (members, _) => some members
  | .error _ => none

end Primacy.Toml
