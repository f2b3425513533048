/-
  Primacy.Json.Shape

  Typed reading of JSON.  A record is read from an object, whose unknown members are passed over
  and whose known ones occur at most once, or from an array of its fields in order.  Whatever
  fault comes first ends the reading.
-/
import Primacy.Json.Number
import Primacy.Json.Quoted

namespace Primacy.Json

open Text (Reader)

/-- Drops the white space of the format and looks at what follows. -/
def token : Reader Fault (Option Char) := do
  let _ ← Reader.takeWhile fun c => c == ' ' || c == '\n' || c == '\t' || c == '\r'
  Reader.peek

/-- Reads the letters of a literal whose first letter is read already. -/
def letters : List Char → Reader Fault Unit
  | [] => pure ()
  | c :: cs => do
    match ← Reader.next with
    | none => Reader.fail .eof
    | some d => if d = c then letters cs else Reader.fail .malformed

/-! ## Passing over a value -/

/-- What a value that is passed over stands in. -/
inductive Frame where
  | list
  | object

def Frame.close : Frame → Char
  | .list => ']'
  | .object => '\x7d'

/-- Where passing over a value has got to: in front of a value or behind one, inside the frames
given. -/
inductive SkipPoint where
  | value (frames : List Frame)
  | behind (frames : List Frame)

/-- Passes over a member's name and colon. -/
def skipName : Reader Fault Unit := do
  match ← token with
  | none => Reader.fail .eof
  | some '"' =>
    Reader.skip 1
    skipString
    match ← token with
    | none => Reader.fail .eof
    | some ':' => Reader.skip 1
    | some _ => Reader.fail .malformed
  | some _ => Reader.fail .malformed

/-- Goes on behind the opening bracket of `frame`. -/
def skipOpened (frame : Frame) (frames : List Frame) : Reader Fault (SkipPoint ⊕ Unit) := do
  match ← token with
  | none => Reader.fail .eof
  | some c =>
    if c = frame.close then
      Reader.skip 1
      pure (.inl (.behind frames))
    else
      match frame with
      | .list => pure (.inl (.value (frame :: frames)))
      | .object => skipName; pure (.inl (.value (frame :: frames)))

/-- One scalar or bracket of a value that is passed over. -/
def skipRound : SkipPoint → Reader Fault (SkipPoint ⊕ Unit)
  | .value frames => do
    match ← token with
    | none => Reader.fail .eof
    | some 'n' => Reader.skip 1; letters "ull".toList; pure (.inl (.behind frames))
    | some 't' => Reader.skip 1; letters "rue".toList; pure (.inl (.behind frames))
    | some 'f' => Reader.skip 1; letters "alse".toList; pure (.inl (.behind frames))
    | some '"' => Reader.skip 1; skipString; pure (.inl (.behind frames))
    | some '[' => Reader.skip 1; skipOpened .list frames
    | some '\x7b' => Reader.skip 1; skipOpened .object frames
    | some c =>
      if c = '-' ∨ Text.isDigit c then
        Number.skipper
        pure (.inl (.behind frames))
      else Reader.fail .malformed
  | .behind [] => pure (.inr ())
  | .behind (frame :: frames) => do
    match ← token with
    | none => Reader.fail .eof
    | some c =>
      if c = frame.close then
        Reader.skip 1
        pure (.inl (.behind frames))
      else if c = ',' then
        Reader.skip 1
        match frame with
        | .list => pure (.inl (.value (frame :: frames)))
        | .object => skipName; pure (.inl (.value (frame :: frames)))
      else Reader.fail .malformed

/-- Passes over one value of any kind and any depth. -/
def skipValue : Reader Fault Unit := Reader.iterate .malformed skipRound (.value [])

/-! ## Scalars -/

/-- The fault of a value that is not of the kind asked for: its own fault if it is a scalar that
is not JSON, a fault of shape otherwise. -/
def wrongKind {α : Type} : Reader Fault α := do
  match ← token with
  | none => Reader.fail .eof
  | some 'n' => Reader.skip 1; letters "ull".toList; Reader.fail .data
  | some 't' => Reader.skip 1; letters "rue".toList; Reader.fail .data
  | some 'f' => Reader.skip 1; letters "alse".toList; Reader.fail .data
  | some '"' => Reader.skip 1; let _ ← stringBody; Reader.fail .data
  | some '[' => Reader.fail .data
  | some '\x7b' => Reader.fail .data
  | some c =>
    if c = '-' ∨ Text.isDigit c then
      let _ ← Number.reader
      Reader.fail .data
    else Reader.fail .malformed

/-- A string. -/
def string : Reader Fault String := do
  match ← token with
  | some '"' => Reader.skip 1; stringBody
  | _ => wrongKind

/-- `true` or `false`. -/
def boolean : Reader Fault Bool := do
  match ← token with
  | some 't' => Reader.skip 1; letters "rue".toList; pure true
  | some 'f' => Reader.skip 1; letters "alse".toList; pure false
  | _ => wrongKind

/-- An integer from `low` to `high`. -/
def integer (low high : Int) : Reader Fault Int := do
  match ← token with
  | some c =>
    if c = '-' ∨ Text.isDigit c then
      match ← Number.reader with
      | .integer n => if low ≤ n ∧ n ≤ high then pure n else Reader.fail .data
      | .float => Reader.fail .data
    else wrongKind
  | none => wrongKind

/-- A natural number of at most `max`. -/
def natural (max : Nat) : Reader Fault Nat := do return (← integer 0 max).toNat

/-- `null`, or what `r` reads. -/
def optional {α : Type} (r : Reader Fault α) : Reader Fault (Option α) := do
  match ← token with
  | some 'n' => Reader.skip 1; letters "ull".toList; pure none
  | _ => return some (← r)

/-! ## Members -/

/-- Goes to the next member of an object and reads its name; `none` behind the closing brace.
`first` holds right behind the opening one. -/
def memberName (first : Bool) : Reader Fault (Option String) := do
  match ← token with
  | none => Reader.fail .eof
  | some '\x7d' => Reader.skip 1; pure none
  | some c =>
    if !first then
      if c = ',' then Reader.skip 1 else Reader.fail .malformed
    match ← token with
    | none => Reader.fail .eof
    | some '"' => Reader.skip 1; return some (← stringBody)
    | some _ => Reader.fail .malformed

/-- Passes over the colon of a member. -/
def colon : Reader Fault Unit := do
  match ← token with
  | none => Reader.fail .eof
  | some ':' => Reader.skip 1
  | some _ => Reader.fail .malformed

/-- An object whose members are all read by `r`, in order. -/
def members {α : Type} (r : Reader Fault α) : Reader Fault (List (String × α)) := do
  match ← token with
  | some '\x7b' =>
    Reader.skip 1
    Reader.iterate .malformed (fun (before : List (String × α)) => do
      match ← memberName before.isEmpty with
      | none => pure (.inr before.reverse)
      | some name =>
        colon
        return .inl ((name, ← r) :: before)) []
  | _ => wrongKind

/-! ## Records -/

/-- A field of a record `σ`: its name, and the reader that puts its value in place. -/
structure Field (σ : Type) where
  name : String
  required : Bool
  read : Reader Fault (σ → σ)

namespace Record

variable {σ : Type}

/-- A record while it is read: the names met so far and the values so far. -/
structure Partial (σ : Type) where
  seen : List String
  value : σ

/-- One member of an object. -/
def memberRound (fields : List (Field σ)) (first : Bool) (p : Partial σ) :
    Reader Fault (Partial σ ⊕ Partial σ) := do
  match ← memberName first with
  | none => pure (.inr p)
  | some name =>
    match fields.find? (·.name == name) with
    | none => colon; skipValue; pure (.inl p)
    | some field =>
      if p.seen.contains name then Reader.fail .data
      else
        colon
        let set ← field.read
        pure (.inl ⟨name :: p.seen, set p.value⟩)

/-- The members of an object, behind its opening brace. -/
def fromObject (fields : List (Field σ)) (init : σ) : Reader Fault (Partial σ) :=
  Reader.iterate .malformed (fun (s : Bool × Partial σ) => do
    match ← memberRound fields s.1 s.2 with
    | .inl p => pure (.inl (false, p))
    | .inr p => pure (.inr p)) (true, ⟨[], init⟩)

/-- The elements of an array, behind its opening bracket; elements past the last field are
malformed. -/
def fromArray (first : Bool) (p : Partial σ) : List (Field σ) → Reader Fault (Partial σ)
  | [] => do
    match ← token with
    | none => Reader.fail .eof
    | some ']' => Reader.skip 1; pure p
    | some _ => Reader.fail .malformed
  | field :: fields => do
    match ← token with
    | none => Reader.fail .eof
    | some ']' => Reader.skip 1; pure p
    | some c =>
      if !first then
        if c = ',' then
          Reader.skip 1
          match ← token with
          | none => Reader.fail .eof
          | some ']' => Reader.fail .malformed
          | some _ => pure ()
        else Reader.fail .malformed
      let set ← field.read
      fromArray false ⟨field.name :: p.seen, set p.value⟩ fields

end Record

/-- A record with the given fields; fields that do not occur keep their value of `init`, unless
they are required. -/
def record {σ : Type} (fields : List (Field σ)) (init : σ) : Reader Fault σ := do
  let p ← match ← token with
    | some '[' => Reader.skip 1; Record.fromArray true ⟨[], init⟩ fields
    | some '\x7b' => Reader.skip 1; Record.fromObject fields init
    | _ => wrongKind
  if fields.all fun f => !f.required || p.seen.contains f.name then pure p.value
  else Reader.fail .data

/-- Reads a whole text as one value. -/
def read {α : Type} (r : Reader Fault α) (s : String) : Except Fault α := do
  let (a, rest) ← r s.toList
  match ← token rest with
  | (none, _) => .ok a
  | (some _, _) => .error .malformed

end Primacy.Json
