/-
  Primacy.Toml.Text

  The lexical ground of TOML: blanks, line ends, comments and the four kinds of strings.
-/
import Primacy.Json.Quoted

namespace Primacy.Toml

open Text (Reader)

/-- There is one way for a text not to be TOML. -/
inductive Fault where
  | malformed
  deriving DecidableEq

abbrev Read (α : Type) : Type := Reader Fault α

def refuse {α : Type} : Read α := Reader.fail .malformed

/-- Goes on only if `c` comes next. -/
def expect (c : Char) : Read Unit := do
  if !(← Reader.accept c) then refuse

/-! ## Between the values -/

def isSpace (c : Char) : Bool := c == ' ' || c == '\t'

def skipSpaces : Read Unit := do let _ ← Reader.takeWhile isSpace

/-- Passes over the end of a line, if one comes next, and says whether one did. -/
def acceptLineEnd : Read Bool := do
  if ← Reader.accept '\n' then return true
  else Reader.acceptWord "\r\n"

/-- Characters that comments and literal strings may hold. -/
def isPrintable (c : Char) : Bool := c == '\t' || (0x20 ≤ c.toNat && c.toNat != 0x7F)

/-- Passes over a comment, if one comes next. -/
def skipComment : Read Unit := do
  if ← Reader.accept '#' then
    let _ ← Reader.takeWhile isPrintable

/-- Passes over what may stand behind a line's last value, and over the end of the line. -/
def endLine : Read Unit := do
  skipSpaces
  skipComment
  if !(← acceptLineEnd) then
    if (← Reader.peek).isSome then refuse

/-- Passes over blanks, line ends and comments. -/
def skipLines : Read Unit :=
  Reader.iterate .malformed (fun () => do
    match ← Reader.peek with
    | some '#' => skipComment; return .inl ()
    | some c =>
      if isSpace c then skipSpaces; return .inl ()
      else if ← acceptLineEnd then return .inl ()
      else return .inr ()
    | none => return .inr ()) ()

/-! ## Strings -/

/-- The character of `n` hexadecimal digits. -/
def codePoint (n : Nat) : Read Char := do
  let cs ← Reader.rest
  match (cs.take n).mapM Json.hexValue? with
  | some ds =>
    let v := ds.foldl (fun v d => v * 16 + d) 0
    if ds.length = n ∧ (v < 0xD800 ∨ (0xDFFF < v ∧ v < 0x110000)) then
      Reader.skip n
      return Char.ofNat v
    else refuse
  | none => refuse

/-- The character behind a backslash. -/
def escaped : Read Char := do
  match ← Reader.next with
  | some 'b' => return '\x08'
  | some 't' => return '\t'
  | some 'n' => return '\n'
  | some 'f' => return '\x0c'
  | some 'r' => return '\r'
  | some '"' => return '"'
  | some '\\' => return '\\'
  | some 'u' => codePoint 4
  | some 'U' => codePoint 8
  | _ => refuse

/-- A string between `"`, behind the opening quote. -/
def basicString : Read String :=
  Reader.iterate .malformed (fun (before : List Char) => do
    match ← Reader.next with
    | some '"' => return .inr (String.ofList before.reverse)
    | some '\\' => return .inl ((← escaped) :: before)
    | some c => if isPrintable c then return .inl (c :: before) else refuse
    | none => refuse) []

/-- A string between apostrophes, behind the opening one. -/
def literalString : Read String := do
  let cs ← Reader.takeWhile fun c => isPrintable c && c != '\''
  expect '\''
  return String.ofList cs

/-- Takes a run of quotes inside a string of several lines.  Three of them end the string, and up
to two in front of those belong to it; the answer is how many belong and whether the string ends. -/
def quoteRun (quote : Char) : Read (Nat × Bool) := do
  let n := (← Reader.takeWhile (· == quote)).length
  if n < 3 then return (n, false)
  else if n ≤ 5 then return (n - 3, true)
  else refuse

/-- Passes over a line end behind a backslash and the blanks and line ends that follow. -/
def skipLineBreak : Read Unit := do
  skipSpaces
  if !(← acceptLineEnd) then refuse
  Reader.iterate .malformed (fun () => do
    match ← Reader.peek with
    | some c =>
      if isSpace c then skipSpaces; return .inl ()
      else if ← acceptLineEnd then return .inl ()
      else return .inr ()
    | none => return .inr ()) ()

/-- One step inside a string of several lines. -/
def multilineRound (quote : Char) (escapes : Bool) (before : List Char) :
    Read (List Char ⊕ String) := do
  match ← Reader.peek with
  | none => refuse
  | some c =>
    if c = quote then
      let (n, ends) ← quoteRun quote
      let before := List.replicate n quote ++ before
      return if ends then .inr (String.ofList before.reverse) else .inl before
    else if c = '\\' ∧ escapes then
      Reader.skip 1
      match ← Reader.peek with
      | some d =>
        if isSpace d ∨ d = '\n' ∨ d = '\r' then
          skipLineBreak
          return .inl before
        else return .inl ((← escaped) :: before)
      | none => refuse
    else if ← acceptLineEnd then return .inl ('\n' :: before)
    else if isPrintable c then
      Reader.skip 1
      return .inl (c :: before)
    else refuse

/-- A string of several lines, behind its opening quotes; a line end right behind them does not
belong to it. -/
def multilineString (quote : Char) (escapes : Bool) : Read String := do
  let _ ← acceptLineEnd
  Reader.iterate .malformed (multilineRound quote escapes) []

/-- Any string. -/
def string : Read String := do
  if ← Reader.acceptWord "\"\"\"" then multilineString '"' true
  else if ← Reader.accept '"' then basicString
  else if ← Reader.acceptWord "'''" then multilineString '\'' false
  else if ← Reader.accept '\'' then literalString
  else refuse

/-! ## Keys -/

def isBareKey (c : Char) : Bool := c.isAlphanum || c == '_' || c == '-'

/-- One part of a key. -/
def keyPart : Read String := do
  match ← Reader.peek with
  | some '"' => Reader.skip 1; basicString
  | some '\'' => Reader.skip 1; literalString
  | _ =>
    let cs ← Reader.takeWhile isBareKey
    if cs.isEmpty then refuse else return String.ofList cs

/-- Values nest, and keys have parts, up to this depth. -/
def maxDepth : Nat := 79

/-- A key: parts with points between them. -/
def key : Read (List String) := do
  skipSpaces
  let first ← keyPart
  skipSpaces
  let parts ← Reader.iterate .malformed (fun (before : List String) => do
    if ← Reader.accept '.' then
      skipSpaces
      let part ← keyPart
      skipSpaces
      return .inl (part :: before)
    else return .inr before.reverse) [first]
  if maxDepth < parts.length then refuse else return parts

end Primacy.Toml
