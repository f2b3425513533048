/-
  Primacy.Json.Quoted

  JSON strings.  Writing escapes quotes, backslashes and control characters and nothing else;
  reading undoes every escape of the format and refuses control characters and unpaired
  surrogates.
-/
import Primacy.Json.Fault
import Primacy.Text.Numeral
import Primacy.Text.Reader

namespace Primacy.Json

open Text (Reader)

/-! ## Writing -/

def hexDigit (n : Nat) : Char := "0123456789abcdef".toList.getD n '0'

/-- How one character stands inside a string. -/
def escape (c : Char) : List Char :=
  if c = '"' then ['\\', '"']
  else if c = '\\' then ['\\', '\\']
  else if c = '\x08' then ['\\', 'b']
  else if c = '\x0c' then ['\\', 'f']
  else if c = '\n' then ['\\', 'n']
  else if c = '\r' then ['\\', 'r']
  else if c = '\t' then ['\\', 't']
  else if c.toNat < 0x20 then
    ['\\', 'u', '0', '0', hexDigit (c.toNat / 16), hexDigit (c.toNat % 16)]
  else [c]

/-- `s` between quotes. -/
def quoted (s : String) : List Char := '"' :: (s.toList.flatMap escape ++ ['"'])

/-! ## Reading -/

def hexValue? (c : Char) : Option Nat :=
  if Text.isDigit c then some (Text.digitValue c)
  else if 'a' ≤ c ∧ c ≤ 'f' then some (c.toNat - 'a'.toNat + 10)
  else if 'A' ≤ c ∧ c ≤ 'F' then some (c.toNat - 'A'.toNat + 10)
  else none

/-- Four hexadecimal digits.  A text with fewer than four bytes left ends too early, whatever they
are. -/
def codeUnit : Reader Fault Nat := fun cs =>
  match cs with
  | a :: b :: c :: d :: rest =>
    match hexValue? a, hexValue? b, hexValue? c, hexValue? d with
    | some a, some b, some c, some d => .ok (((a * 16 + b) * 16 + c) * 16 + d, rest)
    | _, _, _, _ => .error .malformed
  | few => .error (if (String.ofList few).utf8ByteSize < 4 then .eof else .malformed)

/-- The character behind `\u`: a code unit, or a surrogate and its partner. -/
def unicodeEscape : Reader Fault Char := do
  let high ← codeUnit
  if 0xDC00 ≤ high ∧ high ≤ 0xDFFF then Reader.fail .malformed
  else if high < 0xD800 ∨ 0xDBFF < high then pure (Char.ofNat high)
  else
    for c in ['\\', 'u'] do
      match ← Reader.next with
      | none => Reader.fail .eof
      | some d => if d ≠ c then Reader.fail .malformed
    let low ← codeUnit
    if low < 0xDC00 ∨ 0xDFFF < low then Reader.fail .malformed
    else pure (Char.ofNat (0x10000 + (high - 0xD800) * 0x400 + (low - 0xDC00)))

/-- The character behind a backslash. -/
def escapeReader : Reader Fault Char := do
  match ← Reader.next with
  | none => Reader.fail .eof
  | some '"' => pure '"'
  | some '\\' => pure '\\'
  | some '/' => pure '/'
  | some 'b' => pure '\x08'
  | some 'f' => pure '\x0c'
  | some 'n' => pure '\n'
  | some 'r' => pure '\r'
  | some 't' => pure '\t'
  | some 'u' => unicodeEscape
  | some _ => Reader.fail .malformed

/-- The characters of a string up to its closing quote, the opening one being read already.  The
characters so far are held in reverse. -/
def characters : Reader Fault (List Char) :=
  Reader.iterate .malformed (fun before => do
    match ← Reader.next with
    | none => Reader.fail .eof
    | some '"' => pure (.inr before.reverse)
    | some '\\' => return .inl ((← escapeReader) :: before)
    | some c => if c.toNat < 0x20 then Reader.fail .malformed else pure (.inl (c :: before))) []

/-- The text of a string, the opening quote being read already. -/
def stringBody : Reader Fault String := do return String.ofList (← characters)

/-- Passes over the rest of a string whose text nobody asks for; code units need not pair up. -/
def skipString : Reader Fault Unit :=
  Reader.iterate .malformed (fun () => do
    match ← Reader.next with
    | none => Reader.fail .eof
    | some '"' => pure (.inr ())
    | some '\\' =>
      match ← Reader.next with
      | none => Reader.fail .eof
      | some 'u' => let _ ← codeUnit; pure (.inl ())
      | some c =>
        if "\"\\/bfnrt".toList.contains c then pure (.inl ()) else Reader.fail .malformed
    | some c => if c.toNat < 0x20 then Reader.fail .malformed else pure (.inl ())) ()

end Primacy.Json
