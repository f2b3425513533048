/-
  Primacy.Json.Number

  Number literals.  A literal without fraction and exponent is an integer as long as it fits 64
  bits; every other one is a float, and a float too large for binary64 is malformed.
-/
import Primacy.Decimal.Binary64
import Primacy.Json.Fault
import Primacy.Text.Reader

namespace Primacy.Json

open Text (Reader)

/-- A number literal as typed readers see it. -/
inductive Number where
  | integer (n : Int)
  | float

namespace Number

/-- Digits of a literal that count, and the power of ten that the ignored ones leave behind. -/
structure Mantissa where
  digits : Nat
  exp : Int

/-- Takes one more digit, unless the digits no longer fit 64 bits. -/
def Mantissa.fits (m : Mantissa) (c : Char) : Bool :=
  m.digits * 10 + Text.digitValue c ≤ Text.nat64Max

/-- Adds the digits before the point: the first ones that fit 64 bits are kept, each later one
only counts as a factor of ten. -/
def Mantissa.wholePart : List Char → Mantissa → Mantissa
  | [], m => m
  | c :: cs, m =>
    if m.exp = 0 ∧ m.fits c then wholePart cs { m with digits := m.digits * 10 + Text.digitValue c }
    else wholePart cs { m with exp := m.exp + 1 }

/-- Adds the digits after the point, as long as they fit 64 bits. -/
def Mantissa.fractionPart (m : Mantissa) : List Char → Mantissa
  | [] => m
  | c :: cs =>
    if m.fits c then
      fractionPart { digits := m.digits * 10 + Text.digitValue c, exp := m.exp - 1 } cs
    else m

/-- The value is too large for binary64: scaling the digits, rounded to binary64, by the rounded
power of ten passes the greatest finite number. -/
def Mantissa.overflows (m : Mantissa) : Bool :=
  if m.digits = 0 ∨ m.exp < 0 then false
  else if 308 < m.exp then true
  else
    match Decimal.Binary64.nearest false m.digits 1,
        Decimal.Binary64.nearest false (Decimal.tenTo m.exp.toNat) 1 with
    | .finite _ a i, .finite _ b j =>
      Decimal.twoTo (i + j).toNat * a * b ≥ (Decimal.twoTo 54 - 1) * Decimal.twoTo 970
    | _, _ => true

/-- An exponent of more than nine digits is settled by its sign alone. -/
def exponentValue (negative : Bool) (digits : List Char) : Int :=
  let n := min (Text.digitsValue digits) 2147483647
  if negative then -(n : Int) else n

/-- The float with mantissa `m`, or a fault where it is too large. -/
def finish (m : Mantissa) : Except Fault Number :=
  if m.overflows then .error .malformed else .ok .float

/-- Reads what follows `e`. -/
def exponent (m : Mantissa) : Reader Fault Number := do
  let negative ← Reader.accept '-'
  if !negative then let _ ← Reader.accept '+'
  let digits ← Reader.takeWhile Text.isDigit
  if digits.isEmpty then
    match ← Reader.peek with
    | none => Reader.fail .eof
    | some _ => Reader.fail .malformed
  else
    fun cs => (finish { m with exp := m.exp + exponentValue negative digits }).map (·, cs)

/-- Reads what follows the digits before the point. -/
def afterWhole (negative : Bool) (whole : List Char) : Reader Fault Number := do
  let m := Mantissa.wholePart whole ⟨0, 0⟩
  match ← Reader.peek with
  | some '.' =>
    Reader.skip 1
    let digits ← Reader.takeWhile Text.isDigit
    if digits.isEmpty then
      match ← Reader.peek with
      | none => Reader.fail .eof
      | some _ => Reader.fail .malformed
    else
      let m := m.fractionPart digits
      match ← Reader.peek with
      | some 'e' | some 'E' => Reader.skip 1; exponent m
      | _ => fun cs => (finish m).map (·, cs)
  | some 'e' | some 'E' => Reader.skip 1; exponent m
  | _ =>
    if m.exp ≠ 0 then fun cs => (finish m).map (·, cs)
    else if !negative then pure (.integer m.digits)
    else if m.digits = 0 ∨ m.digits > 9223372036854775808 then pure .float
    else pure (.integer (-(m.digits : Int)))

/-- Reads a literal after its minus sign, if it had one. -/
def unsigned (negative : Bool) : Reader Fault Number := do
  match ← Reader.peek with
  | none => Reader.fail .eof
  | some '0' =>
    Reader.skip 1
    match ← Reader.peek with
    | some c => if Text.isDigit c then Reader.fail .malformed else afterWhole negative ['0']
    | none => afterWhole negative ['0']
  | some c =>
    if Text.isDigit c then
      let whole ← Reader.takeWhile Text.isDigit
      afterWhole negative whole
    else Reader.fail .malformed

/-- Reads a number literal. -/
def reader : Reader Fault Number := do
  let negative ← Reader.accept '-'
  unsigned negative

/-! ## Passing over a literal -/

/-- Passes over an exponent. -/
def skipExponent : Reader Fault Unit := do
  let negative ← Reader.accept '-'
  if !negative then let _ ← Reader.accept '+'
  let digits ← Reader.takeWhile Text.isDigit
  if digits.isEmpty then Reader.fail .malformed

/-- Passes over a number literal whose value nobody asks for: its form alone counts, and a text
that ends inside it is malformed. -/
def skipper : Reader Fault Unit := do
  let _ ← Reader.accept '-'
  match ← Reader.peek with
  | some '0' =>
    Reader.skip 1
    match ← Reader.peek with
    | some c => if Text.isDigit c then Reader.fail .malformed
    | none => pure ()
  | some c =>
    if Text.isDigit c then let _ ← Reader.takeWhile Text.isDigit
    else Reader.fail .malformed
  | none => Reader.fail .malformed
  match ← Reader.peek with
  | some '.' =>
    Reader.skip 1
    let digits ← Reader.takeWhile Text.isDigit
    if digits.isEmpty then Reader.fail .malformed
    match ← Reader.peek with
    | some 'e' | some 'E' => Reader.skip 1; skipExponent
    | _ => pure ()
  | some 'e' | some 'E' => Reader.skip 1; skipExponent
  | _ => pure ()

end Number

end Primacy.Json
