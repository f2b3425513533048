/-
  Primacy.Text.Numeral

  Decimal integers as text: an optional sign, then ASCII digits, no blanks and no separators.
  A reader names the range that the number has to lie in.
-/
import Primacy.Text.Blank

namespace Primacy.Text

/-- The least and the greatest value of a 64-bit signed counter. -/
def int64Min : Int := -9223372036854775808

def int64Max : Int := 9223372036854775807

def nat64Max : Nat := 18446744073709551615

def nat16Max : Nat := 65535

def isDigit (c : Char) : Bool := '0' ≤ c && c ≤ '9'

def digitValue (c : Char) : Nat := c.toNat - '0'.toNat

/-- The number that a run of digits writes. -/
def digitsValue (cs : List Char) : Nat := cs.foldl (fun n c => 10 * n + digitValue c) 0

/-- One or more digits and nothing else. -/
def natural? (cs : List Char) : Option Nat :=
  if !cs.isEmpty && cs.all isDigit then some (digitsValue cs) else none

/-- Digits after an optional sign. -/
def integer? : List Char → Option Int
  | '+' :: cs => (natural? cs).map Int.ofNat
  | '-' :: cs => (natural? cs).map fun n => -Int.ofNat n
  | cs => (natural? cs).map Int.ofNat

/-- Digits after an optional plus sign; a minus sign is refused, also before zero. -/
def unsigned? : List Char → Option Nat
  | '+' :: cs => natural? cs
  | cs => natural? cs

/-- A signed 64-bit number. -/
def int64? (s : String) : Option Int :=
  (integer? s.toList).filter fun n => int64Min ≤ n && n ≤ int64Max

/-- An unsigned number of at most `max`. -/
def natUpTo? (max : Nat) (s : String) : Option Nat :=
  (unsigned? s.toList).filter (· ≤ max)

end Primacy.Text
