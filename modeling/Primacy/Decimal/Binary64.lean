/-
  Primacy.Decimal.Binary64

  Binary floating point numbers of 64 bits as exact values: a mantissa below 2^53 times a power of
  two.  Rounding is to nearest, ties to even, in exact natural-number arithmetic.
-/
import Primacy.Text.Numeral

namespace Primacy.Decimal

/-- A power of two. -/
def twoTo (n : Nat) : Nat := Nat.pow 2 n

/-- A power of ten. -/
def tenTo (n : Nat) : Nat := Nat.pow 10 n

/-- `finite negative m e` is `±m · 2^e`.  Rounding yields `m < 2^53`, `-1074 ≤ e`, and `2^52 ≤ m`
unless `e = -1074`. -/
inductive Binary64 where
  | nan
  | infinite (negative : Bool)
  | finite (negative : Bool) (mantissa : Nat) (exponent : Int)
  deriving DecidableEq, Inhabited

namespace Binary64

/-- The least exponent, of the subnormal numbers. -/
def minExponent : Int := -1074

/-- The greatest exponent of a finite number. -/
def maxExponent : Int := 971

def zero (negative : Bool) : Binary64 := .finite negative 0 minExponent

/-- `num / den` in units of `2^e`, as a fraction. -/
def inUnits (num den : Nat) (e : Int) : Nat × Nat :=
  if 0 ≤ e then (num, den * twoTo e.toNat) else (num * twoTo (-e).toNat, den)

/-- The quotient rounded to the nearest number, a tie to the even one. -/
def divNearestEven (num den : Nat) : Nat :=
  let q := num / den
  let twice := 2 * (num % den)
  if twice < den then q else if den < twice then q + 1 else q + q % 2

/-- The exponent at which `num / den` has 53 significant bits, or the least one. -/
def exponentOf (num den : Nat) : Int :=
  let e := (Nat.log2 num : Int) - Nat.log2 den - 52
  let (n, d) := inUnits num den e
  max (if n < twoTo 52 * d then e - 1 else e) minExponent

/-- The number nearest to `±num / den`. -/
def nearest (negative : Bool) (num den : Nat) : Binary64 :=
  if num = 0 ∨ den = 0 then zero negative
  else
    let e := exponentOf num den
    let (n, d) := inUnits num den e
    let m := divNearestEven n d
    let (m, e) := if m = twoTo 53 then (twoTo 52, e + 1) else (m, e)
    if maxExponent < e then .infinite negative else .finite negative m e

/-- The number nearest to `±digits · 10^exp`.  Magnitudes far outside the range are settled
without forming the power. -/
def ofDecimal (negative : Bool) (digits : Nat) (exp : Int) : Binary64 :=
  if digits = 0 then zero negative
  else if 400 < exp then .infinite negative
  else if exp < -(400 + (Nat.log2 digits : Int)) then zero negative
  else if 0 ≤ exp then nearest negative (digits * tenTo exp.toNat) 1
  else nearest negative digits (tenTo (-exp).toNat)

/-- Unequal to both zeros; so is a NaN. -/
def isNonzero : Binary64 → Bool
  | .finite _ m _ => m != 0
  | _ => true

/-- The nearest natural number, halves away from zero, held within 0 and `2^64 - 1`; a NaN is 0. -/
def toNat64 : Binary64 → Nat
  | .nan => 0
  | .infinite negative => if negative then 0 else Text.nat64Max
  | .finite negative m e =>
    if negative then 0
    else if 0 ≤ e then min (m * twoTo e.toNat) Text.nat64Max
    else (2 * m + twoTo (-e).toNat) / twoTo ((-e).toNat + 1)

/-! ## Reading -/

/-- What follows the mantissa: nothing, or `e` with an optionally signed run of digits. -/
def exponentPart? : List Char → Option Int
  | [] => some 0
  | c :: cs => if c == 'e' || c == 'E' then Text.integer? cs else none

/-- A decimal number without its sign: digits with at most one point, at least one digit in all,
then an optional exponent. -/
def magnitude? (negative : Bool) (cs : List Char) : Option Binary64 :=
  let whole := cs.takeWhile Text.isDigit
  let rest := cs.dropWhile Text.isDigit
  let (fraction, rest) := match rest with
    | '.' :: rest => (rest.takeWhile Text.isDigit, rest.dropWhile Text.isDigit)
    | rest => ([], rest)
  if whole.isEmpty && fraction.isEmpty then none
  else (exponentPart? rest).map fun exp =>
    ofDecimal negative (Text.digitsValue (whole ++ fraction)) (exp - fraction.length)

/-- A number without its sign, the words for the special values included, in any case. -/
def unsigned? (negative : Bool) (cs : List Char) : Option Binary64 :=
  let word := String.ofList (cs.map Char.toLower)
  if word == "inf" || word == "infinity" then some (.infinite negative)
  else if word == "nan" then some .nan
  else magnitude? negative cs

/-- Reads a decimal number or the name of a special value, with an optional sign. -/
def read? (s : String) : Option Binary64 :=
  match s.toList with
  | '+' :: cs => unsigned? false cs
  | '-' :: cs => unsigned? true cs
  | cs => unsigned? false cs

end Binary64

end Primacy.Decimal
