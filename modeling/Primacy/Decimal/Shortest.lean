/-
  Primacy.Decimal.Shortest

  The decimal text of a binary64 number: the fewest digits that read back as the number, the
  nearest such digits, written out without an exponent.
-/
import Primacy.Decimal.Binary64

namespace Primacy.Decimal

/-- A positive fraction. -/
structure Ratio where
  num : Nat
  den : Nat

namespace Ratio

def le (a b : Ratio) : Bool := a.num * b.den ≤ b.num * a.den

def lt (a b : Ratio) : Bool := a.num * b.den < b.num * a.den

/-- `n · 2^e`. -/
def dyadic (n : Nat) (e : Int) : Ratio :=
  if 0 ≤ e then ⟨n * twoTo e.toNat, 1⟩ else ⟨n, twoTo (-e).toNat⟩

/-- `n · 10^k`. -/
def decimal (n : Nat) (k : Int) : Ratio :=
  if 0 ≤ k then ⟨n * tenTo k.toNat, 1⟩ else ⟨n, tenTo (-k).toNat⟩

/-- The number of whole steps of `10^k` in `a`. -/
def stepsBelow (a : Ratio) (k : Int) : Nat :=
  if 0 ≤ k then a.num / (a.den * tenTo k.toNat) else a.num * tenTo (-k).toNat / a.den

end Ratio

namespace Shortest

/-- The numbers that round to `m · 2^e`: the value, the ends, and whether the ends belong. -/
structure Interval where
  value : Ratio
  low : Ratio
  high : Ratio
  closed : Bool

/-- The interval reaches half way to both neighbours; below a power of two they lie closer. -/
def Interval.of (m : Nat) (e : Int) : Interval where
  value := .dyadic (4 * m) (e - 2)
  low := .dyadic (4 * m - if m = twoTo 52 ∧ Binary64.minExponent < e then 1 else 2) (e - 2)
  high := .dyadic (4 * m + 2) (e - 2)
  closed := m % 2 = 0

def Interval.holds (i : Interval) (a : Ratio) : Bool :=
  if i.closed then i.low.le a && a.le i.high else i.low.lt a && a.lt i.high

/-- The multiple of `10^k` nearest to the value, out of its two neighbours on that grid, among
those that lie in the interval; a tie goes up. -/
def Interval.onGrid? (i : Interval) (k : Int) : Option Nat :=
  let n := i.value.stepsBelow k
  match i.holds (.decimal n k), i.holds (.decimal (n + 1) k) with
  | true, false => some n
  | false, true => some (n + 1)
  | false, false => none
  | true, true =>
    -- the midpoint of the two neighbours decides
    if i.value.lt (.decimal (10 * n + 5) (k - 1)) then some n else some (n + 1)

/-- The coarsest of the given grids that has a point in the interval, and that point. -/
def Interval.search (i : Interval) : List Int → Nat × Int
  | [] => (0, 0)
  | k :: ks =>
    match i.onGrid? k with
    | some n => (n, k)
    | none => i.search ks

/-- The least `k` with `a < 10^k`, searched upward from `k`. -/
def magnitudeFrom (a : Ratio) (k : Int) : Nat → Int
  | 0 => k
  | n + 1 => if a.lt (.decimal 1 k) then k else magnitudeFrom a (k + 1) n

/-- Digits `n` and exponent `k` such that `n · 10^k` is the shortest decimal of `m · 2^e`. -/
def decimalOf (m : Nat) (e : Int) : Nat × Int :=
  let i := Interval.of m e
  let top := magnitudeFrom i.value (-324) 640
  -- the leading digit stands at 10^(top - 1); rounding up may reach 10^top itself
  i.search ((List.range 18).map fun (j : Nat) => top - (j : Int))

/-- `n · 10^k` written out. -/
def positional (n : Nat) (k : Int) : String :=
  let digits := (Nat.repr n).toList
  if 0 ≤ k then String.ofList (digits ++ List.replicate k.toNat '0')
  else
    let places := (-k).toNat
    let padded := List.replicate (places + 1 - digits.length) '0' ++ digits
    let whole := padded.take (padded.length - places)
    let fraction := padded.drop (padded.length - places)
    -- a point on a coarse grid may end in zeros after rounding up
    let fraction := (fraction.reverse.dropWhile (· == '0')).reverse
    String.ofList (if fraction.isEmpty then whole else whole ++ '.' :: fraction)

end Shortest

/-- The text of a number: no exponent, no point in front of nothing, a sign also on zero. -/
def Binary64.text : Binary64 → String
  | .nan => "NaN"
  | .infinite negative => if negative then "-inf" else "inf"
  | .finite negative m e =>
    let body :=
      if m = 0 then "0"
      else
        let (n, k) := Shortest.decimalOf m e
        Shortest.positional n k
    if negative then "-" ++ body else body

end Primacy.Decimal
