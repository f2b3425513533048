/-
  Primacy.Clock

  Times as milliseconds of the epoch, in 64 bits with a sign, and the time gone by since one.
-/
import Primacy.Text.Numeral

namespace Primacy.Clock

/-- The milliseconds from `earlier` to `now`, none if `earlier` is still to come.  There is no
answer if the difference does not fit 64 bits. -/
def elapsed? (now earlier : Int) : Option Nat :=
  if Text.int64Min ≤ now - earlier ∧ now - earlier ≤ Text.int64Max then
    some (now - earlier).toNat
  else none

end Primacy.Clock
