/-
  Primacy.Proofs.Failover.Victims

  Whom a driver chooses.  A draw takes one of the places that are left and moves the last one into
  it, so no place is drawn twice, and as many are drawn as are asked for or there are.
-/
import Mathlib.Data.List.FinRange
import Mathlib.Data.List.Perm.Basic
import Primacy.Proofs.Failover.Observation
import Primacy.Proofs.Failover.Overflow
import Primacy.Proofs.Registry.Record

namespace Primacy.Failover

/-! ## Drawing -/

section

variable {ι α : Type}

end

namespace Scene

variable {s s' : Scene} {past : List Exchange}

variable {roster : List Member} {role : String} {primary : Option Member}

end Scene

/-! ## Choosing -/

namespace Driver

variable {d : Driver} {n : Nat} {role : String} {primary : Option Member} {m : Member}

end Driver

end Primacy.Failover
