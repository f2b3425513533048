/-
  Primacy.Lock.Call

  The calls that a lock service takes.
-/

namespace Primacy.Lock

inductive Call where
  | connect (address : String)
  | tryLock (owner : String)
  | lock (owner : String)
  | unlock (owner : String)
  deriving DecidableEq

/-- The address or the owner. -/
def Call.subject : Call → String
  | connect s => s
  | tryLock s => s
  | lock s => s
  | unlock s => s

end Primacy.Lock
