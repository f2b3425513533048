/-
  Primacy.Election.Gate

  A gate that settles once: it is released by a promotion or closed by a stop, and stays as it is
  from then on.
-/

namespace Primacy.Election

inductive Gate where
  | pending
  | released
  | closed
  deriving DecidableEq, Inhabited

namespace Gate

def isSettled (g : Gate) : Bool := g != .pending

/-- Settles a pending gate as `next`; says whether this is what settled it. -/
def settle (g next : Gate) : Bool × Gate :=
  match g with
  | .pending => (true, next)
  | g => (false, g)

def release (g : Gate) : Bool × Gate := g.settle .released

def close (g : Gate) : Bool × Gate := g.settle .closed

def text : Gate → String
  | .pending => "Pending"
  | .released => "Released"
  | .closed => "Closed"

end Gate

end Primacy.Election
