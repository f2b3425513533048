/-
  Primacy.Election.Await

  Learning of a promotion: by waiting for it, or by a callback.
-/
import Primacy.Election.Elector

namespace Primacy.Election

/-! ## Waiting -/

/-- Where a call that waits for a node to become primary has got to. -/
inductive AwaitPoint where
  | check
  /-- It waits for the gate to settle. -/
  | gate
  | readStatus
  deriving DecidableEq

namespace AwaitPoint

/-- The activity can take a step of its own. -/
def isReady (e : Elector) : AwaitPoint → Bool
  | gate => e.gate.isSettled
  | _ => true

/-- One step of its own.  Only a standby has something to wait for. -/
def step (e : Elector) : AwaitPoint → Turn AwaitPoint State
  | check =>
    match e.status with
    | .running => .finish e .running
    | .standby => .go e gate
    | other => .finish e other [.notWaiting other]
  | gate => .go e readStatus (if e.gate = .closed then [.stoppedBeforePromotion] else [])
  | readStatus => .finish e e.status

end AwaitPoint

/-! ## Callbacks -/

/-- Where the registration of a callback has got to. -/
inductive NotifyPoint where
  | register (callback : String)
  | readGate
  | callBack
  deriving DecidableEq

namespace NotifyPoint

/-- One step.  A promotion may have taken the slot before this registration came, so an open gate
is looked for afterwards. -/
def step (e : Elector) : NotifyPoint → Turn NotifyPoint Unit
  | register callback => .go (e.register callback) readGate
  | readGate => if e.gate = .released then .go e callBack else .finish e ()
  | callBack =>
    let (e, events) := e.fire
    .finish e () events

end NotifyPoint

end Primacy.Election
