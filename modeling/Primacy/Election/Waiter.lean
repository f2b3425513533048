/-
  Primacy.Election.Waiter

  The waiter of a standby: it competes for the lock until it is granted or a stop is requested.
  A grant and a stop may race, so it looks for a stop once more after a grant.
-/
import Primacy.Election.Promotion

namespace Primacy.Election

/-- Where a waiter has got to. -/
inductive WaiterPoint where
  /-- It waits for the lock or for a stop. -/
  | await
  | checkShutdown
  | unlockStopped
  | promote (p : PromotionPoint)
  | unlockRefused
  deriving DecidableEq

namespace WaiterPoint

def request? (e : Elector) : WaiterPoint → Option Request
  | await => some .lock
  | unlockStopped => some .unlock
  | promote p => p.request? e
  | unlockRefused => some .unlock
  | _ => none

/-- The waiter can take a step of its own. -/
def isReady (e : Elector) : WaiterPoint → Bool
  | await => e.shutdown
  | p => (p.request? e).isNone

/-- Marks the waiter as ended. -/
def conclude (e : Elector) (inError : Bool) (events : List Event := []) : Turn WaiterPoint Unit :=
  .finish { e with waiter := .ended inError } () events

/-- The end of a promotion ends the waiter, unless the lock has to be given back. -/
def settlePromotion (t : Turn PromotionPoint Promotion) : Turn WaiterPoint Unit :=
  match t.next with
  | .inl p => .go t.elector (promote p) t.events
  | .inr .refused => .go t.elector unlockRefused t.events
  | .inr _ => conclude t.elector false t.events

/-- One step of its own. -/
def step (e : Elector) : WaiterPoint → Turn WaiterPoint Unit
  | await => conclude e false
  | checkShutdown =>
    if e.shutdown then .go e unlockStopped [.grantedAfterStop] else .go e (promote .run)
  | promote p => settlePromotion (p.step .deferred e)
  | p => .go e p

/-- Goes on with the answer to its request. -/
def reply (e : Elector) (r : Reply) : WaiterPoint → Turn WaiterPoint Unit
  | await =>
    match r with
    | .ok _ => .go e checkShutdown
    | .error err =>
      conclude { e with waiterFailure := some err.message } true [.waiterFailed]
  | unlockStopped =>
    match r with
    | .ok _ => conclude e false
    | .error _ => conclude e true
  | promote p => settlePromotion (p.reply e r)
  | unlockRefused =>
    conclude e false (match r with | .ok _ => [] | .error _ => [.refusedLockKept])
  | p => .go e p

/-- What is left of an elector when its waiter breaks down. -/
def abandon (e : Elector) : Elector := { e with waiter := .ended true }

end WaiterPoint

end Primacy.Election
