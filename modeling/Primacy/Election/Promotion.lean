/-
  Primacy.Election.Promotion

  How a node that was granted the lock becomes primary: it runs, publishes the primary record,
  opens the gate, logs the marker and calls back, in this order.  The record is written before the
  gate opens, so whoever the gate lets through reads a complete one.
-/
import Primacy.Election.Elector

namespace Primacy.Election

/-- How a promotion ended. -/
inductive Promotion where
  | promoted
  /-- The node may not run; whoever tried still owns the lock. -/
  | refused
  /-- A stop came in between and releases the lock. -/
  | superseded
  deriving DecidableEq

/-- On which way a node came to be promoted. -/
inductive Route where
  /-- It won the lock when it started. -/
  | immediate
  /-- Its waiter won the lock later. -/
  | deferred
  deriving DecidableEq

def Route.marker : Route → Event
  | .immediate => .acquired
  | .deferred => .resumed

/-- Where a promotion has got to. -/
inductive PromotionPoint where
  | run
  | checkShutdown
  | putHost
  | putPort
  | openGate
  | callBack
  deriving DecidableEq

namespace PromotionPoint

def request? (e : Elector) : PromotionPoint → Option Request
  | putHost => some (.put Registry.primaryHostKey e.identity.host)
  | putPort => some (.put Registry.primaryPortKey (toString e.port))
  | _ => none

/-- One step at a point that makes no request. -/
def step (route : Route) (e : Elector) : PromotionPoint → Turn PromotionPoint Promotion
  | run =>
    if e.status.canBecome .running then .go { e with status := .running } checkShutdown
    else .finish e .refused [.promotionRefused e.status]
  | checkShutdown =>
    -- the stop sees the node running and releases the lock itself
    if e.shutdown then .finish e .superseded else .go e putHost
  | openGate =>
    let (opened, gate) := e.gate.release
    if opened then .go { e with gate := gate } callBack [route.marker]
    else .finish e .superseded
  | callBack =>
    let (e, events) := e.fire
    .finish e .promoted events
  | p => .go e p

/-- Goes on with the answer to a request.  A registry that fails does not hold up a promotion. -/
def reply (e : Elector) (r : Reply) : PromotionPoint → Turn PromotionPoint Promotion
  | putHost =>
    match r with
    | .ok _ => .go e putPort
    | .error _ => .go e openGate [.recordNotPublished]
  | putPort =>
    match r with
    | .ok _ => .go e openGate
    | .error _ => .go e openGate [.recordNotPublished]
  | p => .go e p

end PromotionPoint

end Primacy.Election
