/-
  Primacy.Election.Stop

  Stopping a node: a stop is requested first of all, then the waiter is awaited, the state becomes
  stopped, the gate closes, and the lock is released if the node was primary.
-/
import Primacy.Election.Elector

namespace Primacy.Election

/-- Where a stop has got to. -/
inductive StopPoint where
  | request
  | arrive
  | queue
  | takeWaiter
  /-- It waits for the waiter to end. -/
  | join
  | halt
  | closeGate (before : State)
  | unlock
  | leave (result : Except Error Unit)

/-- The result of a stop. -/
abbrev StopResult := Except Error Unit

namespace StopPoint

/-- The activity is past the turnstile, and has to leave it if it is broken off. -/
def isInside : StopPoint → Bool
  | request | arrive | queue => false
  | _ => true

def request? : StopPoint → Option Request
  | unlock => some .unlock
  | _ => none

/-- The activity can take a step of its own. -/
def isReady (e : Elector) (me : CallId) : StopPoint → Bool
  | queue => e.init.isInside me
  | join => match e.waiter with
    | .active => false
    | _ => true
  | unlock => false
  | _ => true

/-- One step of its own. -/
def step (e : Elector) (me : CallId) : StopPoint → Turn StopPoint StopResult
  | request => .go { e with shutdown := true } arrive
  | arrive =>
    let init := e.init.arrive me
    .go { e with init := init } (if init.isInside me then takeWaiter else queue)
  | queue => .go e takeWaiter
  | takeWaiter =>
    if e.waiterKept then .go { e with waiterKept := false } join else .go e halt
  | join => .go e halt (if e.waiter = .ended true then [.waiterEndedInError] else [])
  | halt => .go { e with status := .stopped } (closeGate e.status)
  | closeGate before =>
    let e := { e with gate := e.gate.close.2 }
    match before with
    | .running => .go e unlock
    | .stopped => .go e (leave (.ok ()))
    | before => .go e (leave (.ok ())) [.stoppedFrom before]
  | unlock => .go e unlock
  | leave r => .finish e.leaveInit r

/-- Goes on with the answer to its request. -/
def reply (e : Elector) (r : Reply) : StopPoint → Turn StopPoint StopResult
  | unlock =>
    match r with
    | .ok _ => .go e (leave (.ok ())) [.stoppedReleased]
    | .error err => .go e (leave (.error err))
  | p => .go e p

/-- What is left of an elector when the activity is broken off. -/
def abandon (e : Elector) (me : CallId) : StopPoint → Elector
  | queue => { e with init := e.init.abandon me }
  | p => if p.isInside then e.leaveInit else e

end StopPoint

end Primacy.Election
