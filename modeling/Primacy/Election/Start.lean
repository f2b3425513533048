/-
  Primacy.Election.Start

  Starting a node: it connects to the lock service, publishes where it can be reached, and competes
  for the lock.  A start that does not block ends as primary or as standby with a waiter; one that
  blocks waits for the lock itself, without keeping a stop out meanwhile.
-/
import Primacy.Election.Promotion

namespace Primacy.Election

/-- Where a start has got to. -/
inductive StartPoint where
  | arrive (address : String) (blocking : Bool)
  | queue (address : String) (blocking : Bool)
  | check (address : String) (blocking : Bool)
  | connect (address : String) (blocking : Bool)
  /-- The writes that are left to do. -/
  | publish (writes : List (String × String)) (blocking : Bool)
  | tryLock
  | standBy
  | spawnWaiter
  /-- The waiter is put where a stop collects it. -/
  | keepWaiter
  /-- A start that blocks lets others through. -/
  | leaveEarly
  /-- It waits for the lock or for a stop. -/
  | await
  | checkShutdown
  | unlockStopped
  | promote (blocking : Bool) (p : PromotionPoint)
  | unlockRefused (blocking : Bool)
  | readStatus (blocking : Bool)
  | leave (result : Except Error State)

/-- The result of a start. -/
abbrev StartResult := Except Error State

namespace StartPoint

/-- Where a start begins, given the address of its settings.  Without one it fails before it
touches anything. -/
def enter (address : Except Error String) (blocking : Bool) : Except Error StartPoint := do
  return .arrive (← address) blocking

/-- The activity is past the turnstile, and has to leave it if it is broken off. -/
def isInside : StartPoint → Bool
  | check .. | connect .. | publish .. | tryLock | standBy | spawnWaiter | keepWaiter
  | leaveEarly => true
  | promote blocking _ | unlockRefused blocking | readStatus blocking => !blocking
  | leave _ => true
  | _ => false

def request? (e : Elector) : StartPoint → Option Request
  | connect address _ => some (.connect address)
  | publish ((key, value) :: _) _ => some (.put key value)
  | tryLock => some .tryLock
  | await => some .lock
  | unlockStopped => some .unlock
  | promote _ p => p.request? e
  | unlockRefused _ => some .unlock
  | _ => none

/-- The activity can take a step of its own. -/
def isReady (e : Elector) (me : CallId) : StartPoint → Bool
  | queue .. => e.init.isInside me
  | await => e.shutdown
  | p => (p.request? e).isNone

/-- Ends a start; one that does not block is inside the turnstile until then. -/
def conclude (e : Elector) (blocking : Bool) (r : StartResult) (events : List Event := []) :
    Turn StartPoint StartResult :=
  if blocking then .finish e r events else .go e (leave r) events

/-- What follows the end of a promotion. -/
def afterPromotion (blocking : Bool) : Promotion → StartPoint ⊕ StartResult
  | .refused => .inl (unlockRefused blocking)
  | .promoted => if blocking then .inr (.ok .running) else .inl (readStatus false)
  | .superseded => if blocking then .inr (.ok .stopped) else .inl (readStatus false)

/-- One step of its own. -/
def step (e : Elector) (me : CallId) : StartPoint → Turn StartPoint StartResult
  | arrive address blocking =>
    let init := e.init.arrive me
    .go { e with init := init }
      (if init.isInside me then check address blocking else queue address blocking)
  | queue address blocking => .go e (check address blocking)
  | check address blocking =>
    if e.started || e.status != .uninitialized then
      .go e (leave (.error (ElectionError.alreadyStarted e.status)))
    else .go e (connect address blocking)
  | publish _ blocking => .go e (if blocking then leaveEarly else tryLock)
  | standBy =>
    if e.status.canBecome .standby then
      .go { e with status := .standby } spawnWaiter [.enteredStandby]
    else .go e (leave (.error (ElectionError.invalidTransition e.status .standby)))
  | spawnWaiter => .go { e with waiter := .active } keepWaiter
  | keepWaiter => .go { e with waiterKept := true } (leave (.ok .standby))
  | leaveEarly => .go e.leaveInit await [.waitingForLock]
  | await => .finish e (.ok .stopped) [.interrupted]
  | checkShutdown => .go e (if e.shutdown then unlockStopped else promote true .run)
  | promote blocking p => (p.step .immediate e).within (promote blocking) (afterPromotion blocking)
  | readStatus blocking => conclude e blocking (.ok e.status)
  | leave r => .finish e.leaveInit r
  | p => .go e p

/-- Goes on with the answer to its request. -/
def reply (e : Elector) (r : Reply) : StartPoint → Turn StartPoint StartResult
  | connect address blocking =>
    match r with
    | .ok _ => .go { e with started := true } (publish e.endpoints blocking)
    | .error err => .go e (leave (.error err)) [.coordinatorUnreachable address]
  | publish ((key, _) :: writes) blocking =>
    -- whether an endpoint gets published never decides an election
    match r with
    | .ok _ => .go e (publish writes blocking)
    | .error _ => .go e (publish writes blocking) [.notPublished key]
  | tryLock =>
    match r with
    | .ok true => .go e (promote false .run)
    | .ok false => .go e standBy
    | .error err => .go e (leave (.error err))
  | await =>
    match r with
    | .ok _ => .go e checkShutdown
    | .error err => .finish e (.error err)
  | unlockStopped =>
    .finish e (.ok .stopped) (match r with | .ok _ => [] | .error _ => [.releaseFailed])
  | promote blocking p => (p.reply e r).within (promote blocking) (afterPromotion blocking)
  | unlockRefused blocking =>
    .go e (readStatus blocking) (match r with | .ok _ => [] | .error _ => [.releaseFailed])
  | p => .go e p

/-- What is left of an elector when the activity is broken off. -/
def abandon (e : Elector) (me : CallId) : StartPoint → Elector
  | queue .. => { e with init := e.init.abandon me }
  | p => if p.isInside then e.leaveInit else e

end StartPoint

end Primacy.Election
