/-
  Primacy.Lock.Memory

  A lock within one process.  It has at most one holder, who keeps it until he releases it or is
  evicted; those who wait enrol before they try, so that no release passes them unnoticed, and a
  release wakes all of them.
-/
import Primacy.Error
import Primacy.Lock.Call

namespace Primacy.Lock

/-- Tells the waiting calls of one lock apart. -/
abbrev Ticket := Nat

structure Memory where
  reachable : Bool
  /-- The address that the lock was first connected to. -/
  coordinator : Option String
  holder : Option String
  /-- The calls to wake at the next release, the earliest first. -/
  waiting : List Ticket
  deriving DecidableEq, Inhabited

namespace Memory

def fresh : Memory := ⟨true, none, none, []⟩

/-- A lock that refuses every connection. -/
def unreachable : Memory := ⟨false, none, none, []⟩

/-- Connects to an address; the first one is kept. -/
def connect (m : Memory) (address : String) : Except LockError Memory :=
  if !m.reachable then .error (.unavailable s!"coordinator {address} is unreachable")
  else .ok { m with coordinator := m.coordinator <|> some address }

/-- Grants the lock to `owner` if it is free or `owner` holds it; says whether it did. -/
def tryAcquire (m : Memory) (owner : String) : Except LockError (Bool × Memory) :=
  if m.coordinator.isNone then .error (.unavailable "memory lock service is not connected")
  else match m.holder with
    | none => .ok (true, { m with holder := some owner })
    | some current => .ok (current == owner, m)

/-- Adds a call to those the next release wakes. -/
def enrol (m : Memory) (t : Ticket) : Memory := { m with waiting := m.waiting ++ [t] }

/-- Takes a call back out. -/
def withdraw (m : Memory) (t : Ticket) : Memory :=
  { m with waiting := m.waiting.filter (· != t) }

/-- Frees the lock if `owner` holds it; those who wait are not woken yet. -/
def clear? (m : Memory) (owner : String) : Option Memory :=
  if m.holder = some owner then some { m with holder := none } else none

/-- Wakes all who wait. -/
def wakeAll (m : Memory) : List Ticket × Memory := (m.waiting, { m with waiting := [] })

/-- What comes of one look at a call: its answer, or none while it has to wait. -/
def serve (m : Memory) (t : Ticket) : Call → Option (Except LockError Bool) × Memory
  | .connect address =>
    match m.connect address with
    | .ok m => (some (.ok true), m)
    | .error e => (some (.error e), m)
  | .tryLock owner =>
    match m.tryAcquire owner with
    | .ok (granted, m) => (some (.ok granted), m)
    | .error e => (some (.error e), m)
  | .lock owner =>
    -- enrolled before the attempt, so that no release in between is missed
    match (m.enrol t).tryAcquire owner with
    | .ok (true, m) => (some (.ok true), m.withdraw t)
    | .ok (false, m) => (none, m)
    | .error e => (some (.error e), m)
  | .unlock owner =>
    match m.clear? owner with
    | some m => (some (.ok true), m.wakeAll.2)
    | none => (some (.error (.notHeld owner)), m)

end Memory

end Primacy.Lock
