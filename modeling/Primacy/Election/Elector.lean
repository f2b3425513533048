/-
  Primacy.Election.Elector

  The state of one elector, and what the activities on it have in common.  An activity (a call, or
  the waiter in the background) moves from point to point; each step touches one thing that others
  can see, so that every interleaving of activities is a sequence of steps.
-/
import Primacy.Election.Event
import Primacy.Election.Gate
import Primacy.Error
import Primacy.Lock.Call
import Primacy.Registry.Key

namespace Primacy.Election

/-- Tells activities apart. -/
abbrev CallId := Nat

/-! ## Taking turns -/

/-- Lets one activity through at a time, in the order of arrival.  Whoever leaves hands over to the
first in the queue. -/
structure Turnstile where
  holder : Option CallId
  queue : List CallId
  deriving DecidableEq, Inhabited

namespace Turnstile

def free : Turnstile := ⟨none, []⟩

/-- Goes through if nobody is inside, and queues up otherwise. -/
def arrive (t : Turnstile) (id : CallId) : Turnstile :=
  match t.holder with
  | none => { t with holder := some id }
  | some _ => { t with queue := t.queue ++ [id] }

def isInside (t : Turnstile) (id : CallId) : Bool := t.holder == some id

def leave (t : Turnstile) : Turnstile := ⟨t.queue.head?, t.queue.tail⟩

/-- Gives up, inside or in the queue. -/
def abandon (t : Turnstile) (id : CallId) : Turnstile :=
  if t.isInside id then t.leave else { t with queue := t.queue.filter (· != id) }

end Turnstile

/-! ## Electors -/

/-- The waiter that competes for the lock on behalf of a standby. -/
inductive WaiterRun where
  | absent
  | active
  | ended (inError : Bool)
  deriving DecidableEq, Inhabited

structure Elector where
  identity : Identity
  /-- The name under which it competes for the lock; no two electors share one. -/
  owner : String
  port : Nat
  nodeDir : Option String
  status : State
  gate : Gate
  callback : Option String
  /-- Keeps starting and stopping apart. -/
  init : Turnstile
  /-- A start has got as far as the lock service. -/
  started : Bool
  /-- A stop was requested, or the elector was dropped. -/
  shutdown : Bool
  /-- The waiter, and whether a stop has yet to collect it. -/
  waiter : WaiterRun
  waiterKept : Bool
  waiterFailure : Option String
  deriving DecidableEq, Inhabited

namespace Elector

def fresh (identity : Identity) (owner : String) (port : Nat) (nodeDir : Option String) :
    Elector where
  identity := identity
  owner := owner
  port := port
  nodeDir := nodeDir
  status := .uninitialized
  gate := .pending
  callback := none
  init := .free
  started := false
  shutdown := false
  waiter := .absent
  waiterKept := false
  waiterFailure := none

/-- What a start writes into the registry for others to see. -/
def endpoints (e : Elector) : List (String × String) :=
  [(Registry.hostKey e.identity, e.identity.host),
   (Registry.portKey e.identity, toString e.port)] ++
  match e.nodeDir with
  | some dir => [(Registry.logDirKey e.identity, dir)]
  | none => []

/-- Nobody holds on to the elector any more. -/
def drop (e : Elector) : Elector := { e with shutdown := true }

/-- Registers a callback in place of an earlier one. -/
def register (e : Elector) (callback : String) : Elector := { e with callback := some callback }

/-- Takes the callback out and calls it. -/
def fire (e : Elector) : Elector × List Event :=
  match e.callback with
  | some c => ({ e with callback := none }, [.fired c])
  | none => (e, [])

def leaveInit (e : Elector) : Elector := { e with init := e.init.leave }

end Elector

/-! ## Requests and turns -/

/-- What an activity asks of the lock service and of the registry. -/
inductive Request where
  | connect (address : String)
  | tryLock
  | lock
  | unlock
  | put (key value : String)
  deriving DecidableEq

/-- The lock call that a request comes to, or the entry that it writes. -/
def Request.target (owner : String) : Request → Lock.Call ⊕ (String × String)
  | connect address => .inl (.connect address)
  | tryLock => .inl (.tryLock owner)
  | lock => .inl (.lock owner)
  | unlock => .inl (.unlock owner)
  | put key value => .inr (key, value)

/-- The answer to a request; the truth value tells whether `tryLock` was granted. -/
abbrev Reply := Except Error Bool

/-- Where one step of an activity leads: to another point, or to its result. -/
structure Turn (π ρ : Type) where
  elector : Elector
  next : π ⊕ ρ
  events : List Event := []

namespace Turn

variable {π π' ρ ρ' : Type}

def go (e : Elector) (p : π) (events : List Event := []) : Turn π ρ := ⟨e, .inl p, events⟩

def finish (e : Elector) (r : ρ) (events : List Event := []) : Turn π ρ := ⟨e, .inr r, events⟩

/-- The same turn as part of a larger activity. -/
def within (t : Turn π ρ) (point : π → π') (result : ρ → π' ⊕ ρ') : Turn π' ρ' where
  elector := t.elector
  next := match t.next with
    | .inl p => .inl (point p)
    | .inr r => result r
  events := t.events

@[simp] theorem within_elector (t : Turn π ρ) (point : π → π') (result : ρ → π' ⊕ ρ') :
    (t.within point result).elector = t.elector := rfl

variable {α : Type} {t : Turn π ρ} {point : π → π'} {result : ρ → π' ⊕ ρ'} {f : π' → α} {g : ρ' → α}

/-- What is read off the end of a turn within a larger activity can be read off the turn itself. -/
theorem elim_within : (t.within point result).next.elim f g =
    t.next.elim (fun p => f (point p)) fun r => (result r).elim f g := by
  unfold within
  cases t.next <;> rfl

theorem elim_within_const {c : α} (hf : ∀ p, f (point p) = c)
    (hg : ∀ r, (result r).elim f g = c) : (t.within point result).next.elim f g = c := by
  rw [elim_within]
  cases t.next with
  | inl p => exact hf p
  | inr r => exact hg r

/-- A larger activity goes on after a turn where the turn leads, or where its result leads. -/
theorem of_within {q : π'} (h : (t.within point result).next = .inl q) :
    (∃ p, t.next = .inl p ∧ q = point p) ∨ ∃ r, t.next = .inr r ∧ result r = .inl q := by
  unfold within at h
  cases hn : t.next with
  | inl p =>
    rw [hn] at h
    exact .inl ⟨p, rfl, (Sum.inl.inj h).symm⟩
  | inr r =>
    rw [hn] at h
    exact .inr ⟨r, rfl, h⟩

theorem ended_of_within {x : ρ'} (h : (t.within point result).next = .inr x) :
    ∃ r, t.next = .inr r ∧ result r = .inr x := by
  unfold within at h
  cases hn : t.next with
  | inl p =>
    rw [hn] at h
    cases h
  | inr r =>
    rw [hn] at h
    exact ⟨r, rfl, h⟩

end Turn

end Primacy.Election
