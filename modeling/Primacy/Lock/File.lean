/-
  Primacy.Lock.File

  A lock between processes: an exclusive lock on a file, which the operating system frees when the
  process that holds it ends.  Several owners may share one handle; it carries the lock for one of
  them at a time.
-/
import Primacy.Error
import Primacy.Files.Access
import Primacy.Lock.Call

namespace Primacy.Lock

open Files (NodeId Tree)

/-! ## Refusals -/

def cannotPrepare (address : String) (f : Files.Fault) : LockError :=
  .unavailable s!"cannot prepare {address}: {f.message}"

def cannotOpen (address : String) (f : Files.Fault) : LockError :=
  .unavailable s!"cannot open {address}: {f.message}"

def notConnected : LockError := .unavailable "file lock service is not connected"

/-! ## Handles -/

/-- A handle: the lock file it was first connected to, and the owner it carries the lock for with
the file that is locked. -/
structure Handle where
  path : Option String
  held : Option (String × NodeId)
  deriving DecidableEq, Inhabited

namespace Handle

def fresh : Handle := ⟨none, none⟩

/-- Connects to a lock file, which is made if need be.  The first path is kept. -/
def connect (h : Handle) (files : Tree) (address : String) :
    Tree × Except LockError Handle :=
  match files.prepareParent address with
  | (files, .error f) => (files, .error (cannotPrepare address f))
  | (files, .ok ()) =>
    match files.openFile address with
    | .error f => (files, .error (cannotOpen address f))
    | .ok (files, _) => (files, .ok { h with path := h.path <|> some address })

/-- Grants the lock to `owner` if nobody holds it or `owner` does.  `locked` holds the files that
are locked by anyone. -/
def tryAcquire (h : Handle) (files : Tree) (locked : List NodeId) (owner : String) :
    Tree × Except LockError (Bool × Handle × List NodeId) :=
  match h.path with
  | none => (files, .error notConnected)
  | some path =>
    match h.held with
    | some (holder, _) => (files, .ok (holder == owner, h, locked))
    | none =>
      match files.openFile path with
      | .error f => (files, .error (.file path f))
      | .ok (files, id) =>
        if locked.contains id then (files, .ok (false, h, locked))
        else (files, .ok (true, { h with held := some (owner, id) }, id :: locked))

/-- Gives the lock back, if `owner` is the one who holds it. -/
def release (h : Handle) (locked : List NodeId) (owner : String) :
    Except LockError (Handle × List NodeId) :=
  match h.held with
  | some (holder, id) =>
    if holder = owner then .ok ({ h with held := none }, locked.erase id)
    else .error (.notHeld owner)
  | none => .error (.notHeld owner)

/-- What comes of one look at a call: its answer, or none while it is to be looked at again.  With
it come the files and those of them that are locked. -/
def serve (h : Handle) (files : Tree) (locked : List NodeId) :
    Call → (Tree × List NodeId) × Option (Except LockError Bool) × Handle
  | .connect address =>
    match h.connect files address with
    | (files, .ok h) => ((files, locked), some (.ok true), h)
    | (files, .error e) => ((files, locked), some (.error e), h)
  | .tryLock owner =>
    match h.tryAcquire files locked owner with
    | (files, .ok (granted, h, locked)) => ((files, locked), some (.ok granted), h)
    | (files, .error e) => ((files, locked), some (.error e), h)
  | .lock owner =>
    match h.tryAcquire files locked owner with
    | (files, .ok (true, h, locked)) => ((files, locked), some (.ok true), h)
    | (files, .ok (false, h, locked)) => ((files, locked), none, h)
    | (files, .error e) => ((files, locked), some (.error e), h)
  | .unlock owner =>
    match h.release locked owner with
    | .ok (h, locked) => ((files, locked), some (.ok true), h)
    | .error e => ((files, locked), some (.error e), h)

/-- What stays locked when nobody uses the handle any more. -/
def abandon (h : Handle) (locked : List NodeId) : List NodeId :=
  match h.held with
  | some (_, id) => locked.erase id
  | none => locked

end Handle

end Primacy.Lock
