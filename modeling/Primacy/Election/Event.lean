/-
  Primacy.Election.Event

  What an elector makes known while it works, and the log line of each event.  Two of the lines are
  markers: the logs of a node that was promoted hold one of them.
-/
import Primacy.Election.State
import Primacy.Identity

namespace Primacy.Election

/-- The marker of a node that won the lock when it started. -/
def acquiredMarker : String := "Primary lock acquired."

/-- The marker of a node that was promoted from standby. -/
def resumedMarker : String := "Resuming startup sequence from STANDBY"

/-- Texts of which a promoted node's log holds one, in whatever case. -/
def promotionMarkers : List String := ["Primary lock acquired", resumedMarker]

inductive Event where
  | acquired
  | resumed
  /-- The promotion callback is called. -/
  | fired (callback : String)
  | coordinatorUnreachable (address : String)
  | notPublished (key : String)
  | recordNotPublished
  | promotionRefused (state : State)
  | waitingForLock
  | interrupted
  | enteredStandby
  | grantedAfterStop
  | waiterFailed
  | releaseFailed
  | refusedLockKept
  | waiterEndedInError
  | stoppedReleased
  | stoppedFrom (state : State)
  | notWaiting (state : State)
  | stoppedBeforePromotion
  deriving DecidableEq

inductive Severity where
  | error
  | warning
  | info
  deriving DecidableEq

namespace Event

/-- The event announces a promotion. -/
def isMarker : Event → Bool
  | acquired => true
  | resumed => true
  | _ => false

/-- The log line of an event of node `i`, if it has one. -/
def line? (i : Identity) : Event → Option (Severity × String)
  | acquired => some (.info, s!"{acquiredMarker} ({i.text})")
  | resumed => some (.info, s!"{resumedMarker} ({i.text})")
  | fired _ => none
  | coordinatorUnreachable address =>
    some (.error, s!"{i.text} cannot reach lock coordinator {address}")
  | notPublished key => some (.warning, s!"{i.text} failed to publish {key}")
  | recordNotPublished => some (.warning, s!"{i.text} could not publish primary record")
  | promotionRefused state =>
    let reason := s!"Invalid state transition from {state.text} to {State.running.text}."
    some (.warning, s!"{i.text} refused promotion: {reason}")
  | waitingForLock => some (.info, s!"{i.text} waiting for the primary lock")
  | interrupted => some (.info, s!"{i.text} stopped while waiting for the primary lock")
  | enteredStandby =>
    some (.info, s!"{i.text} did not get the primary lock, entering {State.standby.text}")
  | grantedAfterStop =>
    some (.info, s!"{i.text} lock granted after stop was requested, releasing it")
  | waiterFailed =>
    some (.error, s!"{i.text} promotion waiter failed, node stays in {State.standby.text}")
  | releaseFailed => some (.warning, s!"{i.text} failed to release lock")
  | refusedLockKept => some (.warning, s!"{i.text} failed to release refused lock")
  | waiterEndedInError => some (.warning, s!"{i.text} promotion waiter ended with error")
  | stoppedReleased => some (.info, s!"{i.text} stopped, primary lock released")
  | stoppedFrom state => some (.info, s!"{i.text} stopped from {state.text}")
  | notWaiting state => some (.info, s!"{i.text} is {state.text}, not waiting for promotion")
  | stoppedBeforePromotion => some (.info, s!"{i.text} stopped before promotion")

end Event

end Primacy.Election
