/-
  Primacy.Failover.Observation

  Who is primary right now, as far as can be told from outside.  The primary record of the registry
  goes first.  Where it is missing or names nobody, the logs are searched for promotion markers;
  since markers of earlier terms stay in the logs, the marked log that was written last decides.
-/
import Primacy.Election.Event
import Primacy.Failover.Request
import Primacy.Files.Search

namespace Primacy.Failover

/-- Keeps the later of two times. -/
def later (seen : Option Int) (written : Int) : Option Int :=
  match seen with
  | none => some written
  | some t => some (if t < written then written else t)

/-- The last time that one of `files` was written which holds a promotion marker. -/
def lastMarkedIn : List LogFile → Option Int → Except FailoverError (Option Int)
  | [], seen => .ok seen
  | f :: files, seen =>
    match f.content with
    | .error fault => .error (.file f.path fault)
    | .ok (bytes, written) =>
      lastMarkedIn files
        (if Files.containsAny bytes Election.promotionMarkers then later seen written else seen)

/-- The last time that a marked log of a node was written. -/
def lastMarked (nodeDir : String) : NodeLogs → Except FailoverError (Option Int)
  | .error fault => .error (.file nodeDir fault)
  | .ok files => lastMarkedIn files none

/-- Keeps the member whose marked log was written last, the earlier one if they are even. -/
def better (best : Option (Int × Member)) (written : Option Int) (m : Member) :
    Option (Int × Member) :=
  match written, best with
  | none, _ => best
  | some t, none => some (t, m)
  | some t, some (seen, b) => if seen < t then some (t, m) else some (seen, b)

/-- Searches the logs of `members` for the one promoted last. -/
def searchLogs : List Member → Option (Int × Member) → Procedure (Option Member)
  | [], best => return best.map (·.2)
  | m :: members, best => do
    let written ← orThrow ((lastMarked m.nodeDir (← ask (.logs m.nodeDir))).mapError Error.failover)
    searchLogs members (better best written m)

/-- The primary among the members of a role, from their logs alone. -/
def primaryFromLogs (roster : List Member) (role : String) : Procedure (Option Member) :=
  searchLogs (roster.filter (·.role == role)) none

/-- The member of a role that a primary record names. -/
def named? (roster : List Member) (role : String) (record : Option Registry.PrimaryRecord) :
    Option Member :=
  record.bind fun r => roster.find? fun m => m.role == role && m.isAt r.host r.port

/-- The primary among the members of a role. -/
def currentPrimary (roster : List Member) (role : String) : Procedure (Option Member) := do
  match named? roster role (← registry Registry.PrimaryRecord.load) with
  | some m => return some m
  | none => primaryFromLogs roster role

end Primacy.Failover
