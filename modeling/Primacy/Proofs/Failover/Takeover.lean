/-
  Primacy.Proofs.Failover.Takeover

  Watching for a new primary.  Time goes by while the driver sleeps and at no other time, so it
  polls once an interval, from the moment when it begins.  The watch ends with the first poll that
  fails, that names somebody other than the previous primary, or that is made when the time is up.
-/
import Mathlib.Data.Nat.Find
import Primacy.Failover.Takeover
import Primacy.Proofs.Dialogue.Conversation
import Primacy.Proofs.Failover.Gate
import Primacy.Proofs.Failover.Refreshment

namespace Primacy.Failover

/-! ## Time -/

/-- How long a request keeps whoever makes it waiting. -/
def Request.duration : Request → Nat
  | .sleep n => n
  | _ => 0

/-- How long exchanges took. -/
def elapsed (past : List Exchange) : Nat :=
  past.foldr (fun x time => x.request.duration + time) 0

section

variable {start : Nat} {past later : List Exchange}

end

/-! ## Single polls -/

/-- One look at who is primary: what was asked for it, and what it came to. -/
structure Poll (d : Driver) where
  past : List Exchange
  answer : Except Error (Option Member)
  leads : (currentPrimary d.roster d.settings.leadTarget).run.Leads past (.done answer)

/-- What a watch ends with at a poll that comes to `answer`, if it ends because of it: an error, or
a primary other than `previous`. -/
def verdict? (previous : Option Member) :
    Except Error (Option Member) → Option (Except Error (Option Member))
  | .error e => some (.error e)
  | .ok none => none
  | .ok (some m) => if previous = some m then none else some (.ok (some m))

section

variable {previous : Option Member} {answer : Except Error (Option Member)} {m : Member}

end

/-! ## A watch, poll by poll -/

namespace Driver

variable {d : Driver} {previous : Option Member} {deadline bound start now : Nat}
  {past : List Exchange} {result : Except Error (Option Member)}

/-- What a poll at the time `now` comes to is done with; unless it ends the watch by itself, the
stopwatch is read behind it. -/
def closing (previous : Option Member) (now : Nat) (p : Poll d) : List Exchange :=
  p.past ++ if (verdict? previous p.answer).isNone then [⟨.stopwatch, now⟩] else []

/-- What a driver that watches from the time `now` on goes through up to its poll `n`, the last one:
behind every earlier poll it is not late yet, and the driver sleeps. -/
def course (previous : Option Member) (polls : Nat → Poll d) (now n : Nat) : List Exchange :=
  (List.range n).flatMap (fun k => (polls k).past ++
    [⟨.stopwatch, now + k * d.settings.primaryPollInterval⟩,
      ⟨.sleep d.settings.primaryPollInterval, ()⟩]) ++
  closing previous (now + n * d.settings.primaryPollInterval) (polls n)

/-- Poll `n` is the first one that ends a watch from the time `now` on: because of what it comes to,
or because it is not made before `deadline`. -/
structure Ends (previous : Option Member) (deadline now : Nat) (polls : Nat → Poll d) (n : Nat) :
    Prop where
  vain : ∀ k < n, verdict? previous (polls k).answer = none ∧
    now + k * d.settings.primaryPollInterval < deadline
  last : (verdict? previous (polls n).answer).isSome ∨
    deadline ≤ now + n * d.settings.primaryPollInterval

/-- The polls behind the first one. -/
def later (polls : Nat → Poll d) (k : Nat) : Poll d := polls (k + 1)

section

variable {polls : Nat → Poll d} {n : Nat}

/-- The poll `p`, and then `polls`. -/
def preceded (p : Poll d) (polls : Nat → Poll d) : Nat → Poll d
  | 0 => p
  | k + 1 => polls k

/-- The poll that ends the watch is made as soon as it is late, or before. -/
theorem Ends.le (ends : Ends previous deadline now polls n)
    (enough : deadline ≤ now + bound * d.settings.primaryPollInterval) : n ≤ bound := by
  refine Nat.le_of_not_lt fun hlt => ?_
  exact absurd enough (Nat.not_le.mpr (ends.vain bound hlt).2)

end

/-! ## The whole watch -/

/-- The registry gives the address of a lead as that of the primary. -/
def recordedAt (host port : String) : Scene where
  registry := ⟨[(Registry.primaryHostKey, host), (Registry.primaryPortKey, port)], []⟩
  logs := promotedAtSeven.logs
  chance := fun _ => 0

/-- The lead that was primary. -/
def formerLead : Member := .ofIdentity ⟨"host-a", 11, "lead", "lead1"⟩ "a" 8092

theorem record_formerLead : (recordedAt "host-a" "8092").record = .ok (some ⟨"host-a", 8092⟩) := rfl

theorem record_promotedLead :
    (recordedAt "host-b" "8093").record = .ok (some ⟨"host-b", 8093⟩) := rfl

/-- The former lead is named when the watch begins, and the other one from then on. -/
def overtaken : Nat → Poll mending :=
  preceded
    ⟨_, .ok (some formerLead),
      Scene.leads_of_run? (Scene.run?_currentPrimary_of_named record_formerLead (by rfl))⟩
    fun _ => ⟨_, .ok (some promotedLead),
      Scene.leads_of_run? (Scene.run?_currentPrimary_of_named record_promotedLead (by rfl))⟩

end Driver

end Primacy.Failover
