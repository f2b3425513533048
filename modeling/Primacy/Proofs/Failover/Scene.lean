/-
  Primacy.Proofs.Failover.Scene

  What a driver meets: a registry that answers every request, the logs of nodes, and chance.  The
  registry changes with the requests that are made of it, the logs stay as they are, and every draw
  is another one.
-/
import Primacy.Failover.Takeover
import Primacy.Proofs.Dialogue.Conversation
import Primacy.Proofs.Failover.Order
import Primacy.Proofs.Registry.FileCall

namespace Primacy.Failover

open Registry (Content PrimaryRecord)

variable {α β : Type}

/-! ## Registry procedures, part by part -/

theorem registry_bind (p : Registry.Procedure α) (f : α → Registry.Procedure β) :
    registry (p >>= f) = registry p >>= fun a => registry (f a) := by
  -- on the requests of the first part
  have hbind : ∀ d : Dialogue Registry.Request Registry.Request.Reply (Except RegistryError α),
      registry (ExceptT.mk d >>= f) = registry (ExceptT.mk d) >>= fun a => registry (f a) := by
    intro d
    induction d with
    | done r => cases r <;> rfl
    | ask q next ih =>
      show Dialogue.ask _ _ = Dialogue.ask _ _
      congr 1
      funext r
      exact ih r
  exact hbind p.run

theorem registry_done (r : Except RegistryError α) :
    registry (ExceptT.mk (.done r)) = orThrow (r.mapError Error.registry) := by
  cases r <;> rfl

/-! ## Scene -/

structure Scene where
  registry : Content
  /-- The log files in each directory. -/
  logs : String → NodeLogs
  /-- The numbers that will be drawn, the next one first. -/
  chance : Nat → Nat

namespace Scene

/-- The answer to a request, and the surroundings from then on; none to requests that go beyond the
registry, the logs and chance. -/
def answer? (s : Scene) : (q : Request) → Option (q.Reply × Scene)
  | .registry q => some (s.registry.reply q, { s with registry := s.registry.after q })
  | .logs dir => some (s.logs dir, s)
  | .draw _ => some (s.chance 0, { s with chance := fun k => s.chance (k + 1) })
  | _ => none

/-- What a procedure goes through, what it comes to and what it leaves. -/
def run? (s : Scene) (p : Procedure α) :
    Option (List Exchange × Except Error α × Scene) :=
  p.run.converse? answer? s

variable {s s' s'' : Scene} {past later : List Exchange}

theorem leads_of_run? {p : Procedure α} {r : Except Error α}
    (run : s.run? p = some (past, r, s')) : p.run.Leads past (.done r) :=
  Dialogue.leads_of_converse? run

theorem run?_bind {p : Procedure α} {f : α → Procedure β} {a : α} {r : Except Error β}
    (first : s.run? p = some (past, .ok a, s'))
    (second : s'.run? (f a) = some (later, r, s'')) :
    s.run? (p >>= f) = some (past ++ later, r, s'') := by
  rw [run?, ExceptT.run_bind]
  exact Dialogue.converse?_bind first second

/-- A procedure ends with the failure of its first part. -/
theorem run?_bind_error {p : Procedure α} {f : α → Procedure β} {e : Error}
    (first : s.run? p = some (past, .error e, s')) :
    s.run? (p >>= f) = some (past, .error e, s') := by
  rw [run?, ExceptT.run_bind, ← List.append_nil past]
  exact Dialogue.converse?_bind first rfl

theorem run?_ask {q : Request} {r : q.Reply} (answer : s.answer? q = some (r, s')) :
    s.run? (ask q) = some ([⟨q, r⟩], .ok r, s') := by
  rw [run?, ask, ExceptT.run_lift]
  have hasked : (Dialogue.request q).converse? answer? s = some ([⟨q, r⟩], r, s') :=
    Dialogue.converse?_ask answer rfl
  exact Dialogue.converse?_bind hasked rfl

/-- A request to the registry is answered, and it may fail. -/
theorem run?_call (s : Scene) (q : Registry.Request) :
    s.run? (Failover.registry (Registry.call q)) =
      some ([⟨.registry q, s.registry.reply q⟩], (s.registry.reply q).mapError Error.registry,
        { s with registry := s.registry.after q }) := by
  rw [run?, run_registry_call]
  exact Dialogue.converse?_ask rfl rfl

theorem run?_get (s : Scene) (key : String) :
    s.run? (Failover.registry (Registry.call (.get key))) =
      some ([getting key (s.registry.entries.get? key)], .ok (s.registry.entries.get? key), s) :=
  s.run?_call (.get key)

theorem run?_put (s : Scene) (key value : String) :
    s.run? (Failover.registry (Registry.call (.put key value))) =
      some ([putting key value], .ok (),
        { s with registry := s.registry.after (.put key value) }) :=
  s.run?_call (.put key value)

/-! ## The primary record -/

/-- The primary record that the entries of the registry make up. -/
def record (s : Scene) : Except RegistryError (Option PrimaryRecord) :=
  PrimaryRecord.ofEntries (s.registry.entries.get? Registry.primaryHostKey)
    (s.registry.entries.get? Registry.primaryPortKey)

/-- A reading of both halves of the primary record. -/
def reading (s : Scene) : List Exchange :=
  [getting Registry.primaryHostKey (s.registry.entries.get? Registry.primaryHostKey),
    getting Registry.primaryPortKey (s.registry.entries.get? Registry.primaryPortKey)]

/-- The surroundings once `record` was published. -/
def publishing (s : Scene) (record : PrimaryRecord) : Scene :=
  { s with
    registry := (s.registry.after (.put Registry.primaryHostKey record.host)).after
      (.put Registry.primaryPortKey (toString record.port)) }

theorem run?_load (s : Scene) : s.run? (Failover.registry PrimaryRecord.load) =
    some (s.reading, s.record.mapError Error.registry, s) := by
  rw [PrimaryRecord.load, registry_bind]
  refine run?_bind (s.run?_get _) ?_
  rw [registry_bind]
  refine run?_bind (s.run?_get _) ?_
  rw [registry_done]
  rfl

theorem run?_publish (s : Scene) (record : PrimaryRecord) :
    s.run? (Failover.registry record.publish) =
      some ([putting Registry.primaryHostKey record.host,
        putting Registry.primaryPortKey (toString record.port)], .ok (), s.publishing record) := by
  rw [PrimaryRecord.publish, registry_bind]
  exact run?_bind (s.run?_put _ _) (run?_put _ _ _)

/-! ## Who is primary -/

variable {roster : List Member} {role : String}

/-- A record that cannot be read is an error. -/
theorem run?_currentPrimary_of_error {e : RegistryError} (unread : s.record = .error e) :
    s.run? (currentPrimary roster role) = some (s.reading, .error (.registry e), s) := by
  have hload := s.run?_load
  rw [unread] at hload
  exact run?_bind_error hload

/-- A record that names somebody decides. -/
theorem run?_currentPrimary_of_named {record : Option PrimaryRecord} {m : Member}
    (read : s.record = .ok record) (named : named? roster role record = some m) :
    s.run? (currentPrimary roster role) = some (s.reading, .ok (some m), s) := by
  have hload := s.run?_load
  rw [read] at hload
  rw [← List.append_nil s.reading]
  refine run?_bind hload ?_
  simp only [named]
  rfl

/-- A record that names nobody leaves it to the logs. -/
theorem run?_currentPrimary_of_unnamed {record : Option PrimaryRecord}
    {r : Except Error (Option Member)} (read : s.record = .ok record)
    (unnamed : named? roster role record = none)
    (search : s.run? (primaryFromLogs roster role) = some (past, r, s')) :
    s.run? (currentPrimary roster role) = some (s.reading ++ past, r, s') := by
  have hload := s.run?_load
  rw [read] at hload
  refine run?_bind hload ?_
  simp only [unnamed]
  exact search

end Scene

end Primacy.Failover
