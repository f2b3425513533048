/-
  Primacy.Proofs.Failover.Gate

  The shape of a cycle.  It raises the gate counter of its target, and if it is the first to do so
  it goes inside, where it makes no counter requests; whatever it comes to there, it zeroes the
  counter last.  If it is not the first it is over at once.
-/
import Primacy.Failover.Cycle
import Primacy.Proofs.Failover.Work
import Primacy.Proofs.Registry.Answer

namespace Primacy.Failover

namespace Request

/-- The registry counter that a request changes. -/
def counter? : Request → Option String
  | registry q => q.counter?
  | _ => none

/-- The request writes to the registry. -/
def isWrite : Request → Bool
  | registry q => q.changes
  | _ => false

theorem counter?_of_not_isWrite {q : Request} (h : q.isWrite = false) : q.counter? = none := by
  cases q with
  | registry q =>
    cases q with
    | get key => rfl
    | _ => cases h
  | _ => rfl

/-- The request changes more than counters: a node, the disk, or an entry of the registry. -/
def isDeed : Request → Bool
  | registry (.put ..) => true
  | terminate .. => true
  | launch .. => true
  | writeLine .. => true
  | _ => false

/-- The request is answered, and changes nothing. -/
def looks : Request → Bool
  | registry q => !q.changes
  | terminate .. => false
  | launch .. => false
  | writeLine .. => false
  | breakDown => false
  | _ => true

theorem not_isWrite_of_looks {q : Request} (h : q.looks = true) : q.isWrite = false := by
  cases q with
  | registry q => exact (Bool.not_eq_true' _).mp h
  | _ => rfl

theorem not_isDeed_of_looks {q : Request} (h : q.looks = true) : q.isDeed = false := by
  cases q with
  | registry q =>
    cases q with
    | put key value => cases h
    | _ => rfl
  | terminate => cases h
  | launch => cases h
  | writeLine => cases h
  | _ => rfl

end Request

/-! ## What goes on inside -/

/-- The procedure makes no requests but such as `P` holds of. -/
abbrev Confined {α : Type} (P : Request → Prop) (p : Procedure α) : Prop := p.run.Asks P

namespace Confined

variable {α β : Type} {P : Request → Prop}

theorem ret (a : α) : Confined P (pure a : Procedure α) := trivial

theorem fail (e : Error) : Confined P (throw e : Procedure α) := trivial

theorem orThrow (r : Except Error α) : Confined P (orThrow r) := trivial

theorem bind {p : Procedure α} {f : α → Procedure β} (hp : Confined P p)
    (hf : ∀ a, Confined P (f a)) : Confined P (p >>= f) :=
  asks_run_bind hp hf

theorem ask {q : Request} (hq : P q) : Confined P (Failover.ask q) :=
  asks_run_lift (Dialogue.asks_request hq)

theorem registry {p : Registry.Procedure α} (hp : p.run.Asks fun q => P (.registry q)) :
    Confined P (Failover.registry p) := by
  refine bind (asks_run_lift (Dialogue.Asks.embed hp)) fun r => ?_
  cases r with
  | ok a => exact ret a
  | error e => exact fail _

end Confined

/-- The procedure changes nothing. -/
abbrev Looks {α : Type} (p : Procedure α) : Prop := Confined (fun q => q.looks = true) p

namespace Looks

theorem get (key : String) : Looks (Failover.registry (Registry.call (.get key))) :=
  .registry (Dialogue.asks_request rfl)

theorem getInt64 (key : String) : Looks (Failover.registry (Registry.getInt64 key)) := by
  refine .registry (asks_run_bind (Dialogue.asks_request rfl) fun raw => ?_)
  cases raw with
  | none => trivial
  | some raw =>
    dsimp only
    split
    · trivial
    · trivial

theorem loadRecord : Looks (Failover.registry Registry.PrimaryRecord.load) := by
  refine .registry (asks_run_bind (Dialogue.asks_request rfl) fun host => ?_)
  exact asks_run_bind (Dialogue.asks_request rfl) fun port => trivial

theorem searchLogs (members : List Member) (best : Option (Int × Member)) :
    Looks (searchLogs members best) := by
  induction members generalizing best with
  | nil => exact .ret _
  | cons m members ih =>
    refine .bind (.ask rfl) fun logs => ?_
    exact .bind (.orThrow _) fun written => ih _

theorem currentPrimary (roster : List Member) (role : String) :
    Looks (currentPrimary roster role) := by
  refine .bind loadRecord fun record => ?_
  split
  · exact .ret _
  · exact searchLogs _ _

theorem drawFrom (n : Nat) (pool : List Member) : Looks (drawFrom n pool) := by
  induction n generalizing pool with
  | zero => exact .ret _
  | succ n ih =>
    cases pool with
    | nil => exact .ret _
    | cons m pool =>
      refine .bind (.ask rfl) fun i => ?_
      exact .bind (ih _) fun rest => .ret _

theorem selectVictims (d : Driver) (n : Nat) (role : String) :
    Looks (d.selectVictims n role) := by
  unfold Driver.selectVictims
  split
  · exact .bind (currentPrimary _ _) fun primary => drawFrom _ _
  · exact drawFrom _ _

/-- Whoever looks whether it may cycle changes nothing, but it may break down. -/
theorem mayCycle (d : Driver) (t : Target) :
    Confined (fun q => q.looks = true ∨ q = .breakDown) (d.mayCycle t) := by
  refine .bind ((get _).mono fun _ => .inl) fun cycled => ?_
  cases cycled with
  | none => exact .ret _
  | some _ =>
    refine .bind ((getInt64 _).mono fun _ => .inl) fun last => ?_
    cases last with
    | none => exact .bind (.ask (.inl rfl)) fun _ => .ret _
    | some last =>
      refine .bind (.ask (.inl rfl)) fun now => ?_
      split
      · exact .ret _
      · exact .bind (.ask (.inr rfl)) nofun

end Looks

/-- The procedure writes nothing to the registry. -/
abbrev SparesRegistry {α : Type} (p : Procedure α) : Prop := Confined (fun q => q.isWrite = false) p

namespace SparesRegistry

theorem selectVictims (d : Driver) (n : Nat) (role : String) :
    SparesRegistry (d.selectVictims n role) :=
  (Looks.selectVictims d n role).mono fun _ => Request.not_isWrite_of_looks

theorem mayCycle (d : Driver) (t : Target) : SparesRegistry (d.mayCycle t) := by
  refine (Looks.mayCycle d t).mono fun q hq => ?_
  rcases hq with hq | rfl
  · exact Request.not_isWrite_of_looks hq
  · rfl

theorem killAndRestartAll (d : Driver) (members : List Member) :
    SparesRegistry (d.killAndRestartAll members) := by
  unfold SparesRegistry Confined
  rw [d.run_killAndRestartAll]
  refine (takeSteps_asks _).mono fun q hq => ?_
  obtain ⟨m, -, hq⟩ := List.mem_flatMap.mp hq
  rcases Driver.mem_steps hq with rfl | ⟨-, rfl⟩ | rfl <;> rfl

end SparesRegistry

/-- The procedure leaves the counters alone. -/
abbrev SparesCounters {α : Type} (p : Procedure α) : Prop :=
  Confined (fun q => q.counter? = none) p

namespace SparesCounters

variable {α : Type}

theorem of_sparesRegistry {p : Procedure α} (hp : SparesRegistry p) : SparesCounters p :=
  hp.mono fun _ => Request.counter?_of_not_isWrite

theorem put (key value : String) :
    SparesCounters (registry (Registry.call (.put key value))) :=
  asks_run_bind (asks_run_lift (Dialogue.Asks.embed (Dialogue.asks_request rfl))) fun r => by
    cases r <;> trivial

theorem cycleInside (d : Driver) (t : Target) : SparesCounters (d.cycleInside t) := by
  refine asks_run_bind (of_sparesRegistry (.mayCycle d t)) fun may => ?_
  split
  · refine asks_run_bind (of_sparesRegistry (.selectVictims d _ _)) fun victims => ?_
    refine asks_run_bind (of_sparesRegistry (.killAndRestartAll d victims)) fun _ => ?_
    split
    · exact Confined.ret _
    · refine asks_run_bind (Confined.ask rfl) fun finished => ?_
      refine asks_run_bind (put _ _) fun _ => asks_run_bind (put _ _) fun _ => ?_
      exact Confined.ret _
  · exact Confined.ret _

end SparesCounters

/-! ## The gate -/

/-- What a cycle comes to, given what came of its inside and of zeroing the counter. -/
def conclude (outcome : Except Error CycleOutcome) (reopened : Except RegistryError Unit) :
    Except Error CycleOutcome :=
  match outcome, reopened with
  | .ok _, .error e => .error (.registry e)
  | outcome, _ => outcome

/-- What is left to do for whoever was inside. -/
def reopen (t : Target) (outcome : Except Error CycleOutcome) :
    Talk (Except Error CycleOutcome) :=
  .ask (.registry (.zero t.gateCounter)) fun r => .done (conclude outcome r)

/-- How a cycle goes on when it is told how often the counter was raised. -/
def Driver.admitted (d : Driver) (t : Target) :
    Except RegistryError Int → Talk (Except Error CycleOutcome)
  | .error e => .done (.error (.registry e))
  | .ok turn =>
    if turn = 1 then (d.cycleInside t).run >>= reopen t else .done (.ok .notMyTurn)

theorem run_registry_call (q : Registry.Request) : (registry (Registry.call q)).run =
    .ask (.registry q) fun r => .done (r.mapError Error.registry) := by
  show Dialogue.ask _ _ = _
  congr 1
  funext r
  cases r <;> rfl

/-- A cycle is the request at the gate, then the inside, then the request that opens the gate. -/
theorem Driver.run_cycle (d : Driver) (t : Target) : (d.cycle t).run =
    if d.settings.cycleNodes then .ask (.registry (.increment t.gateCounter)) (d.admitted t)
    else .done (.ok .disabled) := by
  unfold Driver.cycle
  cases h : d.settings.cycleNodes with
  | false => rfl
  | true =>
    simp only [Bool.not_true, Bool.false_eq_true, if_false, if_true]
    show Dialogue.ask _ _ = _
    congr 1
    funext r
    cases r with
    | error e => rfl
    | ok turn =>
      show ExceptT.run (if decide (turn = 1) = true then _ else _) = _
      by_cases hturn : turn = 1
      · rw [admitted, if_pos hturn, if_pos (decide_eq_true hturn), ExceptT.run_bind_lift]
        congr 1
        funext outcome
        rw [ExceptT.run_bind_lift, run_registry_call]
        show Dialogue.ask _ _ = _
        rw [reopen]
        congr 1
        funext r
        cases outcome <;> cases r <;> rfl
      · rw [admitted, if_neg hturn, if_neg (by simpa using hturn)]
        rfl

/-! ## Where a cycle stands -/

/-- The exchange at the gate. -/
def arrival (t : Target) (r : Except RegistryError Int) : Exchange :=
  ⟨.registry (.increment t.gateCounter), r⟩

/-- The exchange that opens the gate again. -/
def reopening (t : Target) (r : Except RegistryError Unit) : Exchange :=
  ⟨.registry (.zero t.gateCounter), r⟩

/-- `Stands t past rest`: after the exchanges `past`, `rest` can be left of a cycle. -/
inductive Stands (t : Target) : List Exchange → Talk (Except Error CycleOutcome) → Prop where
  | disabled : Stands t [] (.done (.ok .disabled))
  | arriving {next : Except RegistryError Int → Talk (Except Error CycleOutcome)} :
      Stands t [] (.ask (.registry (.increment t.gateCounter)) next)
  | failed {e : RegistryError} : Stands t [arrival t (.error e)] (.done (.error (.registry e)))
  | lost {turn : Int} (hturn : turn ≠ 1) :
      Stands t [arrival t (.ok turn)] (.done (.ok .notMyTurn))
  | inside {past : List Exchange} {q : Request}
      {next : q.Reply → Talk (Except Error CycleOutcome)}
      (spared : ∀ x ∈ past, x.request.counter? = none) (spares : q.counter? = none) :
      Stands t (arrival t (.ok 1) :: past) (.ask q next)
  | leaving {past : List Exchange}
      {next : Except RegistryError Unit → Talk (Except Error CycleOutcome)}
      (spared : ∀ x ∈ past, x.request.counter? = none) :
      Stands t (arrival t (.ok 1) :: past) (.ask (.registry (.zero t.gateCounter)) next)
  | left {past : List Exchange} {r : Except RegistryError Unit}
      {result : Except Error CycleOutcome} (spared : ∀ x ∈ past, x.request.counter? = none) :
      Stands t (arrival t (.ok 1) :: (past ++ [reopening t r])) (.done result)

/-- Opening the gate again comes last, whatever the inside came to. -/
theorem of_reopen_leads {t : Target} {past : List Exchange}
    {i rest : Talk (Except Error CycleOutcome)} (h : (i >>= reopen t).Leads past rest) :
    (∃ i', i.Leads past i' ∧ rest = i' >>= reopen t) ∨
    ∃ before outcome r, past = before ++ [reopening t r] ∧ i.Leads before (.done outcome) ∧
      rest = .done (conclude outcome r) := by
  rcases h.of_bind with hinside | ⟨before, after, outcome, rfl, hbefore, hafter⟩
  · exact .inl hinside
  · rcases hafter.of_ask with ⟨rfl, rfl⟩ | ⟨r, after, rfl, hdone⟩
    · refine .inl ⟨.done outcome, ?_, rfl⟩
      rwa [List.append_nil]
    · obtain ⟨rfl, rfl⟩ := hdone.of_done
      exact .inr ⟨before, outcome, r, rfl, hbefore, rfl⟩

/-- Whatever a cycle is answered, it stands at one of the points there are. -/
theorem Driver.stands_of_leads {d : Driver} {t : Target} {past : List Exchange}
    {rest : Talk (Except Error CycleOutcome)} (h : (d.cycle t).run.Leads past rest) :
    Stands t past rest := by
  rw [d.run_cycle] at h
  split at h
  · rcases h.of_ask with ⟨rfl, rfl⟩ | ⟨r, past, rfl, hadmitted⟩
    · exact .arriving
    · cases r with
      | error e =>
        obtain ⟨rfl, rfl⟩ := hadmitted.of_done
        exact .failed
      | ok turn =>
        rw [admitted] at hadmitted
        by_cases hturn : turn = 1
        · subst hturn
          rw [if_pos rfl] at hadmitted
          rcases of_reopen_leads hadmitted with ⟨i, hi, rfl⟩ | ⟨before, outcome, r, rfl, hi, rfl⟩
          · obtain ⟨spared, spares⟩ := (SparesCounters.cycleInside d t).leads hi
            cases i with
            | done outcome => exact .leaving spared
            | ask q next => exact .inside spared spares.1
          · exact .left ((SparesCounters.cycleInside d t).leads hi).1
        · rw [if_neg hturn] at hadmitted
          obtain ⟨rfl, rfl⟩ := hadmitted.of_done
          exact .lost hturn
  · obtain ⟨rfl, rfl⟩ := h.of_done
    exact .disabled

end Primacy.Failover
