/-
  Primacy.Proofs.Failover.Work

  Bringing nodes down and up again, step by step.  The steps for one node follow those for another,
  and the first step that fails is the last one to be taken.
-/
import Primacy.Failover.Restart
import Primacy.Proofs.Dialogue.Exchange

namespace Primacy.Failover

/-- What a driver goes through until it comes to an `α`. -/
abbrev Talk (α : Type) : Type := Dialogue Request Request.Reply α

abbrev Exchange : Type := Primacy.Exchange Request Request.Reply

/-! ## Steps -/

/-- The error that a step comes to, if it fails. -/
def failure? : Exchange → Option Error
  | ⟨.terminate .., .error e⟩ => some e
  | ⟨.writeLine _ path _, .error fault⟩ => some (.failover (.file path fault))
  | ⟨.launch .., .error e⟩ => some e
  | ⟨.launch role _, .ok code⟩ =>
    if code ≠ 0 then some (.failover (.launchFailed role code)) else none
  | _ => none

/-- Takes one step after the other, up to the first that fails. -/
def takeSteps : List Request → Talk (Except Error Unit)
  | [] => .done (.ok ())
  | q :: qs => .ask q fun r =>
    match failure? ⟨q, r⟩ with
    | none => takeSteps qs
    | some e => .done (.error e)

/-- The step that makes the configuration line of a node the content of the file of its role: in the
configuration directory, named for the role in the plural. -/
def Driver.saving (d : Driver) (m : Member) : Request :=
  .writeLine d.settings.confDir (Path.join d.settings.confDir (m.role ++ "s")) (m.fragment ++ "\n")

/-- The steps that bring a node down and up again. -/
def Driver.steps (d : Driver) (m : Member) : List Request :=
  .terminate m.role m.nodeDir ::
    ((if d.settings.regenerateConfig then [d.saving m] else []) ++ [.launch m.role m.args])

variable {past : List Exchange} {qs : List Request} {rest : Talk (Except Error Unit)}

/-- Steps behind others are taken once those were. -/
theorem takeSteps_append (ps qs : List Request) : takeSteps (ps ++ qs) =
    (do ExceptT.mk (takeSteps ps); ExceptT.mk (takeSteps qs) : Procedure Unit).run := by
  induction ps with
  | nil => rfl
  | cons p ps ih =>
    show Dialogue.ask _ _ = Dialogue.ask _ _
    congr 1
    funext r
    dsimp only [Dialogue.bind]
    cases failure? ⟨p, r⟩ with
    | none => exact ih
    | some e => rfl

/-- No other steps are taken. -/
theorem takeSteps_asks (qs : List Request) : (takeSteps qs).Asks (· ∈ qs) := by
  induction qs with
  | nil => trivial
  | cons q qs ih =>
    refine ⟨List.mem_cons_self, fun r => ?_⟩
    dsimp only
    split
    · exact ih.mono fun _ => List.mem_cons_of_mem q
    · trivial

/-- Steps were taken without failure up to some point, or up to the first one to fail. -/
theorem of_takeSteps_leads (h : (takeSteps qs).Leads past rest) :
    (∃ todo, qs = past.map (·.request) ++ todo ∧ (∀ x ∈ past, failure? x = none) ∧
      rest = takeSteps todo) ∨
    ∃ before x todo e, past = before ++ [x] ∧ qs = past.map (·.request) ++ todo ∧
      (∀ y ∈ before, failure? y = none) ∧ failure? x = some e ∧ rest = .done (.error e) := by
  induction qs generalizing past with
  | nil =>
    obtain ⟨rfl, rfl⟩ := h.of_done
    exact .inl ⟨[], rfl, nofun, rfl⟩
  | cons q qs ih =>
    rcases h.of_ask with ⟨rfl, rfl⟩ | ⟨r, past, rfl, hrest⟩
    · exact .inl ⟨q :: qs, rfl, nofun, rfl⟩
    · cases hq : failure? ⟨q, r⟩ with
      | some e =>
        simp only [hq] at hrest
        obtain ⟨rfl, rfl⟩ := hrest.of_done
        exact .inr ⟨[], ⟨q, r⟩, qs, e, rfl, rfl, nofun, hq, rfl⟩
      | none =>
        simp only [hq] at hrest
        rcases ih hrest with ⟨todo, rfl, hfine, rfl⟩ | ⟨before, x, todo, e, rfl, hqs, hfine, hx, rfl⟩
        · exact .inl ⟨todo, rfl, List.forall_mem_cons.mpr ⟨hq, hfine⟩, rfl⟩
        · refine .inr ⟨⟨q, r⟩ :: before, x, todo, e, rfl, ?_, ?_, hx, rfl⟩
          · rw [hqs]
            rfl
          · exact List.forall_mem_cons.mpr ⟨hq, hfine⟩

/-! ## The work of a driver -/

namespace Driver

theorem run_launch (role : String) (args : List String) :
    (launch role args).run = takeSteps [.launch role args] := by
  show Dialogue.ask _ _ = Dialogue.ask _ _
  congr 1
  funext r
  cases r with
  | error e => rfl
  | ok code =>
    show ExceptT.run (if code ≠ 0 then _ else _) = _
    by_cases hcode : code = 0
    · subst hcode
      rfl
    · rw [if_pos hcode]
      dsimp only [failure?]
      rw [if_pos hcode]
      rfl

theorem run_writeFragment (d : Driver) (m : Member) :
    (d.writeFragment m).run = takeSteps [d.saving m] := by
  show Dialogue.ask _ _ = Dialogue.ask _ _
  congr 1
  funext r
  cases r <;> rfl

theorem run_killAndRestart (d : Driver) (m : Member) :
    (d.killAndRestart m).run = takeSteps (d.steps m) := by
  show Dialogue.ask _ _ = Dialogue.ask _ _
  congr 1
  funext r
  cases r with
  | error e => rfl
  | ok _ =>
    show ExceptT.run (if d.settings.regenerateConfig = true then _ else _) = takeSteps _
    split
    · rw [takeSteps_append, ← run_writeFragment, ← run_launch]
      rfl
    · exact run_launch m.role m.args

theorem run_killAndRestartAll (d : Driver) (members : List Member) :
    (d.killAndRestartAll members).run = takeSteps (members.flatMap d.steps) := by
  induction members with
  | nil => rfl
  | cons m members ih =>
    rw [List.flatMap_cons, takeSteps_append, ← run_killAndRestart, ← ih]
    rfl

/-- The steps for a node stop it, write to the disk or start it. -/
theorem mem_steps {d : Driver} {m : Member} {q : Request} (h : q ∈ d.steps m) :
    q = .terminate m.role m.nodeDir ∨ (d.settings.regenerateConfig = true ∧ q = d.saving m) ∨
      q = .launch m.role m.args := by
  unfold steps at h
  split at h <;> simp_all

end Driver

end Primacy.Failover
