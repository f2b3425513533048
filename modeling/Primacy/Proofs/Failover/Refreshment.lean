/-
  Primacy.Proofs.Failover.Refreshment

  The primary record after it was mended.  The record gives only an address, but if no two members
  of a role share one, whoever reads it comes to the member that the logs tell of.
-/
import Primacy.Proofs.Failover.Observation
import Primacy.Proofs.Registry.Record

namespace Primacy.Failover

open Registry (PrimaryRecord)

namespace Scene

variable {s s' : Scene} {past : List Exchange} {roster : List Member} {role : String} {m : Member}
  {record : PrimaryRecord}

/-! ## A record that was published -/

/-- The record is read as it was published. -/
theorem record_publishing (small : record.port ≤ Text.nat16Max) :
    (s.publishing record).record = .ok (some record) := by
  have hhost : (s.publishing record).registry.entries.get? Registry.primaryHostKey =
      some record.host := by
    refine (Registry.Content.get?_after _ _ fun value hput => ?_).trans
      (Registry.Content.get?_after_put ..)
    exact absurd (Registry.Request.put.inj hput).1 (by decide)
  have hport : (s.publishing record).registry.entries.get? Registry.primaryPortKey =
      some (toString record.port) := Registry.Content.get?_after_put ..
  rw [Scene.record, hhost, hport]
  simp only [PrimaryRecord.ofEntries, Text.natUpTo?_toString small]

theorem run?_load_publishing (small : record.port ≤ Text.nat16Max) :
    (s.publishing record).run? (Failover.registry PrimaryRecord.load) =
      some ((s.publishing record).reading, .ok (some record), s.publishing record) := by
  rw [run?_load, record_publishing small]
  rfl

/-! ## Whom the record names -/

/-- The logs tell of nobody but members of the role. -/
theorem mem_of_run?_primaryFromLogs
    (h : s.run? (primaryFromLogs roster role) = some (past, .ok (some m), s')) :
    m ∈ roster ∧ m.role = role := by
  rw [primaryFromLogs] at h
  rcases s.survey_cases (roster.filter (·.role == role)) with
    fine | ⟨before, m', after, e, split, fine, failed⟩
  · rw [run?_searchLogs fine, ← bestOf] at h
    have hbest : (bestOf s.mark? (roster.filter (·.role == role))).map (·.2) = some m :=
      Except.ok.inj (Prod.mk.inj (Prod.mk.inj (Option.some.inj h)).2).1
    rcases bestOf_spec s.mark? (roster.filter (·.role == role)) with
      ⟨hnone, -⟩ | ⟨before, m', after, t, hsome, hmembers, -⟩
    · rw [hnone] at hbest
      cases hbest
    · rw [hsome] at hbest
      obtain rfl : m' = m := Option.some.inj hbest
      have hmem : m' ∈ roster.filter (·.role == role) := by simp [hmembers]
      exact ⟨(List.mem_filter.mp hmem).1, eq_of_beq (List.mem_filter.mp hmem).2⟩
  · rw [split, run?_searchLogs_of_error fine failed] at h
    cases h

end Scene

/-- No two members of a role are reached at the same address. -/
def Distinct (roster : List Member) (role : String) : Prop :=
  ∀ a ∈ roster, ∀ b ∈ roster, a.role = role → b.role = role →
    a.identity.host = b.identity.host → a.port = b.port → a = b

variable {roster : List Member} {role : String} {m : Member}

/-- The address of a member names it, where no other member has it. -/
theorem named?_address (distinct : Distinct roster role) (hm : m ∈ roster) (hrole : m.role = role) :
    named? roster role (some ⟨m.identity.host, m.port⟩) = some m := by
  cases hnamed : named? roster role (some ⟨m.identity.host, m.port⟩) with
  | none =>
    refine absurd ?_ (List.find?_eq_none.mp hnamed m hm)
    exact isAt_iff.mpr ⟨hrole, rfl, rfl⟩
  | some m' =>
    obtain ⟨before, after, hroster, ⟨hrole', hhost, hport⟩, -⟩ := named?_eq_some_iff.mp hnamed
    rw [distinct m' (by simp [hroster]) m hm hrole' hrole hhost hport]

/-! ## Mending the record -/

namespace Driver

variable {d : Driver} {s s' : Scene} {past : List Exchange}

theorem run?_refreshRecord_of_primary
    (search : s.run? (primaryFromLogs d.roster role) = some (past, .ok (some m), s')) :
    ∃ past, s.run? (d.refreshRecord role) =
      some (past, .ok (some ⟨m.identity.host, m.port⟩),
        s'.publishing ⟨m.identity.host, m.port⟩) :=
  ⟨_, Scene.run?_bind search (Scene.run?_bind (s'.run?_publish _) rfl)⟩

theorem run?_refreshRecord_of_nobody
    (search : s.run? (primaryFromLogs d.roster role) = some (past, .ok none, s')) :
    ∃ past, s.run? (d.refreshRecord role) = some (past, .ok none, s') :=
  ⟨_, Scene.run?_bind search rfl⟩

/-- What a driver publishes is read as it was published, and it leads to the member that the logs
told of, whatever the logs are and whatever the registry held before.  A driver that publishes
nothing leaves the registry as it was. -/
theorem refreshRecord_agrees (d : Driver) (role : String) (distinct : Distinct d.roster role)
    (ports : ∀ m ∈ d.roster, m.port ≤ Text.nat16Max) (s : Scene) :
    (∀ record : PrimaryRecord, record.port ≤ Text.nat16Max →
      ∃ s', s.run? (registry record.publish) = some ([putting Registry.primaryHostKey record.host,
          putting Registry.primaryPortKey (toString record.port)], .ok (), s') ∧
        s'.run? (registry PrimaryRecord.load) = some (s'.reading, .ok (some record), s')) ∧
    ∃ past r s', s.run? (d.refreshRecord role) = some (past, r, s') ∧
      (∀ record, r = .ok (some record) →
        ∃ m found, s.run? (primaryFromLogs d.roster role) = some (found, .ok (some m), s) ∧
          record = ⟨m.identity.host, m.port⟩ ∧
          s'.run? (currentPrimary d.roster role) = some (s'.reading, .ok (some m), s') ∧
          s'.run? (registry PrimaryRecord.load) = some (s'.reading, .ok (some record), s')) ∧
      ((∀ record, r ≠ .ok (some record)) → s' = s) := by
  refine ⟨fun record small => ⟨_, s.run?_publish record, Scene.run?_load_publishing small⟩, ?_⟩
  obtain ⟨found, answer, search⟩ := s.run?_primaryFromLogs d.roster role
  cases answer with
  | error e =>
    exact ⟨_, _, s, Scene.run?_bind_error search, nofun, fun _ => rfl⟩
  | ok primary =>
    cases primary with
    | none =>
      obtain ⟨past, hrun⟩ := run?_refreshRecord_of_nobody search
      exact ⟨past, _, s, hrun, nofun, fun _ => rfl⟩
    | some m =>
      obtain ⟨past, hrun⟩ := run?_refreshRecord_of_primary search
      obtain ⟨hm, hrole⟩ := Scene.mem_of_run?_primaryFromLogs search
      refine ⟨past, _, _, hrun, ?_, fun hnot => absurd rfl (hnot _)⟩
      rintro record heq
      obtain rfl := Option.some.inj (Except.ok.inj heq)
      refine ⟨m, found, search, rfl, ?_, Scene.run?_load_publishing (ports m hm)⟩
      exact Scene.run?_currentPrimary_of_named (Scene.record_publishing (ports m hm))
        (named?_address distinct hm hrole)

/-! ## A record that is no record -/

def mending : Driver where
  here := ⟨"host-c", 33, "driver", "driver1"⟩
  roster := bareAndPromoted
  settings := {}

/-- The port in the registry is no number, and the logs tell of the second lead. -/
def garbledScene : Scene where
  registry := ⟨[(Registry.primaryHostKey, "host-a"), (Registry.primaryPortKey, "none")], []⟩
  logs := promotedAtSeven.logs
  chance := fun _ => 0

theorem garbledScene_search : ∃ looked, garbledScene.run? (primaryFromLogs mending.roster "lead") =
    some (looked, .ok (some promotedLead), garbledScene) := by
  obtain ⟨looked, answer, -, hanswer, hrun⟩ :=
    promotedAtSeven.searched (s := garbledScene) rfl bareAndPromoted
  obtain rfl := (hanswer.answer.1 promotedLead).mpr
    ⟨promotedAtSeven_readable, promotedAtSeven_promotedLast⟩
  exact ⟨_, hrun⟩

theorem refreshRecord_agrees_mending :
    Distinct mending.roster "lead" ∧ (∀ m ∈ mending.roster, m.port ≤ Text.nat16Max) ∧
    ∃ past s', garbledScene.run? (mending.refreshRecord "lead") =
        some (past, .ok (some ⟨"host-b", 8093⟩), s') ∧
      s'.run? (currentPrimary mending.roster "lead") =
        some (s'.reading, .ok (some promotedLead), s') := by
  have hdistinct : Distinct mending.roster "lead" := by
    unfold Distinct
    decide
  have hports : ∀ m ∈ mending.roster, m.port ≤ Text.nat16Max := by decide
  obtain ⟨-, past, r, s', hrun, hagrees, -⟩ :=
    refreshRecord_agrees mending "lead" hdistinct hports garbledScene
  obtain ⟨looked, hsearch⟩ := garbledScene_search
  obtain ⟨past', hmended⟩ := run?_refreshRecord_of_primary hsearch
  obtain ⟨rfl, rfl, rfl⟩ : past = past' ∧ r = _ ∧ s' = _ := by
    simpa only [Option.some.injEq, Prod.mk.injEq] using hrun.symm.trans hmended
  obtain ⟨m, found, hfound, -, hcurrent, -⟩ := hagrees _ rfl
  obtain ⟨-, hm, -⟩ : looked = found ∧ Except.ok (some promotedLead) = .ok (some m) ∧ _ := by
    simpa only [Option.some.injEq, Prod.mk.injEq] using hsearch.symm.trans hfound
  obtain rfl := Option.some.inj (Except.ok.inj hm)
  exact ⟨hdistinct, hports, past, _, hrun, hcurrent⟩

end Driver

end Primacy.Failover
