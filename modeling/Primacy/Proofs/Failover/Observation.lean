/-
  Primacy.Proofs.Failover.Observation

  Who is found to be primary.  The record decides if it names a member, and no log is looked at.
  Otherwise the logs of the members are looked through one after the other, and the member whose
  marked log was written last is primary, the first one of them if several were written then.
-/
import Mathlib.Data.List.Induction
import Primacy.Proofs.Failover.Inspection
import Primacy.Proofs.Failover.Scene

namespace Primacy.Failover

open Files (Fault)
open Registry (Content)

/-! ## The first one with the latest mark -/

section

variable (mark? : Member → Option Int) (members : List Member)

/-- The best of the members, each with its mark. -/
def bestOf : Option (Int × Member) :=
  members.foldl (fun best m => better best (mark? m) m) none

theorem bestOf_concat (m : Member) : bestOf mark? (members ++ [m]) =
    better (bestOf mark? members) (mark? m) m := by
  rw [bestOf, List.foldl_append]
  rfl

/-- The best member is the first one with the latest mark. -/
theorem bestOf_spec :
    (bestOf mark? members = none ∧ ∀ m ∈ members, mark? m = none) ∨
    ∃ before m after t, bestOf mark? members = some (t, m) ∧ members = before ++ m :: after ∧
      mark? m = some t ∧ (∀ m' ∈ before, ∀ t', mark? m' = some t' → t' < t) ∧
      ∀ m' ∈ after, ∀ t', mark? m' = some t' → t' ≤ t := by
  -- on the members from the last one on
  induction members using List.reverseRecOn with
  | nil => exact .inl ⟨rfl, nofun⟩
  | append_singleton members m ih =>
    rw [bestOf_concat]
    cases hm : mark? m with
    | none =>
      rcases ih with ⟨hbest, hnone⟩ | ⟨before, m₀, after, t, hbest, rfl, hm₀, hbefore, hafter⟩
      · refine .inl ⟨hbest, ?_⟩
        rw [List.forall_mem_append]
        exact ⟨hnone, List.forall_mem_singleton.mpr hm⟩
      · refine .inr ⟨before, m₀, after ++ [m], t, hbest, by simp, hm₀, hbefore, ?_⟩
        rw [List.forall_mem_append, List.forall_mem_singleton]
        exact ⟨hafter, fun t' ht' => nomatch hm.symm.trans ht'⟩
    | some t' =>
      rcases ih with ⟨hbest, hnone⟩ | ⟨before, m₀, after, t, hbest, hmembers, hm₀, hbefore, hafter⟩
      · refine .inr ⟨members, m, [], t', by rw [hbest]; rfl, rfl, hm, ?_, nofun⟩
        exact fun m' hm' t'' ht'' => nomatch (hnone m' hm').symm.trans ht''
      · rw [hbest]
        by_cases hlt : t < t'
        · refine .inr ⟨members, m, [], t', if_pos hlt, rfl, hm, ?_, nofun⟩
          rw [hmembers, List.forall_mem_append, List.forall_mem_cons]
          refine ⟨fun m' hm' t'' ht'' => (hbefore m' hm' t'' ht'').trans hlt, ?_, ?_⟩
          · intro t'' ht''
            obtain rfl := Option.some.inj (hm₀.symm.trans ht'')
            exact hlt
          · exact fun m' hm' t'' ht'' => Int.lt_of_le_of_lt (hafter m' hm' t'' ht'') hlt
        · refine .inr ⟨before, m₀, after ++ [m], t, if_neg hlt, by simp [hmembers], hm₀, hbefore,
            ?_⟩
          rw [List.forall_mem_append, List.forall_mem_singleton]
          refine ⟨hafter, fun t'' ht'' => ?_⟩
          obtain rfl := Option.some.inj (hm.symm.trans ht'')
          exact Int.not_lt.mp hlt

end

/-! ## One log after the other -/

namespace Scene

variable {s : Scene} {members : List Member}

/-- The log files of a member are looked at. -/
def opening (s : Scene) (m : Member) : Exchange := ⟨.logs m.nodeDir, s.logs m.nodeDir⟩

/-- What the logs of a member tell. -/
def survey (s : Scene) (m : Member) : Except FailoverError (Option Int) :=
  lastMarked m.nodeDir (s.logs m.nodeDir)

/-- The last time that a marked log of a member was written, if that can be told. -/
def mark? (s : Scene) (m : Member) : Option Int :=
  match s.survey m with
  | .ok written => written
  | .error _ => none

variable {past : List Exchange} {best : Option (Int × Member)} {m : Member}

/-- Either the logs of all members can be looked through, or there is a first member whose logs
cannot. -/
theorem survey_cases (s : Scene) (members : List Member) :
    (∀ m ∈ members, s.survey m = .ok (s.mark? m)) ∨
    ∃ before m after e, members = before ++ m :: after ∧
      (∀ m' ∈ before, s.survey m' = .ok (s.mark? m')) ∧ s.survey m = .error e := by
  induction members with
  | nil => exact .inl nofun
  | cons m members ih =>
    cases hm : s.survey m with
    | error e => exact .inr ⟨[], m, members, e, rfl, nofun, hm⟩
    | ok written =>
      have hmark : s.survey m = .ok (s.mark? m) := by rw [mark?, hm]
      rcases ih with hall | ⟨before, m', after, e, rfl, hbefore, hfailed⟩
      · exact .inl (List.forall_mem_cons.mpr ⟨hmark, hall⟩)
      · exact .inr ⟨m :: before, m', after, e, rfl, List.forall_mem_cons.mpr ⟨hmark, hbefore⟩,
          hfailed⟩

theorem run?_searchLogs_cons {written : Option Int} {r : Except Error (Option Member)}
    (survey : s.survey m = .ok written)
    (rest : s.run? (searchLogs members (better best written m)) = some (past, r, s)) :
    s.run? (searchLogs (m :: members) best) = some (s.opening m :: past, r, s) := by
  have hrest : s.run? (orThrow ((s.survey m).mapError Error.failover) >>= fun written =>
      searchLogs members (better best written m)) = some (past, r, s) := by
    rw [survey]
    exact rest
  exact run?_bind (run?_ask rfl) hrest

theorem run?_searchLogs_cons_of_error {e : FailoverError} (failed : s.survey m = .error e) :
    s.run? (searchLogs (m :: members) best) = some ([s.opening m], .error (.failover e), s) := by
  have hfailed : s.run? (orThrow ((s.survey m).mapError Error.failover) >>= fun written =>
      searchLogs members (better best written m)) = some ([], .error (.failover e), s) := by
    rw [failed]
    rfl
  exact run?_bind (run?_ask rfl) hfailed

theorem run?_searchLogs (fine : ∀ m ∈ members, s.survey m = .ok (s.mark? m)) :
    s.run? (searchLogs members best) = some (members.map s.opening,
      .ok ((members.foldl (fun best m => better best (s.mark? m) m) best).map (·.2)), s) := by
  induction members generalizing best with
  | nil => rfl
  | cons m members ih =>
    obtain ⟨hm, hmembers⟩ := List.forall_mem_cons.mp fine
    exact run?_searchLogs_cons hm (ih hmembers)

/-- The first member whose logs cannot be looked through ends the search. -/
theorem run?_searchLogs_of_error {before after : List Member} {e : FailoverError}
    (fine : ∀ m ∈ before, s.survey m = .ok (s.mark? m)) (failed : s.survey m = .error e) :
    s.run? (searchLogs (before ++ m :: after) best) =
      some ((before ++ [m]).map s.opening, .error (.failover e), s) := by
  induction before generalizing best with
  | nil => exact run?_searchLogs_cons_of_error failed
  | cons m' before ih =>
    obtain ⟨hm, hbefore⟩ := List.forall_mem_cons.mp fine
    exact run?_searchLogs_cons hm (ih hbefore)

/-- A search of the logs comes to an end, and changes nothing. -/
theorem run?_primaryFromLogs (s : Scene) (roster : List Member) (role : String) :
    ∃ past answer, s.run? (primaryFromLogs roster role) = some (past, answer, s) := by
  rw [primaryFromLogs]
  rcases s.survey_cases (roster.filter (·.role == role)) with
    fine | ⟨before, m, after, e, split, fine, failed⟩
  · exact ⟨_, _, run?_searchLogs fine⟩
  · rw [split]
    exact ⟨_, _, run?_searchLogs_of_error fine failed⟩

end Scene

/-! ## What is on the disk -/

namespace Disk

variable {k : Disk} {members : List Member} {m : Member}

/-- Every access to the logs of `members` succeeds. -/
def Readable (k : Disk) (members : List Member) : Prop :=
  ∀ m ∈ members, ∀ path fault, ¬ k.Fails m.nodeDir path fault

/-- `m` is the first of `members` of which a marked log was written as late as no marked log of any
of them was later. -/
def PromotedLast (k : Disk) (members : List Member) (m : Member) : Prop :=
  ∃ before after t, members = before ++ m :: after ∧ k.Marked m.nodeDir t ∧
    (∀ t', k.Marked m.nodeDir t' → t' ≤ t) ∧
    (∀ m' ∈ before, ∀ t', k.Marked m'.nodeDir t' → t' < t) ∧
    ∀ m' ∈ after, ∀ t', k.Marked m'.nodeDir t' → t' ≤ t

/-- What a search of the logs of `members` may come to. -/
inductive Searched (k : Disk) (members : List Member) : Except Error (Option Member) → Prop where
  | promoted {m : Member} (readable : k.Readable members) (last : k.PromotedLast members m) :
      Searched k members (.ok (some m))
  | unmarked (readable : k.Readable members)
      (bare : ∀ m ∈ members, ∀ t, ¬ k.Marked m.nodeDir t) : Searched k members (.ok none)
  | failed {before after : List Member} {m : Member} {path : String} {fault : Fault}
      (split : members = before ++ m :: after) (readable : k.Readable before)
      (fails : k.Fails m.nodeDir path fault) :
      Searched k members (.error (.failover (.file path fault)))

theorem PromotedLast.unique {m' : Member} (h : k.PromotedLast members m)
    (h' : k.PromotedLast members m') : m = m' := by
  obtain ⟨before, after, t, hsplit, mark, -, hbefore, hafter⟩ := h
  obtain ⟨before', after', t', hsplit', mark', -, hbefore', hafter'⟩ := h'
  -- of two different ones, the first is written no earlier and yet earlier than the second
  rcases List.append_eq_append_iff.mp (hsplit.symm.trans hsplit') with
    ⟨_ | ⟨x, middle⟩, hb, ha⟩ | ⟨_ | ⟨x, middle⟩, hb, ha⟩
  · exact List.head_eq_of_cons_eq ha
  · obtain ⟨rfl, rfl⟩ := List.cons.inj ha
    have hlt := hbefore' m (by simp [hb]) t mark
    exact absurd (hafter m' (by simp) t' mark') (Int.not_le.mpr hlt)
  · exact (List.head_eq_of_cons_eq ha).symm
  · obtain ⟨rfl, rfl⟩ := List.cons.inj ha
    have hlt := hbefore m' (by simp [hb]) t' mark'
    exact absurd (hafter' m (by simp) t mark) (Int.not_le.mpr hlt)

/-! ## What the search comes to -/

/-- What the logs in a directory tell, if every access to them succeeds: when the last mark was
made. -/
theorem Surveyed.of_ok {dir : String} {written : Option Int} (h : k.Surveyed dir (.ok written)) :
    (∀ path fault, ¬ k.Fails dir path fault) ∧ (∀ t, written = some t → k.Marked dir t) ∧
    ∀ t, k.Marked dir t → ∃ last, written = some last ∧ t ≤ last := by
  cases h with
  | unmarked fine bare => exact ⟨fine, nofun, fun t ht => absurd ht (bare t)⟩
  | marked fine mark last =>
    refine ⟨fine, fun t ht => ?_, fun t ht => ⟨_, rfl, last t ht⟩⟩
    obtain rfl := Option.some.inj ht
    exact mark

theorem searched {s : Scene} (logs : s.logs = k.logs) (members : List Member) :
    ∃ looked answer, looked <+: members ∧ k.Searched members answer ∧
      s.run? (searchLogs members none) = some (looked.map s.opening, answer, s) := by
  have hsurvey : ∀ m, k.Surveyed m.nodeDir (s.survey m) := by
    intro m
    rw [Scene.survey, logs]
    exact k.surveyed m.nodeDir
  have hok : ∀ {m}, s.survey m = .ok (s.mark? m) → k.Surveyed m.nodeDir (.ok (s.mark? m)) :=
    fun hm => hm ▸ hsurvey _
  -- either every directory can be looked through, or a first one cannot and ends the search
  rcases s.survey_cases members with fine | ⟨before, m, after, e, rfl, fine, failed⟩
  · refine ⟨members, _, List.prefix_rfl, ?_, Scene.run?_searchLogs fine⟩
    have hreadable : k.Readable members := fun m hm => (hok (fine m hm)).of_ok.1
    rcases bestOf_spec s.mark? members with
      ⟨hbest, hnone⟩ | ⟨before, m, after, t, hbest, rfl, hm, hbefore, hafter⟩
    · rw [← bestOf, hbest]
      refine .unmarked hreadable fun m hm t ht => ?_
      obtain ⟨last, hlast, -⟩ := (hok (fine m hm)).of_ok.2.2 t ht
      exact nomatch (hnone m hm).symm.trans hlast
    · rw [← bestOf, hbest]
      have hfine : ∀ {m'}, m' ∈ before ++ m :: after →
          k.Surveyed m'.nodeDir (.ok (s.mark? m')) := fun hm' => hok (fine _ hm')
      refine .promoted hreadable
        ⟨before, after, t, rfl, (hfine (by simp)).of_ok.2.1 t hm, fun t' ht' => ?_, ?_, ?_⟩
      · obtain ⟨last, hlast, hle⟩ := (hfine (by simp)).of_ok.2.2 t' ht'
        obtain rfl := Option.some.inj (hm.symm.trans hlast)
        exact hle
      · intro m' hm' t' ht'
        obtain ⟨last, hlast, hle⟩ := (hfine (by simp [hm'])).of_ok.2.2 t' ht'
        exact Int.lt_of_le_of_lt hle (hbefore m' hm' last hlast)
      · intro m' hm' t' ht'
        obtain ⟨last, hlast, hle⟩ := (hfine (by simp [hm'])).of_ok.2.2 t' ht'
        exact hle.trans (hafter m' hm' last hlast)
  · refine ⟨before ++ [m], _, ⟨after, by simp⟩, ?_, Scene.run?_searchLogs_of_error fine failed⟩
    have hfailed := hsurvey m
    rw [failed] at hfailed
    cases hfailed with
    | failed fails => exact .failed rfl (fun m hm => (hok (fine m hm)).of_ok.1) fails

theorem PromotedLast.exists_marked (h : k.PromotedLast members m) :
    ∃ m' ∈ members, ∃ t, k.Marked m'.nodeDir t := by
  obtain ⟨before, after, t, rfl, mark, -⟩ := h
  exact ⟨m, by simp, t, mark⟩

/-- What comes of a search tells what is on the disk. -/
theorem Searched.answer {answer : Except Error (Option Member)} (h : k.Searched members answer) :
    (∀ m, answer = .ok (some m) ↔ k.Readable members ∧ k.PromotedLast members m) ∧
    (answer = .ok none ↔ k.Readable members ∧ ∀ m ∈ members, ∀ t, ¬ k.Marked m.nodeDir t) ∧
    (¬ k.Readable members → ∃ before m after path fault, members = before ++ m :: after ∧
      k.Readable before ∧ k.Fails m.nodeDir path fault ∧
        answer = .error (.failover (.file path fault))) := by
  cases h with
  | @promoted m readable last =>
    refine ⟨fun m' => ⟨fun heq => ?_, fun ⟨_, last'⟩ => ?_⟩, ⟨nofun, fun ⟨_, bare⟩ => ?_⟩,
      fun hnot => absurd readable hnot⟩
    · obtain rfl := Option.some.inj (Except.ok.inj heq)
      exact ⟨readable, last⟩
    · rw [last.unique last']
    · obtain ⟨m', hm', t, mark⟩ := last.exists_marked
      exact absurd mark (bare m' hm' t)
  | unmarked readable bare =>
    refine ⟨fun m => ⟨nofun, fun ⟨_, last⟩ => ?_⟩, ⟨fun _ => ⟨readable, bare⟩, fun _ => rfl⟩,
      fun hnot => absurd readable hnot⟩
    obtain ⟨m', hm', t, mark⟩ := last.exists_marked
    exact absurd mark (bare m' hm' t)
  | @failed before after m path fault split readable fails =>
    have hnot : ¬ k.Readable members := by
      intro hall
      exact hall m (by simp [split]) path fault fails
    refine ⟨fun m => ⟨nofun, fun ⟨hall, _⟩ => absurd hall hnot⟩,
      ⟨nofun, fun ⟨hall, _⟩ => absurd hall hnot⟩, fun _ => ?_⟩
    exact ⟨before, m, after, path, fault, split, readable, fails, rfl⟩

end Disk

/-! ## What the registry tells -/

section

variable {s : Scene} {roster : List Member} {role : String} {m : Member}

/-- The primary record is whole, and `m` is the first member of the role that is reached there. -/
def NamedFirst (c : Content) (roster : List Member) (role : String) (m : Member) : Prop :=
  ∃ host raw port, c.entries.get? Registry.primaryHostKey = some host ∧
    c.entries.get? Registry.primaryPortKey = some raw ∧
    Text.natUpTo? Text.nat16Max (Text.trimmed raw) = some port ∧
    ∃ before after, roster = before ++ m :: after ∧
      (m.role = role ∧ m.identity.host = host ∧ m.port = port) ∧
      ∀ m' ∈ before, ¬ (m'.role = role ∧ m'.identity.host = host ∧ m'.port = port)

/-- Both halves of the primary record are there, and `raw` is no port. -/
def Garbled (c : Content) (raw : String) : Prop :=
  (∃ host, c.entries.get? Registry.primaryHostKey = some host) ∧
    c.entries.get? Registry.primaryPortKey = some raw ∧
    Text.natUpTo? Text.nat16Max (Text.trimmed raw) = none

theorem isAt_iff {host : String} {port : Nat} : (m.role == role && m.isAt host port) = true ↔
    m.role = role ∧ m.identity.host = host ∧ m.port = port := by
  simp only [Member.isAt, Bool.and_eq_true, beq_iff_eq]

theorem Garbled.record {raw : String} (h : Garbled s.registry raw) :
    s.record = .error (.invalidValue Registry.primaryPortKey raw) := by
  obtain ⟨⟨host, hhost⟩, hport, hraw⟩ := h
  rw [Scene.record, hhost, hport]
  simp only [Registry.PrimaryRecord.ofEntries, hraw]

theorem garbled_of_record {e : RegistryError} (h : s.record = .error e) :
    ∃ raw, Garbled s.registry raw := by
  unfold Scene.record Registry.PrimaryRecord.ofEntries at h
  split at h
  · next host raw hhost hport =>
    split at h
    · cases h
    · next hraw => exact ⟨raw, ⟨host, hhost⟩, hport, hraw⟩
  · cases h

theorem named?_eq_some_iff {record : Registry.PrimaryRecord} :
    named? roster role (some record) = some m ↔
      ∃ before after, roster = before ++ m :: after ∧
        (m.role = role ∧ m.identity.host = record.host ∧ m.port = record.port) ∧
        ∀ m' ∈ before,
          ¬ (m'.role = role ∧ m'.identity.host = record.host ∧ m'.port = record.port) := by
  show roster.find? _ = some m ↔ _
  rw [List.find?_eq_some_iff_append]
  simp only [isAt_iff, Bool.not_eq_true', ← Bool.not_eq_true]
  constructor
  · rintro ⟨hm, before, after, hroster, hbefore⟩
    exact ⟨before, after, hroster, hm, hbefore⟩
  · rintro ⟨before, after, hroster, hm, hbefore⟩
    exact ⟨hm, before, after, hroster, hbefore⟩

theorem NamedFirst.record (h : NamedFirst s.registry roster role m) :
    ∃ record, s.record = .ok record ∧ named? roster role record = some m := by
  obtain ⟨host, raw, port, hhost, hport, hraw, hfirst⟩ := h
  refine ⟨some ⟨host, port⟩, ?_, named?_eq_some_iff.mpr hfirst⟩
  rw [Scene.record, hhost, hport]
  simp only [Registry.PrimaryRecord.ofEntries, hraw]

theorem namedFirst_of_record {record : Option Registry.PrimaryRecord}
    (read : s.record = .ok record) (named : named? roster role record = some m) :
    NamedFirst s.registry roster role m := by
  unfold Scene.record Registry.PrimaryRecord.ofEntries at read
  split at read
  · next host raw hhost hport =>
    split at read
    · next port hraw =>
      obtain rfl := Except.ok.inj read
      exact ⟨host, raw, port, hhost, hport, hraw, named?_eq_some_iff.mp named⟩
    · cases read
  · obtain rfl := Except.ok.inj read
    cases named

end

/-! ## Who is primary -/

/-- The members of a role, in the order of the roster. -/
def ofRole (roster : List Member) (role : String) : List Member := roster.filter (·.role == role)

/-- The directories that were looked through for logs. -/
def directories (past : List Exchange) : List String :=
  past.filterMap fun x =>
    match x.request with
    | .logs dir => some dir
    | _ => none

theorem directories_opening (s : Scene) (before : List Exchange) (members : List Member) :
    directories (before ++ members.map s.opening) =
      directories before ++ members.map (·.nodeDir) := by
  rw [directories, directories, List.filterMap_append, List.filterMap_map]
  congr 1
  show members.filterMap (some ∘ (·.nodeDir)) = _
  rw [List.filterMap_eq_map]

/-- Who is found to be primary, whatever the registry holds and whatever is on the disk.  A whole
record that names a member of the role decides, and no log is looked at; a record with a port that
is none is an error.  Otherwise no logs but those of members of the role are looked at, in order.
If all of them can be, the answer is the first member with the latest mark, or nobody where there
is no mark; if not, the first access to fail is told. -/
theorem currentPrimary_answer (c : Content) (k : Disk) (chance : Nat → Nat) (roster : List Member)
    (role : String) :
    ∃ past answer, (Scene.mk c k.logs chance).run? (currentPrimary roster role) =
        some (past, answer, ⟨c, k.logs, chance⟩) ∧
      (∀ m, NamedFirst c roster role m → answer = .ok (some m) ∧ directories past = []) ∧
      (∀ raw, Garbled c raw →
        answer = .error (.registry (.invalidValue Registry.primaryPortKey raw)) ∧
          directories past = []) ∧
      ((∀ m, ¬ NamedFirst c roster role m) → (∀ raw, ¬ Garbled c raw) →
        directories past <+: (ofRole roster role).map (·.nodeDir) ∧
        (∀ m, answer = .ok (some m) ↔
          k.Readable (ofRole roster role) ∧ k.PromotedLast (ofRole roster role) m) ∧
        (answer = .ok none ↔
          k.Readable (ofRole roster role) ∧
            ∀ m ∈ ofRole roster role, ∀ t, ¬ k.Marked m.nodeDir t) ∧
        (¬ k.Readable (ofRole roster role) → ∃ before m after path fault,
          ofRole roster role = before ++ m :: after ∧ k.Readable before ∧
            k.Fails m.nodeDir path fault ∧ answer = .error (.failover (.file path fault)))) := by
  generalize hs : Scene.mk c k.logs chance = s
  have hlogs : s.logs = k.logs := by rw [← hs]
  have hregistry : c = s.registry := by rw [← hs]
  subst hregistry
  -- on what the record says; the logs are searched only where it names nobody
  cases read : s.record with
  | error e =>
    refine ⟨_, _, Scene.run?_currentPrimary_of_error read, ?_, ?_, ?_⟩
    · intro m hm
      obtain ⟨record, hrecord, -⟩ := hm.record
      exact nomatch read.symm.trans hrecord
    · intro raw hraw
      obtain rfl := Except.error.inj (read.symm.trans hraw.record)
      exact ⟨rfl, rfl⟩
    · intro _ hsound
      obtain ⟨raw, hraw⟩ := garbled_of_record read
      exact absurd hraw (hsound raw)
  | ok record =>
    have hsound : ∀ raw, ¬ Garbled s.registry raw := fun raw hraw =>
      nomatch read.symm.trans hraw.record
    cases named : named? roster role record with
    | some m =>
      refine ⟨_, _, Scene.run?_currentPrimary_of_named read named, ?_, ?_, ?_⟩
      · intro m' hm'
        obtain ⟨record', hrecord, hnamed⟩ := hm'.record
        obtain rfl := Except.ok.inj (read.symm.trans hrecord)
        obtain rfl := Option.some.inj (named.symm.trans hnamed)
        exact ⟨rfl, rfl⟩
      · exact fun raw hraw => absurd hraw (hsound raw)
      · exact fun hnobody => absurd (namedFirst_of_record read named) (hnobody m)
    | none =>
      obtain ⟨looked, answer, hlooked, hanswer, hrun⟩ :=
        k.searched hlogs (ofRole roster role)
      refine ⟨_, _, Scene.run?_currentPrimary_of_unnamed read named hrun, ?_, ?_, ?_⟩
      · intro m' hm'
        obtain ⟨record', hrecord, hnamed⟩ := hm'.record
        obtain rfl := Except.ok.inj (read.symm.trans hrecord)
        exact nomatch named.symm.trans hnamed
      · exact fun raw hraw => absurd hraw (hsound raw)
      · refine fun _ _ => ⟨?_, hanswer.answer⟩
        rw [directories_opening]
        exact hlooked.map _

/-! ## A lead without logs, and one that was promoted -/

def promotedLead : Member := .ofIdentity ⟨"host-b", 22, "lead", "lead2"⟩ "b" 8093

/-- Two leads; only the second one has a directory. -/
def bareAndPromoted : List Member :=
  [.ofIdentity ⟨"host-a", 11, "lead", "lead1"⟩ "a" 8092, promotedLead]

/-- The second lead was promoted at the time 7. -/
def promotedAtSeven : Disk where
  tree := ⟨#[.directory 0 [("b", 1)], .directory 0 [("lead.log", 2)],
    .file (Text.Utf8.encode "Primary lock acquired.") 7], 0, 8⟩
  fault? := fun _ => none

theorem promotedAtSeven_home :
    promotedAtSeven.tree.node promotedAtSeven.tree.home = .directory 0 [("b", 1)] := rfl

theorem promotedAtSeven_list_bare : promotedAtSeven.list "a" = .error .notFound :=
  Disk.list_of_no_name rfl (by decide) promotedAtSeven_home rfl

theorem promotedAtSeven_list : promotedAtSeven.list "b" = .ok [("lead.log", 2)] :=
  Disk.list_of_name rfl (by decide) promotedAtSeven_home rfl rfl

theorem promotedAtSeven_readable : promotedAtSeven.Readable bareAndPromoted := by
  refine List.forall_mem_cons.mpr ⟨?_, List.forall_mem_singleton.mpr ?_⟩
  · refine Disk.not_fails (fun _ => rfl) fun fault unlisted => ?_
    exact Except.error.inj (unlisted.symm.trans promotedAtSeven_list_bare)
  · exact Disk.not_fails (fun _ => rfl) fun _ unlisted =>
      nomatch unlisted.symm.trans promotedAtSeven_list

theorem promotedAtSeven_marked_iff {t : Int} : promotedAtSeven.Marked "b" t ↔ t = 7 := by
  constructor
  · rintro ⟨path, bytes, ⟨entries, name, id, listed, hmem, -, -, hnode⟩, -⟩
    obtain rfl := Except.ok.inj (listed.symm.trans promotedAtSeven_list)
    obtain ⟨rfl, rfl⟩ := Prod.mk.inj (List.mem_singleton.mp hmem)
    exact (Files.Node.file.inj hnode).2.symm
  · rintro rfl
    exact ⟨_, _, ⟨_, "lead.log", 2, promotedAtSeven_list, by decide, by decide, rfl, rfl⟩,
      by decide +kernel⟩

theorem promotedAtSeven_not_marked_bare (t : Int) : ¬ promotedAtSeven.Marked "a" t := by
  rintro ⟨path, bytes, ⟨entries, name, id, listed, -⟩, -⟩
  exact nomatch listed.symm.trans promotedAtSeven_list_bare

theorem promotedAtSeven_promotedLast :
    promotedAtSeven.PromotedLast bareAndPromoted promotedLead := by
  refine ⟨[_], [], 7, rfl, promotedAtSeven_marked_iff.mpr rfl,
    fun t ht => (promotedAtSeven_marked_iff.mp ht).le, ?_, nofun⟩
  rw [List.forall_mem_singleton]
  exact fun t ht => absurd ht (promotedAtSeven_not_marked_bare t)

/-- An empty registry leaves it to the logs, and they tell of the second lead. -/
theorem currentPrimary_answer_promotedAtSeven :
    ∃ past, (Scene.mk .empty promotedAtSeven.logs fun _ => 0).run?
        (currentPrimary bareAndPromoted "lead") =
      some (past, .ok (some promotedLead), ⟨.empty, promotedAtSeven.logs, fun _ => 0⟩) := by
  obtain ⟨past, answer, hrun, -, -, hlogs⟩ :=
    currentPrimary_answer .empty promotedAtSeven (fun _ => 0) bareAndPromoted "lead"
  have hunnamed : ∀ m, ¬ NamedFirst .empty bareAndPromoted "lead" m := by
    rintro m ⟨host, raw, port, hhost, -⟩
    cases hhost
  have hsound : ∀ raw, ¬ Garbled .empty raw := by
    rintro raw ⟨⟨host, hhost⟩, -⟩
    cases hhost
  obtain rfl := ((hlogs hunnamed hsound).2.1 promotedLead).mpr
    ⟨promotedAtSeven_readable, promotedAtSeven_promotedLast⟩
  exact ⟨past, hrun⟩

end Primacy.Failover
