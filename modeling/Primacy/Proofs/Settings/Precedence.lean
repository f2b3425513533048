/-
  Primacy.Proofs.Settings.Precedence

  The last layer wins.  A variable that names a setting puts its value at the place of the setting,
  whatever the file and the variables before it have put there, and it stays there unless a later
  variable is for the same setting or takes the place of the whole section.  What is read in the end
  has one member for each name, so that it is this value that the setting is read from.
-/
import Primacy.Proofs.Settings.Override

namespace Primacy.Settings

open Files (Tree)

/-! ## Names -/

namespace Value

variable {f : Option Value → Value} {name : String} {ms : List (String × Value)}
  {m : String × Value} {v root : Value}

theorem mem_setMember_self (f : Option Value → Value) (name : String)
    (ms : List (String × Value)) : ∃ old, (name, f old) ∈ setMember f name ms := by
  induction ms with
  | nil => exact ⟨none, List.mem_cons_self⟩
  | cons m ms ih =>
    obtain ⟨k, v⟩ := m
    rw [setMember]
    split
    · next heq => exact ⟨some v, heq ▸ List.mem_cons_self⟩
    · obtain ⟨old, hold⟩ := ih
      exact ⟨old, List.mem_cons_of_mem _ hold⟩

theorem mem_setMember_of_ne (h : m ∈ ms) (hne : m.1 ≠ name) : m ∈ setMember f name ms := by
  induction ms with
  | nil => exact absurd h List.not_mem_nil
  | cons m' ms ih =>
    obtain ⟨k, v⟩ := m'
    rw [setMember]
    rcases List.mem_cons.mp h with rfl | h
    · rw [if_neg hne]
      exact List.mem_cons_self
    · split
      · exact List.mem_cons_of_mem _ h
      · exact List.mem_cons_of_mem _ (ih h)

theorem mem_setMember_some (nodup : (ms.map (·.1)).Nodup) (h : (name, v) ∈ ms) :
    (name, f (some v)) ∈ setMember f name ms := by
  induction ms with
  | nil => exact absurd h List.not_mem_nil
  | cons m ms ih =>
    obtain ⟨k, u⟩ := m
    obtain ⟨hk, hnodup⟩ := List.nodup_cons.mp nodup
    rw [setMember]
    rcases List.mem_cons.mp h with heq | h
    · cases heq
      rw [if_pos rfl]
      exact List.mem_cons_self
    · have hne : k ≠ name := by
        rintro rfl
        exact hk (List.mem_map.mpr ⟨_, h, rfl⟩)
      rw [if_neg hne]
      exact List.mem_cons_of_mem _ (ih hnodup h)

/-- A member was there before, or is the one that was set. -/
theorem mem_setMember (h : m ∈ setMember f name ms) :
    m ∈ ms ∨ ∃ old, m = (name, f old) ∧ ∀ v ∈ old, (name, v) ∈ ms := by
  induction ms with
  | nil => exact .inr ⟨none, List.mem_singleton.mp h, nofun⟩
  | cons m' ms ih =>
    obtain ⟨k, u⟩ := m'
    rw [setMember] at h
    split at h
    · next heq =>
      subst heq
      rcases List.mem_cons.mp h with rfl | h
      · exact .inr ⟨some u, rfl, fun v hv => Option.some.inj hv ▸ List.mem_cons_self⟩
      · exact .inl (List.mem_cons_of_mem _ h)
    · rcases List.mem_cons.mp h with rfl | h
      · exact .inl List.mem_cons_self
      · refine (ih h).imp (List.mem_cons_of_mem _) ?_
        rintro ⟨old, rfl, hold⟩
        exact ⟨old, rfl, fun v hv => List.mem_cons_of_mem _ (hold v hv)⟩

theorem nodup_setMember (nodup : (ms.map (·.1)).Nodup) :
    ((setMember f name ms).map (·.1)).Nodup := by
  induction ms with
  | nil => exact List.nodup_cons.mpr ⟨List.not_mem_nil, List.nodup_nil⟩
  | cons m ms ih =>
    obtain ⟨k, v⟩ := m
    obtain ⟨hk, hnodup⟩ := List.nodup_cons.mp nodup
    rw [setMember]
    split
    · exact nodup
    · next hne =>
      -- no member gets a name that was not there, except for the one that is set
      refine List.nodup_cons.mpr ⟨fun hmem => ?_, ih hnodup⟩
      obtain ⟨m, hm, heq⟩ := List.mem_map.mp hmem
      rcases name_of_mem_setMember hm with hname | ⟨m', hm', hname⟩
      · exact hne (heq.symm.trans hname)
      · exact hk (List.mem_map.mpr ⟨m', hm', hname.trans heq⟩)

/-- No two members have the same name. -/
def Distinct (v : Value) : Prop := (v.members.map (·.1)).Nodup

theorem distinct_overlayMembers {old : Value} (h : old.Distinct) (new : List (String × Value)) :
    (overlayMembers old new).Distinct := by
  induction new generalizing old with
  | nil =>
    rw [overlayMembers]
    exact h
  | cons m new ih =>
    rw [overlayMembers]
    exact ih (nodup_setMember h)

theorem distinct_overlay {old : Option Value} (h : ∀ v ∈ old, v.Distinct) (new : Value) :
    (overlay old new).Distinct := by
  cases new with
  | table new =>
    rw [overlay]
    refine distinct_overlayMembers ?_ new
    cases old with
    | none => exact List.nodup_nil
    | some v => exact h v rfl
  | _ =>
    rw [overlay]
    · exact List.nodup_nil
    · intro _ h
      cases h

/-- Whatever is laid over a value, the names of its members stay distinct. -/
theorem distinct_overlayAt {old : Option Value} (h : ∀ v ∈ old, v.Distinct) (new : Value)
    (steps : List Step) : (overlayAt new steps old).Distinct := by
  cases steps with
  | nil => exact distinct_overlay h new
  | cons step steps =>
    cases step with
    | member name =>
      refine nodup_setMember ?_
      cases old with
      | none => exact List.nodup_nil
      | some v => exact h v rfl
    | item i => exact List.nodup_nil

/-- The names of the sections are distinct, and so are the names in each of them. -/
structure Tidy (root : Value) : Prop where
  sections : root.Distinct
  settings : ∀ m ∈ root.members, m.2.Distinct

theorem Tidy.set (h : root.Tidy) (key : String) (new : Value) : (root.set key new).Tidy := by
  refine ⟨nodup_setMember h.sections, fun m hm => ?_⟩
  rcases mem_setMember hm with hm | ⟨old, rfl, hold⟩
  · exact h.settings m hm
  · exact distinct_overlayAt (fun v hv => h.settings _ (hold v hv)) new _

theorem Tidy.layer (h : root.Tidy) (source : List (String × Value)) :
    (root.layer source).Tidy := by
  induction source generalizing root with
  | nil => exact h
  | cons e source ih => exact ih (h.set e.1 e.2)

/-! ## The place of a setting -/

/-- The setting `name` of the section `part` has the value `v`. -/
def Holds (root : Value) (part name : String) (v : Value) : Prop :=
  ∃ table, (part, table) ∈ root.members ∧ (name, v) ∈ table.members

end Value

/-- A path goes on to a member of another name. -/
def goesPast (name : String) : List Step → Bool
  | .member name' :: _ => Text.lowercased name' != name
  | _ => false

/-- The entry is for another section, or for something else in this section. -/
def Spares (part name : String) (e : String × Value) : Prop :=
  sectionOf e = part → goesPast name (KeyPath.ofText e.1).steps = true

instance (part name : String) : DecidablePred (Spares part name) := fun e =>
  inferInstanceAs (Decidable (sectionOf e = part → _))

variable {part name : String} {v root : Value} {e : String × Value}
  {source : List (String × Value)}

theorem goesPast_iff {steps : List Step} : goesPast name steps = true ↔
    ∃ name' rest, steps = .member name' :: rest ∧ name ≠ Text.lowercased name' := by
  rw [goesPast.eq_def]
  split
  · next name' rest =>
    rw [bne_iff_ne, ne_comm]
    refine ⟨fun h => ⟨name', rest, rfl, h⟩, ?_⟩
    rintro ⟨_, _, heq, h⟩
    cases heq
    exact h
  · next hnone =>
    refine iff_of_false Bool.false_ne_true ?_
    rintro ⟨_, _, rfl, -⟩
    exact hnone _ _ rfl

/-- A path to a setting puts the value there. -/
theorem Value.holds_set (hpart : part ∈ parts) (hname : name ∈ names part)
    (taken : Takes part name v) (root : Value) :
    (root.set (part ++ "." ++ name) v).Holds part name v := by
  obtain ⟨hlowerPart, hlowerName⟩ := lowercased_setting part hpart name hname
  have hmembers : (root.set (part ++ "." ++ name) v).members =
      setMember (overlayAt v [.member name]) part root.members := by
    rw [set, ofText_setting part hpart name hname]
    exact congrArg (setMember _ · root.members) hlowerPart
  obtain ⟨old, hsection⟩ := mem_setMember_self (overlayAt v [.member name]) part root.members
  obtain ⟨old', hvalue⟩ := mem_setMember_self (overlayAt v []) name (old.getD .absent).members
  rw [overlayAt, overlay_of_takes hname taken] at hvalue
  refine ⟨_, hmembers ▸ hsection, ?_⟩
  show (name, v) ∈ setMember _ (Text.lowercased name) (old.getD .absent).members
  rw [hlowerName]
  exact hvalue

/-- What spares a setting leaves its value where it is. -/
theorem Value.Holds.set (h : root.Holds part name v) (tidy : root.Tidy)
    (spares : Spares part name e) : (root.set e.1 e.2).Holds part name v := by
  obtain ⟨table, htable, hvalue⟩ := h
  by_cases hsection : sectionOf e = part
  · -- the section keeps its place, and the value its own in the section
    obtain ⟨name', rest, hsteps, hne⟩ := goesPast_iff.mp (spares hsection)
    subst hsection
    refine ⟨_, mem_setMember_some tidy.sections htable, ?_⟩
    rw [hsteps]
    exact mem_setMember_of_ne hvalue hne
  · exact ⟨table, mem_setMember_of_ne htable (Ne.symm hsection), hvalue⟩

theorem Value.Holds.layer (h : root.Holds part name v) (tidy : root.Tidy)
    (spares : ∀ e ∈ source, Spares part name e) : (root.layer source).Holds part name v := by
  induction source generalizing root with
  | nil => exact h
  | cons e source ih =>
    obtain ⟨he, hsource⟩ := List.forall_mem_cons.mp spares
    exact ih (h.set tidy he) (tidy.set e.1 e.2) hsource

/-! ## Reading members -/

/-- Members are read one after the other. -/
structure Sequential {σ ε : Type} (run : List (String × Value) → σ → Except ε σ) : Prop where
  nil : ∀ s, run [] s = .ok s
  cons : ∀ m ms s, run (m :: ms) s = run [m] s >>= run ms

namespace Sequential

variable {σ ε β : Type} {run : List (String × Value) → σ → Except ε σ} {get : σ → β}
  {ms : List (String × Value)} {s t : σ}

theorem of_cons (sequential : Sequential run) {m : String × Value} (h : run (m :: ms) s = .ok t) :
    ∃ s', run [m] s = .ok s' ∧ run ms s' = .ok t := by
  rw [sequential.cons] at h
  cases hm : run [m] s with
  | error e =>
    rw [hm] at h
    cases h
  | ok s' =>
    rw [hm] at h
    exact ⟨s', rfl, h⟩

variable (sequential : Sequential run)
  (frame : ∀ m s s', m.1 ≠ name → run [m] s = .ok s' → get s' = get s)

include sequential frame

theorem keeps (h : run ms s = .ok t) (hne : ∀ m ∈ ms, m.1 ≠ name) : get t = get s := by
  induction ms generalizing s with
  | nil =>
    rw [sequential.nil] at h
    cases h
    rfl
  | cons m ms ih =>
    obtain ⟨hm, hms⟩ := List.forall_mem_cons.mp hne
    obtain ⟨s', hfirst, hrest⟩ := sequential.of_cons h
    exact (ih hrest hms).trans (frame m s s' hm hfirst)

/-- What comes out is what the one member of the name makes of it. -/
theorem of_mem (h : run ms s = .ok t) (nodup : (ms.map (·.1)).Nodup) (hv : (name, v) ∈ ms) :
    ∃ s₀ s₁, run [(name, v)] s₀ = .ok s₁ ∧ get t = get s₁ := by
  induction ms generalizing s with
  | nil => exact absurd hv List.not_mem_nil
  | cons m ms ih =>
    obtain ⟨hm, hnodup⟩ := List.nodup_cons.mp nodup
    obtain ⟨s', hfirst, hrest⟩ := sequential.of_cons h
    rcases List.mem_cons.mp hv with rfl | hv
    · refine ⟨s, s', hfirst, sequential.keeps frame hrest fun m hmem heq => hm ?_⟩
      exact List.mem_map.mpr ⟨m, hmem, heq⟩
    · exact ih hrest hnodup hv

end Sequential

theorem Setting.sequential_ofTable {σ : Type} (settings : List (Setting σ)) (key : String) :
    Sequential (Setting.ofTable settings key) where
  nil _ := rfl
  cons m ms s := by
    obtain ⟨k, u⟩ := m
    rw [ofTable, ofTable]
    cases settings.find? (·.name == k) with
    | none => rfl
    | some x =>
      cases hset : x.ofValue? u <;> simp only [hset] <;> rfl

theorem sequential_ofTable : Sequential Settings.ofTable where
  nil _ := rfl
  cons m ms s := by
    obtain ⟨k, u⟩ := m
    rw [ofTable, ofTable]
    split
    · cases Setting.ofSection Node.settings k u {} <;> rfl
    · split
      · cases Setting.ofSection Election.settings k u {} <;> rfl
      · split
        · cases Setting.ofSection Failover.settings k u {} <;> rfl
        · rfl

/-! ## Layers -/

theorem Setting.distinct_of_toSection? {σ : Type} {settings : List (Setting σ)} {s : σ} {v : Value}
    (nodup : (settings.map (·.name)).Nodup) (h : toSection? settings s = some v) :
    v.Distinct := by
  obtain ⟨ms, hms, rfl⟩ := Option.map_eq_some_iff.mp h
  have hnames : ms.map (·.1) = settings.map (·.name) := by
    clear nodup h
    induction settings generalizing ms with
    | nil =>
      cases hms
      rfl
    | cons x settings ih =>
      rw [List.mapM_cons] at hms
      obtain ⟨m, hm, hms⟩ := Option.bind_eq_some_iff.mp hms
      obtain ⟨ms', hms', hms⟩ := Option.bind_eq_some_iff.mp hms
      obtain ⟨_, -, rfl⟩ := Option.map_eq_some_iff.mp hm
      cases hms
      exact congrArg (x.name :: ·) (ih _ hms')
  rw [Value.Distinct]
  show (ms.map (·.1)).Nodup
  rwa [hnames]

/-- The layered form of settings has one member for each name. -/
theorem tidy_of_toValue? {s : Settings} {root : Value} (h : s.toValue? = some root) :
    root.Tidy := by
  obtain ⟨node, hnode, h⟩ := Option.bind_eq_some_iff.mp h
  obtain ⟨election, helection, h⟩ := Option.bind_eq_some_iff.mp h
  obtain ⟨failover, hfailover, h⟩ := Option.bind_eq_some_iff.mp h
  cases h
  refine ⟨?_, ?_⟩
  · show ["election", "failover", "node"].Nodup
    decide
  · refine List.forall_mem_cons.mpr ⟨?_, List.forall_mem_cons.mpr ⟨?_, List.forall_mem_cons.mpr
      ⟨?_, nofun⟩⟩⟩
    · exact Setting.distinct_of_toSection? (by decide) helection
    · exact Setting.distinct_of_toSection? (by decide) hfailover
    · exact Setting.distinct_of_toSection? (by decide) hnode

section

variable {s r : Settings} {files : Tree} {env before after : Environment}
  {source : List (String × Value)} {part name key text : String}

/-- What the settings file of a process assigns, if the process names one. -/
def fileOf (files : Tree) (file : Option String) :
    Except SettingsError (List (String × Value)) :=
  match file with
  | some name => fileSource files name
  | none => .ok []

theorem layered_eq {root : Value} (h : s.toValue? = some root) (file : Option String) :
    layered s files file env = fileOf files file >>= fun source =>
      Settings.ofValue ((root.layer source).layer env.source) := by
  rw [layered, h]
  cases file <;> rfl

/-- Sources that assign to each setting what it takes are loaded. -/
theorem exists_layered {file : Option String} (small : s.IsSmall)
    (read : fileOf files file = .ok source) (assigns : ∀ e ∈ source, IsAssignment e)
    (environment : ∀ e ∈ env.source, IsAssignment e) :
    ∃ r, layered s files file env = .ok r := by
  obtain ⟨root, hroot, hforms⟩ := small.forms
  have hfilled : Forms (fun part name =>
      ((given? env.source part name).or (given? source part name)).getD (s.cell part name))
      ((root.layer source).layer env.source) :=
    ((hforms.layer assigns).layer environment).congr fun _ _ _ _ => Option.getD_or.symm
  rw [layered_eq hroot, read]
  refine ⟨_, small.ofValue hfilled fun part hpart name v hv => ?_⟩
  rcases Option.or_eq_some_iff.mp hv with henv | ⟨-, hfile⟩
  · exact takes_of_given? environment hpart henv
  · exact takes_of_given? assigns hpart hfile

/-- A variable for a setting is one assignment among those of the environment. -/
theorem Environment.source_around (hpart : part ∈ parts) (hname : name ∈ names part)
    (named : Text.lowercased key = "lead__" ++ (part ++ "__" ++ name))
    (filled : text.isEmpty = false) :
    Environment.source (before ++ (key, text) :: after) =
      before.source ++ (part ++ "." ++ name, Environment.value text) :: after.source := by
  rw [← source_variable hpart hname named filled, source, source, source, List.filterMap_append]

/-- If settings with a variable for one of them can be loaded at all, the setting has the value of
the variable, whatever the file and the variables before it assign. -/
theorem holds_of_layered {file : Option String} (hpart : part ∈ parts) (hname : name ∈ names part)
    (named : Text.lowercased key = "lead__" ++ (part ++ "__" ++ name))
    (filled : text.isEmpty = false) (taken : Takes part name (Environment.value text))
    (later : ∀ e ∈ after.source, Spares part name e)
    (h : layered s files file (before ++ (key, text) :: after) = .ok r) :
    ∃ root : Value, root.Tidy ∧ root.Holds part name (Environment.value text) ∧
      Settings.ofValue root = .ok r := by
  cases hroot : s.toValue? with
  | none =>
    rw [layered, hroot] at h
    cases h
  | some root =>
    rw [layered_eq hroot] at h
    cases hfile : fileOf files file with
    | error e =>
      rw [hfile] at h
      cases h
    | ok source =>
      rw [hfile] at h
      have hread : Settings.ofValue ((root.layer source).layer
        (Environment.source (before ++ (key, text) :: after))) = .ok r := h
      rw [Environment.source_around hpart hname named filled, Value.layer,
        List.foldl_append] at hread
      -- the variable comes after `front` and before the others
      have front : ((root.layer source).layer before.source).Tidy :=
        ((tidy_of_toValue? hroot).layer source).layer before.source
      have holds := Value.holds_set hpart hname taken ((root.layer source).layer before.source)
      have tidy := front.set (part ++ "." ++ name) (Environment.value text)
      exact ⟨_, tidy.layer after.source, holds.layer tidy later, hread⟩

end

end Primacy.Settings
