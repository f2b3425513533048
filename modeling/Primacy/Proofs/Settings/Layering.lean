/-
  Primacy.Proofs.Settings.Layering

  What a layer of settings gives to whom.  A source assigns values to settings, by a table for a
  section or by a path for one setting, in whatever case their names are written.  The layered form
  of settings is a sheet: a table of sections, with one cell for each setting and perhaps others
  that nobody reads.  Laying a source over a sheet fills the cells that it assigns and no others.
-/
import Primacy.Settings.Load

namespace Primacy.Settings

/-! ## Assignments -/

/-- The setting `name`, if it is one of the settings, can be read from the value. -/
def Setting.Takes {σ : Type} (settings : List (Setting σ)) (name : String) (v : Value) : Prop :=
  ∀ x ∈ settings, x.name = name → (x.ofValue? v).isSome = true

/-- The setting `name` of the section `part`, if there is one, can be read from the value. -/
def Takes (part name : String) (v : Value) : Prop :=
  (part = "node" → Setting.Takes Node.settings name v) ∧
  (part = "election" → Setting.Takes Election.settings name v) ∧
  (part = "failover" → Setting.Takes Failover.settings name v)

instance {σ : Type} (settings : List (Setting σ)) (name : String) (v : Value) :
    Decidable (Setting.Takes settings name v) :=
  inferInstanceAs (Decidable (∀ x ∈ settings, x.name = name → (x.ofValue? v).isSome = true))

instance (part name : String) (v : Value) : Decidable (Takes part name v) :=
  inferInstanceAs (Decidable (_ ∧ _ ∧ _))

/-- The sections, in the order of the layered form. -/
def parts : List String := ["election", "failover", "node"]

/-- The settings of a section. -/
def names (part : String) : List String :=
  if part = "election" then Election.settings.map (·.name)
  else if part = "failover" then Failover.settings.map (·.name)
  else if part = "node" then Node.settings.map (·.name)
  else []

/-- A value for one setting. -/
structure Assignment where
  part : String
  name : String
  value : Value

/-- The section that an entry of a source is for.  Case does not matter. -/
def sectionOf (e : String × Value) : String := Text.lowercased (KeyPath.ofText e.1).name

/-- The entry is a table for its section or a value for one setting. -/
def isDirect (e : String × Value) : Bool :=
  match (KeyPath.ofText e.1).steps, e.2 with
  | [], .table _ => true
  | [.member _], _ => true
  | _, _ => false

/-- The assignments that an entry makes. -/
def assignments (e : String × Value) : List Assignment :=
  match (KeyPath.ofText e.1).steps, e.2 with
  | [], .table members => members.map fun m => ⟨sectionOf e, Text.lowercased m.1, m.2⟩
  | [.member name], v => [⟨sectionOf e, Text.lowercased name, v⟩]
  | _, _ => []

/-- The entry assigns values to settings that can be read from them.  Names of no setting may have
any value, and so may what is in no section. -/
def IsAssignment (e : String × Value) : Prop :=
  sectionOf e ∈ parts → isDirect e = true ∧ ∀ a ∈ assignments e, Takes a.part a.name a.value

instance : DecidablePred IsAssignment := fun e =>
  inferInstanceAs (Decidable (_ → _ ∧ ∀ a ∈ assignments e, Takes a.part a.name a.value))

/-- What the last of some assignments to a setting gives to it. -/
def assigned? (part name : String) : List Assignment → Option Value
  | [] => none
  | a :: as =>
    (assigned? part name as).or (if a.part = part ∧ a.name = name then some a.value else none)

/-- What a source gives to a setting. -/
def given? (source : List (String × Value)) (part name : String) : Option Value :=
  assigned? part name (source.flatMap assignments)

variable {part name : String} {as bs : List Assignment} {v : Value} {e : String × Value}
  {source : List (String × Value)}

theorem assigned?_append (part name : String) (as bs : List Assignment) :
    assigned? part name (as ++ bs) = (assigned? part name bs).or (assigned? part name as) := by
  induction as with
  | nil => exact (Option.or_none ..).symm
  | cons a as ih => rw [List.cons_append, assigned?, ih, assigned?, Option.or_assoc]

/-- What is given to a setting was assigned to it. -/
theorem mem_of_assigned? (h : assigned? part name as = some v) : ⟨part, name, v⟩ ∈ as := by
  induction as with
  | nil => exact nomatch h
  | cons a as ih =>
    rw [assigned?] at h
    rcases Option.or_eq_some_iff.mp h with hlater | ⟨-, hhere⟩
    · exact List.mem_cons_of_mem _ (ih hlater)
    · obtain ⟨⟨rfl, rfl⟩, heq⟩ := Option.ite_none_right_eq_some.mp hhere
      cases heq
      exact List.mem_cons_self

theorem assigned?_of_ne (h : ∀ a ∈ as, a.part ≠ part) : assigned? part name as = none := by
  cases ha : assigned? part name as with
  | none => rfl
  | some v => exact absurd rfl (h _ (mem_of_assigned? ha))

theorem isDirect_cases (h : isDirect e = true) :
    ((KeyPath.ofText e.1).steps = [] ∧ ∃ members, e.2 = .table members) ∨
      ∃ name, (KeyPath.ofText e.1).steps = [.member name] := by
  rw [isDirect] at h
  split at h
  · next hsteps hvalue => exact .inl ⟨hsteps, _, hvalue⟩
  · next hsteps => exact .inr ⟨_, hsteps⟩
  · cases h

theorem part_of_mem_assignments {a : Assignment} (h : a ∈ assignments e) :
    a.part = sectionOf e := by
  rw [assignments] at h
  split at h
  · obtain ⟨m, -, rfl⟩ := List.mem_map.mp h
    rfl
  · rw [List.mem_singleton.mp h]
  · cases h

/-- What a source gives to a setting can be read. -/
theorem takes_of_given? (hsource : ∀ e ∈ source, IsAssignment e) (hpart : part ∈ parts)
    (h : given? source part name = some v) : Takes part name v := by
  obtain ⟨e, he, ha⟩ := List.mem_flatMap.mp (mem_of_assigned? h)
  exact (hsource e he (part_of_mem_assignments ha ▸ hpart)).2 _ ha

/-! ## Variables -/

theorem ofText_setting : ∀ part ∈ parts, ∀ name ∈ names part,
    KeyPath.ofText (part ++ "." ++ name) = ⟨part, [.member name]⟩ := by
  decide +kernel

theorem points_setting : ∀ part ∈ parts, ∀ name ∈ names part,
    String.ofList (Environment.points (part ++ "__" ++ name).toList) = part ++ "." ++ name := by
  decide +kernel

theorem lowercased_setting : ∀ part ∈ parts, ∀ name ∈ names part,
    Text.lowercased part = part ∧ Text.lowercased name = name := by
  decide +kernel

/-- A variable that names a setting, in whatever case, and is not empty gives a path to it. -/
theorem Environment.source_variable {env : Environment} {key text : String}
    (hpart : part ∈ parts) (hname : name ∈ names part)
    (named : Text.lowercased key = "lead__" ++ (part ++ "__" ++ name))
    (filled : text.isEmpty = false) :
    Environment.source ((key, text) :: env) = (part ++ "." ++ name, Environment.value text) ::
      Environment.source env := by
  have hkey : key? key = some (part ++ "." ++ name) := by
    have hleads : leader.isPrefixOf ("lead__" ++ (part ++ "__" ++ name)).toList = true := by
      rw [String.toList_append]
      exact List.isPrefixOf_iff_prefix.mpr (List.prefix_append _ _)
    simp only [key?]
    rw [named, if_pos hleads, String.toList_append, ← points_setting part hpart name hname]
    exact congrArg (some ∘ String.ofList ∘ points) (List.drop_left ..)
  rw [Environment.source, List.filterMap_cons, filled, hkey]
  rfl

/-- A path to a setting assigns the value to it. -/
theorem assignments_setting (hpart : part ∈ parts) (hname : name ∈ names part) (v : Value) :
    assignments (part ++ "." ++ name, v) = [⟨part, name, v⟩] := by
  obtain ⟨hlowerPart, hlowerName⟩ := lowercased_setting part hpart name hname
  simp only [assignments, sectionOf, ofText_setting part hpart name hname, hlowerPart, hlowerName]

theorem isAssignment_setting (hpart : part ∈ parts) (hname : name ∈ names part)
    (taken : Takes part name v) : IsAssignment (part ++ "." ++ name, v) := by
  intro _
  refine ⟨?_, fun a ha => ?_⟩
  · simp only [isDirect, ofText_setting part hpart name hname]
  · rw [assignments_setting hpart hname] at ha
    rw [List.mem_singleton.mp ha]
    exact taken

/-! ## Sheets -/

/-- The members of a table are one for each of the names, in their order, and perhaps others. -/
def Sheet (names : List String) (cell : String → Value) (members : List (String × Value)) : Prop :=
  ∃ rest, members = names.map (fun name => (name, cell name)) ++ rest ∧ ∀ m ∈ rest, m.1 ∉ names

namespace Value

variable {f : Option Value → Value} {names : List String} {cell : String → Value}
  {members rest : List (String × Value)}

theorem setMember_append (h : ∀ m ∈ members, m.1 ≠ name) :
    setMember f name (members ++ rest) = members ++ setMember f name rest := by
  induction members with
  | nil => rfl
  | cons m members ih =>
    obtain ⟨k, v⟩ := m
    rw [List.cons_append, setMember, if_neg (h _ List.mem_cons_self),
      ih fun m hm => h m (List.mem_cons_of_mem _ hm)]
    rfl

theorem name_of_mem_setMember {m : String × Value} (h : m ∈ setMember f name members) :
    m.1 = name ∨ ∃ m' ∈ members, m'.1 = m.1 := by
  induction members with
  | nil => exact .inl (congrArg (·.1) (List.mem_singleton.mp h))
  | cons m' members ih =>
    obtain ⟨k, v⟩ := m'
    rw [setMember] at h
    split at h
    · next heq =>
      rcases List.mem_cons.mp h with rfl | h
      · exact .inl heq
      · exact .inr ⟨m, List.mem_cons_of_mem _ h, rfl⟩
    · rcases List.mem_cons.mp h with rfl | h
      · exact .inr ⟨_, List.mem_cons_self, rfl⟩
      · refine (ih h).imp_right fun ⟨m', hm', heq⟩ => ⟨m', List.mem_cons_of_mem _ hm', heq⟩

/-- Setting a member that has a cell changes this cell. -/
theorem setMember_map (nodup : names.Nodup) (hname : name ∈ names) :
    setMember f name (names.map (fun k => (k, cell k)) ++ rest) =
      names.map (fun k => (k, if k = name then f (some (cell k)) else cell k)) ++ rest := by
  induction names with
  | nil => exact absurd hname List.not_mem_nil
  | cons k names ih =>
    obtain ⟨hk, hnodup⟩ := List.nodup_cons.mp nodup
    rw [List.map_cons, List.map_cons, List.cons_append, List.cons_append, setMember]
    by_cases heq : k = name
    · subst heq
      rw [if_pos rfl, if_pos rfl]
      have hrest : ∀ k' ∈ names, (k', cell k') =
          (k', if k' = k then f (some (cell k')) else cell k') := by
        intro k' hk'
        have hne : k' ≠ k := fun h => hk (h ▸ hk')
        rw [if_neg hne]
      rw [List.map_congr_left hrest]
    · rw [if_neg heq, if_neg heq, ih hnodup]
      exact (List.mem_cons.mp hname).resolve_left (Ne.symm heq)

end Value

namespace Sheet

variable {names : List String} {cell cell' : String → Value} {members : List (String × Value)}

theorem congr (h : Sheet names cell members) (heq : ∀ k ∈ names, cell k = cell' k) :
    Sheet names cell' members := by
  obtain ⟨rest, rfl, hrest⟩ := h
  refine ⟨rest, ?_, hrest⟩
  rw [List.map_congr_left fun k hk => congrArg (Prod.mk k) (heq k hk)]

/-- Setting a member changes the cell of this name, if there is one, and nothing else. -/
theorem setMember (h : Sheet names cell members) (nodup : names.Nodup) (f : Option Value → Value)
    (name : String) :
    Sheet names (fun k => if k = name then f (some (cell k)) else cell k)
      (Value.setMember f name members) := by
  obtain ⟨rest, rfl, hrest⟩ := h
  by_cases hname : name ∈ names
  · exact ⟨rest, Value.setMember_map nodup hname, hrest⟩
  · have hne : ∀ k ∈ names, cell k = if k = name then f (some (cell k)) else cell k := by
      intro k hk
      have hk' : k ≠ name := fun heq => hname (heq ▸ hk)
      rw [if_neg hk']
    refine ⟨Value.setMember f name rest, ?_, fun m hm => ?_⟩
    · rw [Value.setMember_append, List.map_congr_left fun k hk => congrArg (Prod.mk k) (hne k hk)]
      intro m hm
      obtain ⟨k, hk, rfl⟩ := List.mem_map.mp hm
      exact fun heq => hname (heq ▸ hk)
    · rcases Value.name_of_mem_setMember hm with heq | ⟨m', hm', heq⟩
      · exact heq ▸ hname
      · exact heq ▸ hrest m' hm'

/-- Laying members over a sheet fills the cells of these names. -/
theorem overlayMembers {us : List (String × Value)} (h : Sheet names cell members)
    (nodup : names.Nodup)
    (plain : ∀ u ∈ us, Text.lowercased u.1 ∈ names → ∀ old, Value.overlay old u.2 = u.2)
    (part : String) :
    ∃ members', Value.overlayMembers (.table members) us = .table members' ∧
      Sheet names (fun k => (assigned? part k
        (us.map fun u => ⟨part, Text.lowercased u.1, u.2⟩)).getD (cell k)) members' := by
  induction us generalizing members cell with
  | nil => exact ⟨members, by rw [Value.overlayMembers], h⟩
  | cons u us ih =>
    obtain ⟨k, v⟩ := u
    have hset := h.setMember nodup (fun old => Value.overlay old v) (Text.lowercased k)
    obtain ⟨members', hmembers, hsheet⟩ :=
      ih hset fun u hu => plain u (List.mem_cons_of_mem _ hu)
    refine ⟨members', ?_, hsheet.congr fun k' hk' => ?_⟩
    · rw [Value.overlayMembers]
      exact hmembers
    · rw [List.map_cons, assigned?, Option.getD_or]
      congr 1
      by_cases heq : k' = Text.lowercased k
      · rw [if_pos heq, if_pos ⟨rfl, heq.symm⟩, Option.getD_some]
        exact plain _ List.mem_cons_self (heq ▸ hk') _
      · rw [if_neg heq, if_neg fun h => heq h.2.symm, Option.getD_none]

end Sheet

/-! ## Layered settings -/

theorem nodup_parts : parts.Nodup := by decide

theorem nodup_names (h : part ∈ parts) : (names part).Nodup := by
  revert part
  decide

/-- A table is no value for a setting. -/
theorem ofValue?_table :
    (∀ x ∈ Node.settings, ∀ members, x.ofValue? (.table members) = none) ∧
    (∀ x ∈ Election.settings, ∀ members, x.ofValue? (.table members) = none) ∧
    (∀ x ∈ Failover.settings, ∀ members, x.ofValue? (.table members) = none) := by
  simp only [Node.settings, Election.settings, Failover.settings, List.forall_mem_cons]
  exact ⟨⟨fun _ => rfl, fun _ => rfl, fun _ => rfl, fun _ => rfl, fun _ => rfl, fun _ => rfl,
      nofun⟩,
    ⟨fun _ => rfl, fun _ => rfl, fun _ => rfl, fun _ => rfl, nofun⟩,
    ⟨fun _ => rfl, fun _ => rfl, fun _ => rfl, fun _ => rfl, fun _ => rfl, fun _ => rfl,
      fun _ => rfl, fun _ => rfl, fun _ => rfl, fun _ => rfl, nofun⟩⟩

theorem Setting.not_takes_table {σ : Type} {settings : List (Setting σ)}
    {members : List (String × Value)}
    (plain : ∀ x ∈ settings, ∀ members, x.ofValue? (.table members) = none)
    (hname : name ∈ settings.map (·.name)) : ¬ Setting.Takes settings name (.table members) := by
  intro h
  obtain ⟨x, hx, rfl⟩ := List.mem_map.mp hname
  have hsome := h x hx rfl
  rw [plain x hx] at hsome
  exact nomatch hsome

theorem not_takes_table {members : List (String × Value)} (hname : name ∈ names part) :
    ¬ Takes part name (.table members) := by
  intro h
  rw [names] at hname
  split at hname
  · next hpart => exact Setting.not_takes_table ofValue?_table.2.1 hname (h.2.1 hpart)
  · split at hname
    · next hpart => exact Setting.not_takes_table ofValue?_table.2.2 hname (h.2.2 hpart)
    · split at hname
      · next hpart => exact Setting.not_takes_table ofValue?_table.1 hname (h.1 hpart)
      · exact nomatch hname

/-- So what can be read as a setting replaces what was there. -/
theorem overlay_of_takes (hname : name ∈ names part) (h : Takes part name v) (old : Option Value) :
    Value.overlay old v = v := by
  cases v with
  | table members => exact absurd h (not_takes_table hname)
  | _ =>
    rw [Value.overlay]
    nofun

/-- The value is the layered form of settings: a sheet of sections, each of which is a sheet of its
settings. -/
def Forms (cell : String → String → Value) (root : Value) : Prop :=
  ∃ tables members, root = .table members ∧ Sheet parts tables members ∧
    ∀ part ∈ parts, ∃ us, tables part = .table us ∧ Sheet (names part) (cell part) us

namespace Forms

variable {cell cell' : String → String → Value} {root : Value}

theorem congr (h : Forms cell root)
    (heq : ∀ part ∈ parts, ∀ name ∈ names part, cell part name = cell' part name) :
    Forms cell' root := by
  obtain ⟨tables, members, rfl, hsheet, hparts⟩ := h
  refine ⟨tables, members, rfl, hsheet, fun part hpart => ?_⟩
  obtain ⟨us, htable, hus⟩ := hparts part hpart
  exact ⟨us, htable, hus.congr (heq part hpart)⟩

/-- What an entry makes of its section. -/
theorem section_set {us : List (String × Value)} (he : IsAssignment e) (mem : sectionOf e ∈ parts)
    (h : Sheet (names (sectionOf e)) (cell (sectionOf e)) us) :
    ∃ us', Value.overlayAt e.2 (KeyPath.ofText e.1).steps (some (.table us)) = .table us' ∧
      Sheet (names (sectionOf e)) (fun name =>
        (assigned? (sectionOf e) name (assignments e)).getD (cell (sectionOf e) name)) us' := by
  obtain ⟨hdirect, htaken⟩ := he mem
  rcases isDirect_cases hdirect with ⟨hsteps, members, hvalue⟩ | ⟨name, hsteps⟩
  · have hassigns : assignments e =
        members.map fun u => ⟨sectionOf e, Text.lowercased u.1, u.2⟩ := by
      simp only [assignments, hsteps, hvalue]
    rw [hassigns] at htaken ⊢
    rw [hsteps, hvalue, Value.overlayAt, Value.overlay]
    refine h.overlayMembers (nodup_names mem) (fun u hu hname old => ?_) _
    exact overlay_of_takes hname (htaken _ (List.mem_map_of_mem hu)) old
  · have hassigns : assignments e = [⟨sectionOf e, Text.lowercased name, e.2⟩] := by
      simp only [assignments, hsteps]
    rw [hassigns] at htaken ⊢
    rw [hsteps]
    refine ⟨_, rfl, (h.setMember (nodup_names mem) _ _).congr fun k hk => ?_⟩
    rw [assigned?, assigned?, Option.none_or]
    by_cases heq : k = Text.lowercased name
    · subst heq
      rw [if_pos rfl, if_pos ⟨rfl, rfl⟩, Option.getD_some]
      exact overlay_of_takes hk (htaken _ List.mem_cons_self) _
    · rw [if_neg heq, if_neg fun h => heq h.2.symm, Option.getD_none]

/-- An entry fills the cells that it assigns. -/
theorem set (h : Forms cell root) (he : IsAssignment e) :
    Forms (fun part name => (assigned? part name (assignments e)).getD (cell part name))
      (root.set e.1 e.2) := by
  obtain ⟨tables, members, rfl, hsheet, hparts⟩ := h
  have hset := hsheet.setMember nodup_parts (Value.overlayAt e.2 (KeyPath.ofText e.1).steps)
    (sectionOf e)
  refine ⟨_, _, rfl, hset, fun part hpart => ?_⟩
  obtain ⟨us, htable, hus⟩ := hparts part hpart
  by_cases heq : part = sectionOf e
  · subst heq
    rw [if_pos rfl, htable]
    exact section_set he hpart hus
  · -- an entry assigns nothing to the settings of another section
    rw [if_neg heq]
    refine ⟨us, htable, hus.congr fun name _ => ?_⟩
    have hnone : assigned? part name (assignments e) = none :=
      assigned?_of_ne fun a ha => part_of_mem_assignments ha ▸ Ne.symm heq
    show cell part name = (assigned? part name (assignments e)).getD (cell part name)
    rw [hnone, Option.getD_none]

/-- So does a source, entry by entry. -/
theorem layer (h : Forms cell root) (hsource : ∀ e ∈ source, IsAssignment e) :
    Forms (fun part name => (given? source part name).getD (cell part name))
      (root.layer source) := by
  induction source generalizing cell root with
  | nil => exact h
  | cons e source ih =>
    have hset := ih (h.set (hsource e List.mem_cons_self))
      fun e' he' => hsource e' (List.mem_cons_of_mem _ he')
    refine hset.congr fun part _ name _ => ?_
    rw [given?, given?, List.flatMap_cons, assigned?_append, Option.getD_or]

end Forms

end Primacy.Settings
