/-
  Primacy.Proofs.Settings.Verbatim

  Settings that are texts, loaded from the environment.  The text of a variable is read as a value
  before it is known what the setting takes; a setting that is a text then takes what the value
  prints as.  So the setting is loaded as the text of its variable, unless this is a word for a
  truth value or a number, and is not written the way it prints.
-/
import Primacy.Proofs.Settings.Literal
import Primacy.Proofs.Settings.Precedence

namespace Primacy.Settings

open Files (Tree)

/-! ## Settings that are texts -/

/-- Reading the setting `x` sets the text `name` to what a scalar prints as if it is the setting of
this name, and leaves the text alone if it is another one. -/
structure Setting.Minds {σ : Type} (name : String) (text : σ → Option String) (x : Setting σ) :
    Prop where
  own : x.name = name → ∀ {v printed}, v.asText? = some printed →
    ∃ f, x.ofValue? v = some f ∧ ∀ s, text (f s) = some printed
  other : x.name ≠ name → ∀ {v f}, x.ofValue? v = some f → ∀ s, text (f s) = text s

/-- The texts of a node. -/
def Node.texts : List (String × (Node → Option String)) :=
  [("host", fun s => some s.host), ("client_label", fun s => some s.label),
    ("role", fun s => some s.role), ("node_dir", fun s => some s.nodeDir),
    ("log_file", fun s => some s.logFile)]

/-- The texts of an election, which may be absent. -/
def Election.texts : List (String × (Election → Option String)) :=
  [("coordinator_address", (·.coordinatorAddress)), ("registry_path", (·.registryPath))]

/-- The texts of a failover driver. -/
def Failover.texts : List (String × (Failover → Option String)) :=
  [("conf_dir", fun s => some s.confDir), ("lead_target", fun s => some s.leadTarget),
    ("store_target", fun s => some s.storeTarget)]

namespace Setting

variable {σ α : Type} {name other : String} {kind : Kind α} {get : σ → α} {set : α → σ → σ}
  {text : σ → Option String}

theorem minds_text {get : σ → String} {set : String → σ → σ}
    (h : ∀ a s, text (set a s) = some a) : (of name .text get set).Minds name text where
  own _ {v printed} hv := by
    refine ⟨set printed, ?_, h printed⟩
    show v.asText?.map set = _
    rw [hv]
    rfl
  other hne := absurd rfl hne

theorem minds_optional {get : σ → Option String} {set : Option String → σ → σ}
    (h : ∀ a s, text (set a s) = a) : (of name (.optional .text) get set).Minds name text where
  own _ {v printed} hv := by
    refine ⟨set (some printed), ?_, h (some printed)⟩
    have hread : (Kind.optional Kind.text).ofValue? v = some (some printed) := by
      cases v with
      | absent => cases hv
      | _ => exact congrArg (Option.map some) hv
    show ((Kind.optional Kind.text).ofValue? v).map set = _
    rw [hread]
    rfl
  other hne := absurd rfl hne

theorem minds_other (hne : other ≠ name) (h : ∀ a s, text (set a s) = text s) :
    (of other kind get set).Minds name text where
  own heq := absurd heq hne
  other _ {v f} hf s := by
    obtain ⟨a, -, rfl⟩ := Option.map_eq_some_iff.mp hf
    exact h a s

end Setting

theorem Node.minds_texts : ∀ t ∈ Node.texts, ∀ x ∈ Node.settings, x.Minds t.1 t.2 := by
  simp only [texts, settings, List.forall_mem_cons, List.not_mem_nil, false_implies, implies_true,
    and_true]
  -- five texts, and six settings to be read for each
  refine ⟨?_, ?_, ?_, ?_, ?_⟩ <;> refine ⟨?_, ?_, ?_, ?_, ?_, ?_⟩ <;>
    first
      | exact Setting.minds_text fun _ _ => rfl
      | exact Setting.minds_other (by decide) fun _ _ => rfl

theorem Election.minds_texts :
    ∀ t ∈ Election.texts, ∀ x ∈ Election.settings, x.Minds t.1 t.2 := by
  simp only [texts, settings, List.forall_mem_cons, List.not_mem_nil, false_implies, implies_true,
    and_true]
  refine ⟨?_, ?_⟩ <;> refine ⟨?_, ?_, ?_, ?_⟩ <;>
    first
      | exact Setting.minds_optional fun _ _ => rfl
      | exact Setting.minds_other (by decide) fun _ _ => rfl

theorem Failover.minds_texts :
    ∀ t ∈ Failover.texts, ∀ x ∈ Failover.settings, x.Minds t.1 t.2 := by
  simp only [texts, settings, List.forall_mem_cons, List.not_mem_nil, false_implies, implies_true,
    and_true]
  refine ⟨?_, ?_, ?_⟩ <;> refine ⟨?_, ?_, ?_, ?_, ?_, ?_, ?_, ?_, ?_, ?_⟩ <;>
    first
      | exact Setting.minds_text fun _ _ => rfl
      | exact Setting.minds_other (by decide) fun _ _ => rfl

/-- A setting that is a text, by its section and its name, and where it is found. -/
structure TextSetting where
  part : String
  name : String
  get : Settings → Option String

/-- The settings that are texts or paths. -/
def textSettings : List TextSetting :=
  Node.texts.map (fun t => ⟨"node", t.1, fun s => t.2 s.node⟩) ++
    (Election.texts.map (fun t => ⟨"election", t.1, fun s => t.2 s.election⟩) ++
      Failover.texts.map fun t => ⟨"failover", t.1, fun s => t.2 s.failover⟩)

theorem mem_names_textSettings :
    ∀ t ∈ textSettings, t.part ∈ parts ∧ t.name ∈ names t.part := by
  decide

/-! ## Reading a text -/

section

variable {σ : Type} {settings : List (Setting σ)} {name key printed : String}
  {text : σ → Option String} {v table : Value} {init s t : σ}

/-- One member is read as the setting of its name, or passed over if there is none. -/
theorem Setting.of_ofTable_singleton {m : String × Value}
    (h : Setting.ofTable settings key [m] s = .ok t) :
    (∃ x ∈ settings, x.name = m.1 ∧ ∃ f, x.ofValue? m.2 = some f ∧ t = f s) ∨
      (m.1 ∉ settings.map (·.name) ∧ t = s) := by
  obtain ⟨k, u⟩ := m
  rw [ofTable] at h
  cases hfind : settings.find? (·.name == k) with
  | none =>
    rw [hfind] at h
    cases h
    refine .inr ⟨fun hmem => ?_, rfl⟩
    obtain ⟨x, hx, rfl⟩ := List.mem_map.mp hmem
    exact List.find?_eq_none.mp hfind x hx (beq_self_eq_true _)
  | some x =>
    have hname : x.name = k := by simpa using List.find?_some hfind
    rw [hfind] at h
    cases hread : x.ofValue? u with
    | none =>
      simp only [hread] at h
      cases h
    | some f =>
      simp only [hread] at h
      cases h
      exact .inl ⟨x, List.mem_of_find?_eq_some hfind, hname, f, hread, rfl⟩

section

variable (minds : ∀ x ∈ settings, x.Minds name text) (named : name ∈ settings.map (·.name))
  (prints : v.asText? = some printed)

include minds named prints

/-- A text is read from the one member of its name. -/
theorem Setting.text_of_ofTable {ms : List (String × Value)} (nodup : (ms.map (·.1)).Nodup)
    (hv : (name, v) ∈ ms) (h : Setting.ofTable settings key ms init = .ok t) :
    text t = some printed := by
  have frame : ∀ m s s', m.1 ≠ name → Setting.ofTable settings key [m] s = .ok s' →
      text s' = text s := by
    intro m s s' hne h
    rcases of_ofTable_singleton h with ⟨x, hx, hname, f, hf, rfl⟩ | ⟨-, rfl⟩
    · exact (minds x hx).other (hname ▸ hne) hf s
    · rfl
  -- so the member of its name decides, whatever is read before it and behind it
  obtain ⟨s₀, s₁, hread, heq⟩ := (sequential_ofTable settings key).of_mem frame h nodup hv
  rcases of_ofTable_singleton hread with ⟨x, hx, hname, f, hf, rfl⟩ | ⟨hnot, -⟩
  · obtain ⟨g, hg, hset⟩ := (minds x hx).own hname prints
    obtain rfl := Option.some.inj (hf.symm.trans hg)
    exact heq.trans (hset s₀)
  · exact absurd named hnot

theorem Setting.text_of_ofSection (distinct : table.Distinct) (hv : (name, v) ∈ table.members)
    (h : Setting.ofSection settings key table init = .ok t) : text t = some printed := by
  cases table with
  | table ms => exact text_of_ofTable minds named prints distinct hv h
  | _ => exact absurd hv List.not_mem_nil

end

/-- The section `part` is read by `settings`, from its own member of the root. -/
structure ReadsPart (part : String) (settings : List (Setting σ)) (get : Settings → σ) : Prop where
  own : ∀ {v s s'}, Settings.ofTable [(part, v)] s = .ok s' →
    ∃ init, Setting.ofSection settings part v init = .ok (get s')
  other : ∀ m s s', m.1 ≠ part → Settings.ofTable [m] s = .ok s' → get s' = get s

theorem ReadsPart.text_of_ofValue {get : Settings → σ} {part : String} {root : Value}
    {s : Settings} (reads : ReadsPart part settings get) (minds : ∀ x ∈ settings, x.Minds name text)
    (named : name ∈ settings.map (·.name)) (prints : v.asText? = some printed) (tidy : root.Tidy)
    (holds : root.Holds part name v) (h : Settings.ofValue root = .ok s) :
    text (get s) = some printed := by
  obtain ⟨table, htable, hv⟩ := holds
  cases root with
  | table ms =>
    obtain ⟨s₀, s₁, hread, heq⟩ :=
      Settings.sequential_ofTable.of_mem reads.other h tidy.sections htable
    obtain ⟨init, hsection⟩ := reads.own hread
    rw [heq]
    exact Setting.text_of_ofSection minds named prints (tidy.settings _ htable) hv hsection
  | _ => exact absurd htable List.not_mem_nil

end

/-- One member is read as the section of its name, or passed over if there is none. -/
theorem of_ofTable_singleton {m : String × Value} {s s' : Settings}
    (h : Settings.ofTable [m] s = .ok s') :
    (m.1 = "node" ∧ ∃ a, Setting.ofSection Node.settings m.1 m.2 {} = .ok a ∧
      s' = { s with node := a }) ∨
    (m.1 = "election" ∧ ∃ a, Setting.ofSection Election.settings m.1 m.2 {} = .ok a ∧
      s' = { s with election := a }) ∨
    (m.1 = "failover" ∧ ∃ a, Setting.ofSection Failover.settings m.1 m.2 {} = .ok a ∧
      s' = { s with failover := a }) ∨
    (m.1 ∉ ["node", "election", "failover"] ∧ s' = s) := by
  obtain ⟨k, v⟩ := m
  rw [ofTable] at h
  split at h
  · next hk =>
    cases hread : Setting.ofSection Node.settings k v {} <;> rw [hread] at h <;> cases h
    exact .inl ⟨beq_iff_eq.mp hk, _, rfl, rfl⟩
  next hnode =>
  split at h
  · next hk =>
    cases hread : Setting.ofSection Election.settings k v {} <;> rw [hread] at h <;> cases h
    exact .inr (.inl ⟨beq_iff_eq.mp hk, _, rfl, rfl⟩)
  next helection =>
  split at h
  · next hk =>
    cases hread : Setting.ofSection Failover.settings k v {} <;> rw [hread] at h <;> cases h
    exact .inr (.inr (.inl ⟨beq_iff_eq.mp hk, _, rfl, rfl⟩))
  next hfailover =>
  cases h
  simp only [beq_iff_eq] at hnode helection hfailover
  exact .inr (.inr (.inr ⟨by simp [hnode, helection, hfailover], rfl⟩))

theorem readsPart_node : ReadsPart "node" Node.settings (·.node) where
  own h := by
    rcases of_ofTable_singleton h with ⟨-, a, ha, rfl⟩ | ⟨hk, -⟩ | ⟨hk, -⟩ | ⟨hk, -⟩
    · exact ⟨{}, ha⟩
    all_goals simp at hk
  other m s s' hne h := by
    rcases of_ofTable_singleton h with ⟨hk, -⟩ | ⟨-, a, -, rfl⟩ | ⟨-, a, -, rfl⟩ | ⟨-, rfl⟩
    · exact absurd hk hne
    all_goals rfl

theorem readsPart_election : ReadsPart "election" Election.settings (·.election) where
  own h := by
    rcases of_ofTable_singleton h with ⟨hk, -⟩ | ⟨-, a, ha, rfl⟩ | ⟨hk, -⟩ | ⟨hk, -⟩
    case inr.inl => exact ⟨{}, ha⟩
    all_goals simp at hk
  other m s s' hne h := by
    rcases of_ofTable_singleton h with ⟨-, a, -, rfl⟩ | ⟨hk, -⟩ | ⟨-, a, -, rfl⟩ | ⟨-, rfl⟩
    case inr.inl => exact absurd hk hne
    all_goals rfl

theorem readsPart_failover : ReadsPart "failover" Failover.settings (·.failover) where
  own h := by
    rcases of_ofTable_singleton h with ⟨hk, -⟩ | ⟨hk, -⟩ | ⟨-, a, ha, rfl⟩ | ⟨hk, -⟩
    case inr.inr.inl => exact ⟨{}, ha⟩
    all_goals simp at hk
  other m s s' hne h := by
    rcases of_ofTable_singleton h with ⟨-, a, -, rfl⟩ | ⟨-, a, -, rfl⟩ | ⟨hk, -⟩ | ⟨-, rfl⟩
    case inr.inr.inl => exact absurd hk hne
    all_goals rfl

/-- A text is read as what the value at its place prints as. -/
theorem TextSetting.get_of_ofValue {t : TextSetting} (ht : t ∈ textSettings) {root v : Value}
    {printed : String} {s : Settings} (tidy : root.Tidy) (holds : root.Holds t.part t.name v)
    (prints : v.asText? = some printed) (h : Settings.ofValue root = .ok s) :
    t.get s = some printed := by
  rcases List.mem_append.mp ht with ht | ht
  · have named : ∀ x ∈ Node.texts, x.1 ∈ Node.settings.map (·.name) := by decide
    obtain ⟨x, hx, rfl⟩ := List.mem_map.mp ht
    exact readsPart_node.text_of_ofValue (Node.minds_texts x hx) (named x hx) prints tidy holds h
  rcases List.mem_append.mp ht with ht | ht
  · have named : ∀ x ∈ Election.texts, x.1 ∈ Election.settings.map (·.name) := by decide
    obtain ⟨x, hx, rfl⟩ := List.mem_map.mp ht
    exact readsPart_election.text_of_ofValue (Election.minds_texts x hx) (named x hx) prints tidy
      holds h
  · have named : ∀ x ∈ Failover.texts, x.1 ∈ Failover.settings.map (·.name) := by decide
    obtain ⟨x, hx, rfl⟩ := List.mem_map.mp ht
    exact readsPart_failover.text_of_ofValue (Failover.minds_texts x hx) (named x hx) prints tidy
      holds h

/-- A text takes whatever prints. -/
theorem TextSetting.takes {t : TextSetting} (ht : t ∈ textSettings) {v : Value} {printed : String}
    (prints : v.asText? = some printed) : Takes t.part t.name v := by
  have htakes : ∀ {σ : Type} {settings : List (Setting σ)} {name : String}
      {text : σ → Option String}, (∀ x ∈ settings, x.Minds name text) →
      Setting.Takes settings name v := by
    intro σ settings name text minds x hx hname
    obtain ⟨f, hf, -⟩ := (minds x hx).own hname prints
    exact Option.isSome_of_eq_some hf
  rcases List.mem_append.mp ht with ht | ht
  · obtain ⟨x, hx, rfl⟩ := List.mem_map.mp ht
    exact ⟨fun _ => htakes (Node.minds_texts x hx), by simp, by simp⟩
  rcases List.mem_append.mp ht with ht | ht
  · obtain ⟨x, hx, rfl⟩ := List.mem_map.mp ht
    exact ⟨by simp, fun _ => htakes (Election.minds_texts x hx), by simp⟩
  · obtain ⟨x, hx, rfl⟩ := List.mem_map.mp ht
    exact ⟨by simp, by simp, fun _ => htakes (Failover.minds_texts x hx)⟩

/-! ## Loading -/

/-- A setting that is a text, with a variable for it that is not empty, is loaded as what the text
of the variable prints as, whatever the file and the variables before it assign, as long as those
behind it spare the setting.  That is the text itself, unless it is a word for a truth value or a
number.  Loading succeeds if the other sources assign to each setting what it takes. -/
theorem load_text {t : TextSetting} (ht : t ∈ textSettings) {key text : String}
    {after : Environment}
    (named : Text.lowercased key = "lead__" ++ (t.part ++ "__" ++ t.name)) (filled : text ≠ "")
    (later : ∀ e ∈ after.source, Spares t.part t.name e) (files : Tree) (before : Environment) :
    ∃ printed, Prints text printed ∧
      (printed = text ∨ IsWord text ∨ NumberText text.toList) ∧
      (∀ s, load files (before ++ (key, text) :: after) = .ok s → t.get s = some printed) ∧
      ∀ source,
        fileOf files (Environment.get? (before ++ (key, text) :: after) fileVariable) = .ok source →
        (∀ e ∈ source, IsAssignment e) →
        (∀ e ∈ Environment.source (before ++ after), IsAssignment e) →
        ∃ s, load files (before ++ (key, text) :: after) = .ok s := by
  obtain ⟨hpart, hname⟩ := mem_names_textSettings t ht
  have hfilled : text.isEmpty = false := by
    rw [← Bool.not_eq_true, String.isEmpty_iff]
    exact filled
  obtain ⟨printed, hprinted⟩ := exists_prints text
  have taken := TextSetting.takes ht hprinted.asText?
  refine ⟨printed, hprinted, hprinted.verbatim, fun s h => ?_, fun source read file others => ?_⟩
  · obtain ⟨root, tidy, holds, hread⟩ := holds_of_layered hpart hname named hfilled taken later h
    exact TextSetting.get_of_ofValue ht tidy holds hprinted.asText? hread
  · refine exists_layered ?_ read file ?_
    · constructor <;> decide
    · rw [Environment.source_around hpart hname named hfilled]
      rw [Environment.source, List.filterMap_append] at others
      obtain ⟨hbefore, hafter⟩ := List.forall_mem_append.mp others
      exact List.forall_mem_append.mpr ⟨hbefore,
        List.forall_mem_cons.mpr ⟨isAssignment_setting hpart hname taken, hafter⟩⟩

/-- The label is a number in exponent form; the settings file and other variables give the port and
the role. -/
theorem load_text_sampleTree :
    ∃ s, load sampleTree ([(fileVariable, "lead.toml"), ("LEAD__NODE__PORT", "9443")] ++
      ("Lead__Node__Client_Label", "+1.5e3") :: [("LEAD__NODE__ROLE", "lead")]) = .ok s ∧
      s.node.label = "1500" := by
  obtain ⟨source, hsource⟩ : ∃ source, Toml.read? sampleText = some source :=
    Option.isSome_iff_exists.mp (by decide +kernel)
  have file : ∀ e ∈ (Toml.read? sampleText).getD [], IsAssignment e := by decide +kernel
  rw [hsource, Option.getD_some] at file
  have label : ⟨"node", "client_label", fun s => some s.node.label⟩ ∈ textSettings :=
    List.mem_append_left _ (List.mem_cons_of_mem _ List.mem_cons_self)
  obtain ⟨printed, hprinted, -, hget, hload⟩ := load_text label
    (by decide +kernel : Text.lowercased "Lead__Node__Client_Label" =
      "lead__" ++ ("node" ++ "__" ++ "client_label"))
    (by decide : "+1.5e3" ≠ "")
    (by decide +kernel : ∀ e ∈ Environment.source [("LEAD__NODE__ROLE", "lead")],
      Spares "node" "client_label" e)
    sampleTree [(fileVariable, "lead.toml"), ("LEAD__NODE__PORT", "9443")]
  obtain ⟨s, hs⟩ := hload source (fileSource_sampleTree hsource) file (by decide +kernel)
  have hvalue : (Environment.value "+1.5e3").asText? = some "1500" := by decide +kernel
  obtain rfl := Option.some.inj (hprinted.asText?.symm.trans hvalue)
  exact ⟨s, hs, Option.some.inj (hget s hs)⟩

/-- A label of digits loses its leading zeros. -/
theorem label_not_verbatim :
    load sampleTree [("LEAD__NODE__CLIENT_LABEL", "007")] = .ok { node := { label := "7" } } := by
  rfl

end Primacy.Settings
