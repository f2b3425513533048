/-
  Primacy.Proofs.Settings.Override

  Settings with a file and the environment on top.  Settings go out to their layered form, sources
  are laid over it, and every setting is read back: from what the environment gives it, or else from
  what the file gives it, or else from what it was.
-/
import Primacy.Proofs.Files.Growth
import Primacy.Proofs.Settings.Layering
import Primacy.Proofs.Text.Utf8

namespace Primacy.Settings

/-! ## Single settings -/

namespace Kind

variable {α : Type}

/-- The value goes out and comes back. -/
def Keeps (k : Kind α) (a : α) : Prop := ∃ v, k.toValue? a = some v ∧ k.ofValue? v = some a

/-- What a setting is read as that was `a`: as what is given, or as it was. -/
def choose (k : Kind α) (given : Option Value) (a : α) : α := (given.bind k.ofValue?).getD a

theorem keeps_text (s : String) : text.Keeps s := ⟨.text s, rfl, rfl⟩

theorem keeps_flag (b : Bool) : flag.Keeps b := ⟨.flag b, rfl, rfl⟩

theorem keeps_natural {n max : Nat} (bounded : n ≤ max) (small : (n : Int) ≤ Text.int64Max) :
    (natural max).Keeps n := by
  refine ⟨.integer n, if_pos small, ?_⟩
  have hread : (Value.integer n).asNatural? = some n := by
    rw [Value.asNatural?, if_neg (Int.not_lt.mpr (Int.natCast_nonneg n)), Int.toNat_natCast]
  show (Value.integer n).asNatural?.filter (· ≤ max) = some n
  rw [hread, Option.filter_some, if_pos (decide_eq_true bounded)]

theorem keeps_natural64 {n : Nat} (small : (n : Int) ≤ Text.int64Max) :
    (natural Text.nat64Max).Keeps n := by
  refine keeps_natural ?_ small
  have hbound : Text.int64Max ≤ (Text.nat64Max : Int) := by decide
  exact Int.ofNat_le.mp (Int.le_trans small hbound)

theorem keeps_optional_text (s : Option String) : (optional text).Keeps s := by
  cases s with
  | none => exact ⟨.absent, rfl, rfl⟩
  | some s => exact ⟨.text s, rfl, rfl⟩

end Kind

namespace Setting

variable {σ α : Type} {settings all : List (Setting σ)} {given : String → Option Value} {s : σ}
  {name key : String}

theorem find?_name (nodup : (settings.map (·.name)).Nodup) {x : Setting σ} (hx : x ∈ settings) :
    settings.find? (·.name == x.name) = some x := by
  induction settings with
  | nil => exact absurd hx List.not_mem_nil
  | cons y settings ih =>
    obtain ⟨hy, hnodup⟩ := List.nodup_cons.mp nodup
    rcases List.mem_cons.mp hx with rfl | hx
    · exact List.find?_cons_of_pos (beq_self_eq_true _)
    · have hne : y.name ≠ x.name := fun heq => hy (List.mem_map.mpr ⟨x, hx, heq.symm⟩)
      rw [List.find?_cons_of_neg (by simpa using hne), ih hnodup hx]

/-- What a section gives to a setting of its own. -/
def cell (settings : List (Setting σ)) (s : σ) (name : String) : Value :=
  ((settings.find? (·.name == name)).bind fun x => x.toValue? s).getD .absent

theorem cell_name (nodup : (settings.map (·.name)).Nodup) {x : Setting σ} (hx : x ∈ settings) :
    cell settings s x.name = (x.toValue? s).getD .absent := by
  rw [cell, find?_name nodup hx, Option.bind_some]

/-- Reading settings one after the other, each from what is given or else from what `s` has, makes
the change `f`. -/
inductive Yields (given : String → Option Value) (s : σ) : List (Setting σ) → (σ → σ) → Prop where
  | nil : Yields given s [] id
  | cons {α : Type} {name : String} {kind : Kind α} {get : σ → α} {set : α → σ → σ}
      {settings : List (Setting σ)} {f : σ → σ} (keeps : kind.Keeps (get s))
      (rest : Yields given s settings f) :
      Yields given s (.of name kind get set :: settings)
        (f ∘ set (kind.choose (given name) (get s)))

variable {f : σ → σ}

theorem Yields.isSome (h : Yields given s settings f) {x : Setting σ} (hx : x ∈ settings) :
    (x.toValue? s).isSome = true := by
  induction h with
  | nil => exact absurd hx List.not_mem_nil
  | cons keeps rest ih =>
    rcases List.mem_cons.mp hx with rfl | hx
    · obtain ⟨v, hv, -⟩ := keeps
      exact Option.isSome_of_eq_some hv
    · exact ih hx

theorem mapM_eq_map {β : Type} {f : α → Option β} {g : α → β} {xs : List α}
    (h : ∀ x ∈ xs, f x = some (g x)) : xs.mapM f = some (xs.map g) := by
  induction xs with
  | nil => rfl
  | cons x xs ih =>
    obtain ⟨hx, hxs⟩ := List.forall_mem_cons.mp h
    rw [List.mapM_cons, hx, ih hxs]
    rfl

/-- The layered form of a section. -/
theorem toSection?_eq (nodup : (settings.map (·.name)).Nodup)
    (h : ∀ x ∈ settings, (x.toValue? s).isSome = true) :
    toSection? settings s =
      some (.table ((settings.map (·.name)).map fun name => (name, cell settings s name))) := by
  have hmember : ∀ x ∈ settings, ((x.toValue? s).map fun v => (x.name, v)) =
      some (x.name, cell settings s x.name) := by
    intro x hx
    obtain ⟨v, hv⟩ := Option.isSome_iff_exists.mp (h x hx)
    rw [cell_name nodup hx, hv, Option.map_some, Option.getD_some]
  rw [toSection?, mapM_eq_map hmember, Option.map_some, List.map_map]
  rfl

/-- What a setting is read from is what is given, or what it was. -/
theorem ofValue?_choose {kind : Kind α} {get : σ → α} {set : α → σ → σ} {own : Value}
    (keeps : kind.Keeps (get s)) (hown : own = (kind.toValue? (get s)).getD .absent)
    (taken : ∀ v, given name = some v → ((of name kind get set).ofValue? v).isSome = true) :
    (of name kind get set).ofValue? ((given name).getD own) =
      some (set (kind.choose (given name) (get s))) := by
  cases hgiven : given name with
  | none =>
    obtain ⟨v, hv, hback⟩ := keeps
    rw [Option.getD_none, hown, hv, Option.getD_some]
    show (kind.ofValue? v).map set = _
    rw [hback]
    rfl
  | some v =>
    have hsome : ((kind.ofValue? v).map set).isSome = true := taken v hgiven
    obtain ⟨a, ha⟩ := Option.isSome_iff_exists.mp (Option.isSome_map .. ▸ hsome)
    show (kind.ofValue? v).map set = some (set (((kind.ofValue? v)).getD (get s)))
    rw [ha]
    rfl

theorem ofTable_foreign {members : List (String × Value)}
    (foreign : ∀ m ∈ members, m.1 ∉ all.map (·.name)) (init : σ) :
    ofTable all key members init = .ok init := by
  induction members with
  | nil => rfl
  | cons m members ih =>
    obtain ⟨hm, hmembers⟩ := List.forall_mem_cons.mp foreign
    have hnone : all.find? (·.name == m.1) = none := by
      refine List.find?_eq_none.mpr fun x hx heq => hm ?_
      exact beq_iff_eq.mp heq ▸ List.mem_map_of_mem hx
    rw [ofTable, hnone]
    exact ih hmembers

theorem ofTable_cons {v : Value} {members : List (String × Value)} {x : Setting σ}
    (hfind : all.find? (·.name == name) = some x) (hread : x.ofValue? v = some f) (init : σ) :
    ofTable all key ((name, v) :: members) init = ofTable all key members (f init) := by
  rw [ofTable, hfind]
  simp only [hread]

theorem Yields.ofTable (h : Yields given s settings f) (nodup : (all.map (·.name)).Nodup)
    (mem : ∀ x ∈ settings, x ∈ all) (taken : ∀ name v, given name = some v → Takes all name v)
    {rest : List (String × Value)} (foreign : ∀ m ∈ rest, m.1 ∉ all.map (·.name)) (init : σ) :
    Setting.ofTable all key ((settings.map (·.name)).map
      (fun name => (name, (given name).getD (cell all s name))) ++ rest) init = .ok (f init) := by
  induction h generalizing init with
  | nil => exact ofTable_foreign foreign init
  | @cons _ name kind get set settings f keeps yields ih =>
    obtain ⟨hx, hmem⟩ := List.forall_mem_cons.mp mem
    have hread : (of name kind get set).ofValue? ((given name).getD (cell all s name)) =
        some (set (kind.choose (given name) (get s))) :=
      ofValue?_choose keeps (cell_name nodup hx) fun v hv => taken name v hv _ hx rfl
    have hfind : all.find? (·.name == name) = some (of name kind get set) := find?_name nodup hx
    exact (ofTable_cons hfind hread init).trans (ih hmem _)

/-- A section is read from a sheet of what is given or else of what it has. -/
theorem Yields.ofSection (h : Yields given s settings f) (nodup : (settings.map (·.name)).Nodup)
    (taken : ∀ name v, given name = some v → Takes settings name v)
    {us : List (String × Value)}
    (hus : Sheet (settings.map (·.name)) (fun name => (given name).getD (cell settings s name)) us)
    (init : σ) : Setting.ofSection settings key (.table us) init = .ok (f init) := by
  obtain ⟨rest, rfl, foreign⟩ := hus
  exact h.ofTable nodup (fun _ => id) taken foreign init

end Setting

/-! ## Sections -/

/-- A node with what is given to its settings. -/
def Node.chosen (given : String → Option Value) (s : Node) : Node where
  host := Kind.text.choose (given "host") s.host
  label := Kind.text.choose (given "client_label") s.label
  role := Kind.text.choose (given "role") s.role
  port := (Kind.natural Text.nat16Max).choose (given "port") s.port
  nodeDir := Kind.text.choose (given "node_dir") s.nodeDir
  logFile := Kind.text.choose (given "log_file") s.logFile

/-- An election with what is given to its settings. -/
def Election.chosen (given : String → Option Value) (s : Election) : Election where
  coordinatorAddress :=
    (Kind.optional .text).choose (given "coordinator_address") s.coordinatorAddress
  blockingStart := Kind.flag.choose (given "blocking_start") s.blockingStart
  lockPollInterval :=
    (Kind.natural Text.nat64Max).choose (given "lock_poll_interval_ms") s.lockPollInterval
  registryPath := (Kind.optional .text).choose (given "registry_path") s.registryPath

/-- A failover driver with what is given to its settings. -/
def Failover.chosen (given : String → Option Value) (s : Failover) : Failover where
  cycleNodes := Kind.flag.choose (given "cycle_vms") s.cycleNodes
  leadsToStop := (Kind.natural Text.nat64Max).choose (given "num_leads_to_stop") s.leadsToStop
  storesToStop := (Kind.natural Text.nat64Max).choose (given "num_vms_to_stop") s.storesToStop
  minCycleInterval :=
    (Kind.natural Text.nat64Max).choose (given "min_cycle_interval_secs") s.minCycleInterval
  firstCycleGrace :=
    (Kind.natural Text.nat64Max).choose (given "first_cycle_grace_secs") s.firstCycleGrace
  regenerateConfig := Kind.flag.choose (given "regenerate_config") s.regenerateConfig
  confDir := Kind.text.choose (given "conf_dir") s.confDir
  leadTarget := Kind.text.choose (given "lead_target") s.leadTarget
  storeTarget := Kind.text.choose (given "store_target") s.storeTarget
  primaryPollInterval :=
    (Kind.natural Text.nat64Max).choose (given "oracle_poll_interval_ms") s.primaryPollInterval

/-! ## Whole settings -/

open Files (Tree)

/-- Settings with what is given to them. -/
def chosen (given : String → String → Option Value) (s : Settings) : Settings where
  node := s.node.chosen (given "node")
  election := s.election.chosen (given "election")
  failover := s.failover.chosen (given "failover")

/-- The port is a port number, and no other number is above the signed 64-bit range. -/
structure IsSmall (s : Settings) : Prop where
  port : s.node.port ≤ Text.nat16Max
  lockPollInterval : (s.election.lockPollInterval : Int) ≤ Text.int64Max
  leadsToStop : (s.failover.leadsToStop : Int) ≤ Text.int64Max
  storesToStop : (s.failover.storesToStop : Int) ≤ Text.int64Max
  minCycleInterval : (s.failover.minCycleInterval : Int) ≤ Text.int64Max
  firstCycleGrace : (s.failover.firstCycleGrace : Int) ≤ Text.int64Max
  primaryPollInterval : (s.failover.primaryPollInterval : Int) ≤ Text.int64Max

variable {s : Settings}

theorem IsSmall.node (small : s.IsSmall) (given : String → Option Value) :
    ∃ f, Setting.Yields given s.node Node.settings f ∧ f {} = s.node.chosen given := by
  have hport : (s.node.port : Int) ≤ Text.int64Max := by
    have hbound : (Text.nat16Max : Int) ≤ Text.int64Max := by decide
    exact Int.le_trans (Int.ofNat_le.mpr small.port) hbound
  exact ⟨_, .cons (Kind.keeps_text _) <| .cons (Kind.keeps_text _) <| .cons (Kind.keeps_text _) <|
    .cons (Kind.keeps_natural small.port hport) <| .cons (Kind.keeps_text _) <|
    .cons (Kind.keeps_text _) .nil, rfl⟩

theorem IsSmall.election (small : s.IsSmall) (given : String → Option Value) :
    ∃ f, Setting.Yields given s.election Election.settings f ∧
      f {} = s.election.chosen given :=
  ⟨_, .cons (Kind.keeps_optional_text _) <| .cons (Kind.keeps_flag _) <|
    .cons (Kind.keeps_natural64 small.lockPollInterval) <|
    .cons (Kind.keeps_optional_text _) .nil, rfl⟩

theorem IsSmall.failover (small : s.IsSmall) (given : String → Option Value) :
    ∃ f, Setting.Yields given s.failover Failover.settings f ∧
      f {} = s.failover.chosen given :=
  ⟨_, .cons (Kind.keeps_flag _) <| .cons (Kind.keeps_natural64 small.leadsToStop) <|
    .cons (Kind.keeps_natural64 small.storesToStop) <|
    .cons (Kind.keeps_natural64 small.minCycleInterval) <|
    .cons (Kind.keeps_natural64 small.firstCycleGrace) <| .cons (Kind.keeps_flag _) <|
    .cons (Kind.keeps_text _) <| .cons (Kind.keeps_text _) <| .cons (Kind.keeps_text _) <|
    .cons (Kind.keeps_natural64 small.primaryPollInterval) .nil, rfl⟩

/-- What settings give to a setting of their own. -/
def cell (s : Settings) (part name : String) : Value :=
  if part = "election" then Setting.cell Election.settings s.election name
  else if part = "failover" then Setting.cell Failover.settings s.failover name
  else Setting.cell Node.settings s.node name

/-- The layered form of a section. -/
def sheet (s : Settings) (part : String) : Value :=
  .table ((names part).map fun name => (name, s.cell part name))

/-- Small settings have a layered form. -/
theorem IsSmall.forms (small : s.IsSmall) : ∃ root, s.toValue? = some root ∧ Forms s.cell root := by
  obtain ⟨_, hnode, -⟩ := small.node fun _ => none
  obtain ⟨_, helection, -⟩ := small.election fun _ => none
  obtain ⟨_, hfailover, -⟩ := small.failover fun _ => none
  have hn : Setting.toSection? Node.settings s.node = some (s.sheet "node") :=
    Setting.toSection?_eq (by decide) fun _ => hnode.isSome
  have he : Setting.toSection? Election.settings s.election = some (s.sheet "election") :=
    Setting.toSection?_eq (by decide) fun _ => helection.isSome
  have hf : Setting.toSection? Failover.settings s.failover = some (s.sheet "failover") :=
    Setting.toSection?_eq (by decide) fun _ => hfailover.isSome
  refine ⟨.table (parts.map fun part => (part, s.sheet part)), ?_, s.sheet, _, rfl, ?_, ?_⟩
  · rw [toValue?, hn, he, hf]
    rfl
  · exact ⟨[], (List.append_nil _).symm, nofun⟩
  · exact fun part _ => ⟨_, rfl, [], (List.append_nil _).symm, nofun⟩

theorem ofTable_foreign {members : List (String × Value)} (foreign : ∀ m ∈ members, m.1 ∉ parts)
    (init : Settings) : ofTable members init = .ok init := by
  induction members with
  | nil => rfl
  | cons m members ih =>
    obtain ⟨k, v⟩ := m
    obtain ⟨hk, hmembers⟩ := List.forall_mem_cons.mp foreign
    have hne (name : String) (hname : name ∈ parts) : ¬ (k == name) = true :=
      fun heq => hk (beq_iff_eq.mp heq ▸ hname)
    rw [ofTable, if_neg (hne _ (by decide)), if_neg (hne _ (by decide)), if_neg (hne _ (by decide))]
    exact ih hmembers

/-- Settings are read from a sheet of sections. -/
theorem ofTable_sheet {tables : String → Value} {members : List (String × Value)}
    (h : Sheet parts tables members) {init t : Settings}
    (node : Setting.ofSection Node.settings "node" (tables "node") {} = .ok t.node)
    (election :
      Setting.ofSection Election.settings "election" (tables "election") {} = .ok t.election)
    (failover :
      Setting.ofSection Failover.settings "failover" (tables "failover") {} = .ok t.failover) :
    ofTable members init = .ok t := by
  obtain ⟨rest, rfl, foreign⟩ := h
  show ofTable (("election", tables "election") :: ("failover", tables "failover") ::
    ("node", tables "node") :: rest) init = .ok t
  rw [ofTable, if_neg (by decide), if_pos (by decide), election]
  show ofTable (("failover", tables "failover") :: ("node", tables "node") :: rest) _ = _
  rw [ofTable, if_neg (by decide), if_neg (by decide), if_pos (by decide), failover]
  show ofTable (("node", tables "node") :: rest) _ = _
  rw [ofTable, if_pos (by decide), node]
  exact ofTable_foreign foreign _

/-- Settings are read from a layered form as what is given or else as what they were. -/
theorem IsSmall.ofValue (small : s.IsSmall) {given : String → String → Option Value} {root : Value}
    (h : Forms (fun part name => (given part name).getD (s.cell part name)) root)
    (taken : ∀ part ∈ parts, ∀ name v, given part name = some v → Takes part name v) :
    Settings.ofValue root = .ok (s.chosen given) := by
  obtain ⟨tables, members, rfl, hsheet, hparts⟩ := h
  obtain ⟨f, hnode, hnodeEnd⟩ := small.node (given "node")
  obtain ⟨g, helection, helectionEnd⟩ := small.election (given "election")
  obtain ⟨h, hfailover, hfailoverEnd⟩ := small.failover (given "failover")
  refine ofTable_sheet hsheet ?_ ?_ ?_
  · obtain ⟨us, htable, hus⟩ := hparts "node" (by decide)
    rw [htable, hnode.ofSection (by decide)
      (fun name v hv => (taken "node" (by decide) name v hv).1 rfl) hus, hnodeEnd]
    rfl
  · obtain ⟨us, htable, hus⟩ := hparts "election" (by decide)
    rw [htable, helection.ofSection (by decide)
      (fun name v hv => (taken "election" (by decide) name v hv).2.1 rfl) hus, helectionEnd]
    rfl
  · obtain ⟨us, htable, hus⟩ := hparts "failover" (by decide)
    rw [htable, hfailover.ofSection (by decide)
      (fun name v hv => (taken "failover" (by decide) name v hv).2.2 rfl) hus, hfailoverEnd]
    rfl

theorem chosen_none : s.chosen (fun _ _ => none) = s := rfl

/-- A file that is found, whose bytes are text without a byte order mark, gives what is read from
the text. -/
theorem fileSource_of_read {files : Tree} {name path text : String} {bytes : Text.Utf8.Bytes}
    {written : Int} {source : List (String × Value)} (found : findFile files name = .ok path)
    (read : files.read path = .ok (bytes, written)) (decoded : Text.Utf8.decode? bytes = some text)
    (unmarked : text.toList.head? ≠ some '\uFEFF') (parsed : Toml.read? text = some source) :
    fileSource files name = .ok source := by
  -- no mark is cut off, so what is parsed is the text itself
  have hmark (cs : List Char) : ¬ text.toList = '\uFEFF' :: cs := fun heq => unmarked (heq ▸ rfl)
  simp only [fileSource, found, read, decoded, parsed, bind, Except.bind]

/-- Settings whose numbers have a layered form can be laid under any file and any environment that
assign values to settings which take them, in whatever case and as many as they like: every setting
becomes what the environment gives it, or else what the file gives it, or else stays what it was.  A
file and an environment that assign nothing change nothing. -/
theorem override_eq_chosen {files : Tree} {name : String} {env : Environment}
    {source : List (String × Value)} (small : s.IsSmall) (read : fileSource files name = .ok source)
    (file : ∀ e ∈ source, IsAssignment e) (environment : ∀ e ∈ env.source, IsAssignment e) :
    s.override files name env = .ok (s.chosen fun part setting =>
      (given? env.source part setting).or (given? source part setting)) ∧
    (source = [] → env.source = [] → s.override files name env = .ok s) := by
  obtain ⟨root, hroot, hforms⟩ := small.forms
  -- the layered form is filled twice, by the file and then by the environment, before it is read
  have hoverride : s.override files name env =
      Settings.ofValue ((root.layer source).layer env.source) := by
    rw [override, layered, hroot]
    show (fileSource files name >>= fun fromFile => _) = _
    rw [read]
    rfl
  have hchosen : s.override files name env = .ok (s.chosen fun part setting =>
      (given? env.source part setting).or (given? source part setting)) := by
    rw [hoverride]
    refine small.ofValue (((hforms.layer file).layer environment).congr ?_) ?_
    · exact fun part _ setting _ => Option.getD_or.symm
    · intro part hpart setting v hv
      rcases Option.or_eq_some_iff.mp hv with henv | ⟨-, hfile⟩
      · exact takes_of_given? environment hpart henv
      · exact takes_of_given? file hpart hfile
  refine ⟨hchosen, ?_⟩
  rintro rfl hempty
  rw [hchosen, hempty]
  exact congrArg Except.ok chosen_none

/-- Assigns two settings of a node, one in capitals, and one setting of the election. -/
def sampleText : String :=
  "[node]\nhost = \"lab\"\nPORT = 8443\n[election]\nblocking_start = \"yes\"\n"

def sampleTree : Tree where
  nodes := #[.directory 0 [("lead.toml", 1)], .file (Text.Utf8.encode sampleText) 0]
  home := 0
  clock := 0

theorem find_sampleTree : sampleTree.find "lead.toml" = .ok 1 := by
  have home : sampleTree.node sampleTree.home = .directory 0 [("lead.toml", 1)] := rfl
  exact Tree.find_of_name (by decide) home rfl nofun

theorem fileSource_sampleTree {source : List (String × Value)}
    (h : Toml.read? sampleText = some source) : fileSource sampleTree "lead.toml" = .ok source := by
  have hkind : sampleTree.kind "lead.toml" = .file := by
    rw [Tree.kind, find_sampleTree]
    rfl
  have hfind : findFile sampleTree "lead.toml" = .ok "lead.toml" := by
    rw [findFile, if_pos hkind]
    rfl
  have hread : sampleTree.read "lead.toml" = .ok (Text.Utf8.encode sampleText, 0) := by
    rw [Tree.read, find_sampleTree]
    rfl
  have hdecode : Text.Utf8.decode? (Text.Utf8.encode sampleText) = some sampleText := by
    have hroundtrip := Text.Utf8.decode?_encode sampleText.toList
    rwa [String.ofList_toList] at hroundtrip
  exact fileSource_of_read hfind hread hdecode (by decide) h

/-- Assigns the port of the node and one setting of the failover driver; the role is left empty. -/
def sampleEnvironment : Environment :=
  [("LEAD__NODE__PORT", "9443"), ("lead__failover__cycle_vms", "1"), ("LEAD__NODE__ROLE", ""),
    ("HOME", "/root")]

/-- Settings with a registry file and a poll interval of their own. -/
def sampleSettings : Settings where
  election := { registryPath := some "registry.json", lockPollInterval := 250 }

theorem override_sampleSettings :
    sampleSettings.override sampleTree "lead.toml" sampleEnvironment = .ok {
      node := { host := "lab", port := 9443 }
      election :=
        { registryPath := some "registry.json", lockPollInterval := 250, blockingStart := true }
      failover := { cycleNodes := true } } := by
  obtain ⟨source, hsource⟩ : ∃ source, Toml.read? sampleText = some source :=
    Option.isSome_iff_exists.mp (by decide +kernel)
  have small : sampleSettings.IsSmall := by
    constructor <;> decide
  have file : ∀ e ∈ (Toml.read? sampleText).getD [], IsAssignment e := by decide +kernel
  have environment : ∀ e ∈ sampleEnvironment.source, IsAssignment e := by decide +kernel
  have hchosen : (sampleSettings.chosen fun part setting =>
      (given? sampleEnvironment.source part setting).or
        (given? ((Toml.read? sampleText).getD []) part setting)) =
      { node := { host := "lab", port := 9443 }
        election :=
          { registryPath := some "registry.json", lockPollInterval := 250, blockingStart := true }
        failover := { cycleNodes := true } } := by decide +kernel
  rw [hsource, Option.getD_some] at file hchosen
  rw [(override_eq_chosen small (fileSource_sampleTree hsource) file environment).1, hchosen]

end Primacy.Settings
