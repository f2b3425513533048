/-
  Primacy.Settings.Basic

  The settings of a lead node and of the failover driver beside it, in three sections.
-/
import Primacy.Settings.Election
import Primacy.Settings.Failover
import Primacy.Settings.Node

namespace Primacy

structure Settings where
  node : Settings.Node := {}
  election : Settings.Election := {}
  failover : Settings.Failover := {}
  deriving DecidableEq, Inhabited

namespace Settings

/-- The first section to be at fault decides. -/
def validate (s : Settings) : Except Error Unit := do
  s.node.validate
  s.election.validate
  s.failover.validate

/-! ## JSON -/

/-- A section as a member of an object. -/
def sectionField {σ : Type} (name : String) (settings : List (Setting σ)) (init : σ)
    (set : σ → Settings → Settings) : Json.Field Settings where
  name := name
  required := false
  read := do return set (← Json.record (settings.map Setting.field) init)

def fields : List (Json.Field Settings) :=
  [sectionField "node" Node.settings {} fun a s => { s with node := a },
   sectionField "election" Election.settings {} fun a s => { s with election := a },
   sectionField "failover" Failover.settings {} fun a s => { s with failover := a }]

/-- Reads settings from JSON; what is missing keeps its default. -/
def ofJson (text : String) : Except Json.Fault Settings :=
  Json.read (Json.record fields {}) text

/-! ## Layers -/

/-- The settings that a table of sections makes up; what is missing keeps its default. -/
def ofTable : List (String × Value) → Settings → Except SettingsError Settings
  | [], s => .ok s
  | (name, v) :: members, s => do
    if name == "node" then
      ofTable members { s with node := ← Setting.ofSection Node.settings name v {} }
    else if name == "election" then
      ofTable members { s with election := ← Setting.ofSection Election.settings name v {} }
    else if name == "failover" then
      ofTable members { s with failover := ← Setting.ofSection Failover.settings name v {} }
    else ofTable members s

/-- Reads settings from a layered value. -/
def ofValue : Value → Except SettingsError Settings
  | .table members => ofTable members {}
  | _ => .error .unsuitable

/-- The settings as a value to lay others over. -/
def toValue? (s : Settings) : Option Value := do
  let node ← Setting.toSection? Node.settings s.node
  let election ← Setting.toSection? Election.settings s.election
  let failover ← Setting.toSection? Failover.settings s.failover
  return .table [("election", election), ("failover", failover), ("node", node)]

end Settings

end Primacy
