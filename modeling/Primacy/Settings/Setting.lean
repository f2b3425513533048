/-
  Primacy.Settings.Setting

  Single settings and sections of them.  A setting knows its name and how it is read from JSON,
  read from a layered value and written back; a section is read from a table, or from an array of
  its settings in order.
-/
import Primacy.Error
import Primacy.Json.Shape
import Primacy.Settings.Value

namespace Primacy.Settings

open Text (Reader)

/-- What values of one type look like outside. -/
structure Kind (α : Type) where
  json : Reader Json.Fault α
  ofValue? : Value → Option α
  /-- Numbers above the signed 64-bit range have no layered form. -/
  toValue? : α → Option Value

namespace Kind

def text : Kind String where
  json := Json.string
  ofValue? := Value.asText?
  toValue? := fun s => some (.text s)

def flag : Kind Bool where
  json := Json.boolean
  ofValue? := Value.asFlag?
  toValue? := fun b => some (.flag b)

/-- A natural number of at most `max`. -/
def natural (max : Nat) : Kind Nat where
  json := Json.natural max
  ofValue? := fun v => v.asNatural?.filter (· ≤ max)
  toValue? := fun n => if (n : Int) ≤ Text.int64Max then some (.integer n) else none

/-- A setting that may be absent. -/
def optional {α : Type} (k : Kind α) : Kind (Option α) where
  json := Json.optional k.json
  ofValue? := fun
    | .absent => some none
    | v => (k.ofValue? v).map some
  toValue? := fun
    | none => some .absent
    | some a => k.toValue? a

end Kind

/-- A setting of a section `σ`. -/
structure Setting (σ : Type) where
  name : String
  json : Reader Json.Fault (σ → σ)
  ofValue? : Value → Option (σ → σ)
  toValue? : σ → Option Value

namespace Setting

variable {σ α : Type}

def of (name : String) (kind : Kind α) (get : σ → α) (set : α → σ → σ) : Setting σ where
  name := name
  json := do return set (← kind.json)
  ofValue? := fun v => (kind.ofValue? v).map set
  toValue? := fun s => kind.toValue? (get s)

def field (s : Setting σ) : Json.Field σ := ⟨s.name, false, s.json⟩

/-- Reads the settings of a table on top of `init`; members that are no settings are passed over. -/
def ofTable (settings : List (Setting σ)) (key : String) :
    List (String × Value) → σ → Except SettingsError σ
  | [], init => .ok init
  | (name, v) :: members, init =>
    match settings.find? (·.name == name) with
    | none => ofTable settings key members init
    | some s =>
      match s.ofValue? v with
      | some set => ofTable settings key members (set init)
      | none => .error (.wrongType (some s!"{key}.{name}"))

/-- Reads the settings of an array on top of `init`, from the one at place `i` on. -/
def ofArray (key : String) (i : Nat) :
    List (Setting σ) → List Value → σ → Except SettingsError σ
  | s :: settings, v :: items, init =>
    match s.ofValue? v with
    | some set => ofArray key (i + 1) settings items (set init)
    | none => .error (.wrongType (some s!"{key}[{i}]"))
  | _, _, init => .ok init

/-- Reads a section on top of `init`. -/
def ofSection (settings : List (Setting σ)) (key : String) (v : Value) (init : σ) :
    Except SettingsError σ :=
  match v with
  | .table members => ofTable settings key members init
  | .array items => ofArray key 0 settings items init
  | _ => .error .unsuitable

/-- The layered form of a section. -/
def toSection? (settings : List (Setting σ)) (s : σ) : Option Value :=
  (settings.mapM fun (x : Setting σ) => (x.toValue? s).map fun v => (x.name, v)).map Value.table

end Setting

end Primacy.Settings
