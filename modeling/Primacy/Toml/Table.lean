/-
  Primacy.Toml.Table

  Tables while a document is read.  They remember how they came to be, because a table that was
  written out must not be added to from elsewhere.
-/
import Primacy.Settings.Value

namespace Primacy.Toml

open Settings (Value)

/-- How a table came to be. -/
inductive Origin where
  /-- From a header of its own. -/
  | header
  /-- As a step of another table's header. -/
  | implied
  /-- As a step of a key with points in it. -/
  | dotted
  deriving DecidableEq

inductive Item where
  | value (v : Value)
  | table (origin : Origin) (members : List (String × Item))
  /-- Tables of one name, the last one first. -/
  | tables (rows : List (List (String × Item)))

abbrev Members := List (String × Item)

namespace Members

def get? (m : Members) (key : String) : Option Item := (m.find? (·.1 == key)).map (·.2)

/-- Sets `key`, in its place if it is there. -/
def set (m : Members) (key : String) (item : Item) : Members :=
  if (get? m key).isSome then m.map fun e => if e.1 == key then (key, item) else e
  else m ++ [(key, item)]

/-- Changes the table that `path` leads to, and makes those that are missing with `origin`.  Keys
with points may not pass through a table that has a header. -/
def within (origin : Origin) (change : Origin → Members → Option Members) :
    List String → Origin → Members → Option Members
  | [], here, m => change here m
  | key :: path, _, m =>
    match get? m key with
    | none => (within origin change path origin []).map fun sub => set m key (.table origin sub)
    | some (.table o sub) =>
      if origin = .dotted ∧ o = .header then none
      else (within origin change path o sub).map fun sub => set m key (.table o sub)
    | some (.tables (row :: rows)) =>
      (within origin change path .header row).map fun row => set m key (.tables (row :: rows))
    | some _ => none

/-- Adds the value of a key to the table it stands in.  All but the last part of the key lead
through tables that such keys made. -/
def insert (m : Members) (parts : List String) (v : Value) : Option Members :=
  match parts.reverse with
  | [] => none
  | last :: path =>
    within .dotted (fun here m =>
      if (decide (here = .dotted)) == path.isEmpty then none
      else if (get? m last).isSome then none
      else some (set m last (.value v))) path.reverse .header m

/-- Opens the table of a header. -/
def openTable (m : Members) (parts : List String) : Option Members :=
  match parts.reverse with
  | [] => none
  | last :: path =>
    within .implied (fun _ m =>
      match get? m last with
      | none => some (set m last (.table .header []))
      | some (.table .implied sub) => some (set m last (.table .header sub))
      | some _ => none) path.reverse .header m

/-- Adds a table to those of a header in double brackets. -/
def openRow (m : Members) (parts : List String) : Option Members :=
  match parts.reverse with
  | [] => none
  | last :: path =>
    within .implied (fun _ m =>
      match get? m last with
      | none => some (set m last (.tables [[]]))
      | some (.tables rows) => some (set m last (.tables ([] :: rows)))
      | some _ => none) path.reverse .header m

/-- Changes the table that the last header opened. -/
def atHeader (change : Members → Option Members) : List String → Members → Option Members
  | [], m => change m
  | key :: path, m =>
    match get? m key with
    | some (.table o sub) => (atHeader change path sub).map fun sub => set m key (.table o sub)
    | some (.tables (row :: rows)) =>
      (atHeader change path row).map fun row => set m key (.tables (row :: rows))
    | _ => none

end Members

mutual

/-- The value of an item. -/
def Item.toValue : Item → Value
  | .value v => v
  | .table _ members => .table (toValues members)
  | .tables rows => .array (toRows rows).reverse

def toValues : List (String × Item) → List (String × Value)
  | [] => []
  | (key, item) :: rest => (key, item.toValue) :: toValues rest

def toRows : List (List (String × Item)) → List Value
  | [] => []
  | row :: rows => .table (toValues row) :: toRows rows

end

end Primacy.Toml
