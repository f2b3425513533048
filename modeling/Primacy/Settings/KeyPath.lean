/-
  Primacy.Settings.KeyPath

  Paths of settings, such as `node.port`, and how a value is laid over others at one.  Names do not
  depend on case; tables are merged member by member, and everything else replaces what was there.
-/
import Primacy.Settings.Value

namespace Primacy.Settings

/-! ## Paths -/

/-- One step of a path, into a table or into an array. -/
inductive Step where
  | member (name : String)
  | item (index : Int)
  deriving DecidableEq

/-- A name, and steps from there. -/
structure KeyPath where
  name : String
  steps : List Step
  deriving DecidableEq

namespace KeyPath

def isNameChar (c : Char) : Bool := c.isAlphanum || c == ' ' || c == '_' || c == '-'

/-- The index in front of a closing bracket, and what follows the bracket. -/
def index? (cs : List Char) : Option (Int × List Char) :=
  let (negative, ds) := match cs with
    | '-' :: cs => (true, cs)
    | cs => (false, cs)
  match Text.natural? (ds.takeWhile Text.isDigit), ds.dropWhile Text.isDigit with
  | some n, ']' :: rest =>
    let i : Int := if negative then -n else n
    if Text.int64Min ≤ i ∧ i ≤ Text.int64Max then some (i, rest) else none
  | _, _ => none

/-- The steps that a text writes; `fuel` is at least its length. -/
def steps? : Nat → List Char → Option (List Step)
  | _, [] => some []
  | fuel + 1, '.' :: cs =>
    let name := cs.takeWhile isNameChar
    if name.isEmpty then none
    else (steps? fuel (cs.dropWhile isNameChar)).map (.member (String.ofList name) :: ·)
  | fuel + 1, '[' :: cs =>
    match index? cs with
    | some (i, rest) => (steps? fuel rest).map (.item i :: ·)
    | none => none
  | _, _ => none

/-- Reads a path.  What is no path names a member of the root as it stands. -/
def ofText (key : String) : KeyPath :=
  let cs := key.toList
  let name := cs.takeWhile isNameChar
  match if name.isEmpty then none else steps? cs.length (cs.dropWhile isNameChar) with
  | some steps => ⟨String.ofList name, steps⟩
  | none => ⟨key, []⟩

end KeyPath

/-! ## Layers -/

namespace Value

/-- The members of a table; other values have none. -/
def members : Value → List (String × Value)
  | table ms => ms
  | _ => []

/-- The items of an array; other values have none. -/
def items : Value → List Value
  | array vs => vs
  | _ => []

/-- Sets a member to what `f` makes of the one that is there. -/
def setMember (f : Option Value → Value) (name : String) :
    List (String × Value) → List (String × Value)
  | [] => [(name, f none)]
  | (k, v) :: ms => if k = name then (k, f (some v)) :: ms else (k, v) :: setMember f name ms

mutual

/-- Lays `new` over `old`. -/
def overlay (old : Option Value) (new : Value) : Value :=
  match new with
  | table ms => overlayMembers (old.getD (.table [])) ms
  | v => v

/-- Lays members over a value, which becomes a table if there are any. -/
def overlayMembers (old : Value) (new : List (String × Value)) : Value :=
  match new with
  | [] => old
  | (k, v) :: ms =>
    overlayMembers (.table (setMember (fun o => overlay o v) (Text.lowercased k) old.members)) ms

end

/-- The place that an index means in an array of `n` items; negative ones count from the end. -/
def place (n : Nat) (index : Int) : Nat :=
  if 0 ≤ index then index.toNat else n - (-index).toNat

/-- Lays `new` over what stands at the end of `steps`.  Values on the way that are of the wrong
kind give way, and an item of an array is replaced as a whole. -/
def overlayAt (new : Value) : List Step → Option Value → Value
  | [], old => overlay old new
  | .member name :: steps, old =>
    .table (setMember (overlayAt new steps) (Text.lowercased name) (old.getD .absent).members)
  | .item i :: steps, old =>
    let vs := (old.getD .absent).items
    let n := place vs.length i
    let vs := vs ++ List.replicate (n + 1 - vs.length) .absent
    .array (vs.set n (if steps.isEmpty then new else overlayAt new steps vs[n]?))

/-- Lays the value of a key over `root`. -/
def set (root : Value) (key : String) (new : Value) : Value :=
  let path := KeyPath.ofText key
  overlayAt new (.member path.name :: path.steps) (some root)

/-- Lays a source over `root`, one key after the other. -/
def layer (root : Value) (source : List (String × Value)) : Value :=
  source.foldl (fun v e => v.set e.1 e.2) root

end Value

end Primacy.Settings
