/-
  Primacy.Settings.Value

  Values as a layer of settings gives them, before it is known which setting they are for, and how
  they are read as text, truth values and numbers.
-/
import Primacy.Decimal.Shortest
import Primacy.Text.Lowercase

namespace Primacy.Settings

open Decimal (Binary64)

inductive Value where
  | absent
  | flag (b : Bool)
  | integer (n : Int)
  | float (x : Binary64)
  | text (s : String)
  | table (members : List (String × Value))
  | array (items : List Value)
  deriving Inhabited

namespace Value

/-- Scalars are read as the text that they print as. -/
def asText? : Value → Option String
  | flag b => some (if b then "true" else "false")
  | integer n => some (toString n)
  | float x => some x.text
  | text s => some s
  | _ => none

/-- The truth value that a word stands for, in any case. -/
def wordFlag? (s : String) : Option Bool :=
  let word := Text.lowercased s
  if ["true", "on", "yes"].contains word then some true
  else if ["false", "off", "no"].contains word then some false
  else none

/-- Numbers are true unless they are zero. -/
def asFlag? : Value → Option Bool
  | flag b => some b
  | integer n => some (n != 0)
  | float x => some x.isNonzero
  | text s => if s == "1" then some true else if s == "0" then some false else wordFlag? s
  | _ => none

/-- Truth values count as one and zero, and floats are rounded. -/
def asNatural? : Value → Option Nat
  | flag b => some b.toNat
  | integer n => if n < 0 then none else some n.toNat
  | float x => some x.toNat64
  | text s =>
    match wordFlag? s with
    | some b => some b.toNat
    | none => Text.natUpTo? Text.nat64Max (Text.lowercased s)
  | _ => none

end Value

end Primacy.Settings
