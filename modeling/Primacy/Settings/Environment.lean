/-
  Primacy.Settings.Environment

  Settings from environment variables.  `LEAD__NODE__PORT` is the path `node.port`; a variable that
  is set to nothing counts as not set.
-/
import Primacy.Settings.KeyPath

namespace Primacy.Settings

open Decimal (Binary64)

/-- Names and values of environment variables. -/
abbrev Environment := List (String × String)

namespace Environment

/-- What names of settings begin with, in lower case. -/
def leader : List Char := "lead__".toList

/-- Writes a point for every two underscores. -/
def points : List Char → List Char
  | '_' :: '_' :: cs => '.' :: points cs
  | c :: cs => c :: points cs
  | [] => []

/-- The path that a variable sets, if it sets one. -/
def key? (name : String) : Option String :=
  let cs := (Text.lowercased name).toList
  if leader.isPrefixOf cs then some (String.ofList (points (cs.drop leader.length))) else none

/-- The value that a text stands for: a truth value, an integer, a float, or the text itself. -/
def value (s : String) : Value :=
  let word := Text.lowercased s
  if word == "true" then .flag true
  else if word == "false" then .flag false
  else match Text.int64? s with
    | some n => .integer n
    | none =>
      match Binary64.read? s with
      | some x => .float x
      | none => .text s

/-- The settings that an environment holds. -/
def source (env : Environment) : List (String × Value) :=
  env.filterMap fun e =>
    if e.2.isEmpty then none else (key? e.1).map fun key => (key, value e.2)

/-- The value of a variable. -/
def get? (env : Environment) (name : String) : Option String :=
  (env.find? (·.1 == name)).map (·.2)

end Environment

end Primacy.Settings
