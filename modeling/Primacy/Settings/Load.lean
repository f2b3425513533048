/-
  Primacy.Settings.Load

  Settings in layers: what there is already, then a file, then the environment; later layers win.
-/
import Primacy.Files.Access
import Primacy.Settings.Basic
import Primacy.Settings.Environment
import Primacy.Toml.Document

namespace Primacy.Settings

open Files (Tree)

/-- The file that a name means: the file itself, which has to have a known extension, or the one
whose name goes on with `.toml`. -/
def findFile (files : Tree) (name : String) : Except SettingsError String :=
  if files.kind name = .file then
    if Path.extension? name = some "toml" then .ok name else .error .fileUnusable
  else
    match Path.fileName? name with
    | some last =>
      let path := Path.join ((Path.parent? name).getD "") (last ++ ".toml")
      if files.kind path = .file then .ok path else .error .fileUnusable
    | none => .error .fileUnusable

/-- The settings of a file.  A byte order mark in front does not count. -/
def fileSource (files : Tree) (name : String) : Except SettingsError (List (String × Value)) := do
  let path ← findFile files name
  match files.read path with
  | .error _ => .error .fileUnusable
  | .ok (bytes, _) =>
    match Text.Utf8.decode? bytes with
    | none => .error .fileUnusable
    | some text =>
      let text := match text.toList with
        | '\uFEFF' :: cs => String.ofList cs
        | _ => text
      match Toml.read? text with
      | some members => .ok members
      | none => .error .fileSyntax

/-- Lays an optional file and the environment over settings. -/
def layered (s : Settings) (files : Tree) (file : Option String) (env : Environment) :
    Except SettingsError Settings :=
  match s.toValue? with
  | none => .error .unsuitable
  | some root => do
    let fromFile ← match file with
      | some name => fileSource files name
      | none => .ok []
    ofValue ((root.layer fromFile).layer env.source)

/-- The variable that names the settings file of a process. -/
def fileVariable : String := "CONFIG_PATH"

/-- The settings of a process: the defaults, its settings file, the environment. -/
def load (files : Tree) (env : Environment) : Except SettingsError Settings :=
  layered {} files (env.get? fileVariable) env

/-- The settings with a file and the present environment on top. -/
def override (s : Settings) (files : Tree) (file : String) (env : Environment) :
    Except SettingsError Settings :=
  layered s files (some file) env

end Primacy.Settings
