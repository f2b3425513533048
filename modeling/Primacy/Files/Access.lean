/-
  Primacy.Files.Access

  What programs do with a file tree: make directories, open, read, write, append, list, link and
  remove.
-/
import Primacy.Files.Tree

namespace Primacy.Files.Tree

open Text.Utf8 (Bytes)

/-! ## Looking -/

/-- What stands at a path. -/
inductive Kind where
  | absent
  | file
  | directory
  deriving DecidableEq

def kind (t : Tree) (path : String) : Kind :=
  match t.find path with
  | .ok id =>
    match t.node id with
    | .directory .. => .directory
    | _ => .file
  | .error _ => .absent

def isDirectory (t : Tree) (path : String) : Bool := t.kind path == .directory

/-- The bytes and the time of the last change of an open file. -/
def content (t : Tree) (id : NodeId) : Bytes × Int :=
  match t.node id with
  | .file bytes written => (bytes, written)
  | _ => ([], 0)

/-- The bytes and the time of the last change of the file at `path`. -/
def read (t : Tree) (path : String) : Except Fault (Bytes × Int) := do
  let id ← t.find path
  match t.node id with
  | .file bytes written => .ok (bytes, written)
  | _ => .error .isDirectory

/-- The entries of the directory at `path`, in the order of their names. -/
def list (t : Tree) (path : String) : Except Fault (Keyed NodeId) := do
  let id ← t.find path
  match t.node id with
  | .directory _ entries => .ok entries
  | _ => .error .notDirectory

/-! ## Directories -/

/-- `path` without the slashes at its end, unless nothing else is in it. -/
def withoutSlash (path : String) : String :=
  let bare := String.ofList (path.toList.reverse.dropWhile (· == '/')).reverse
  if bare.isEmpty then path else bare

/-- The vacant place for a new name; `slash` holds if a slash follows the name.  A slash behind a
name that is taken does not matter. -/
def placeFor (t : Tree) (path : String) : Except Fault (NodeId × String × Bool) := do
  match ← t.lookup false (withoutSlash path) with
  | .taken _ => .error .alreadyExists
  | .vacant dir name _ => .ok (dir, name, path.toList.getLast? == some '/')

/-- Makes one directory. -/
def makeDirectory (t : Tree) (path : String) : Except Fault Tree := do
  let (dir, name, _) ← t.placeFor path
  return (t.bindNew dir name (.directory dir [])).1

/-- Makes the directory at `path`, if need be after `above` has made the one that it lies in.  A
directory that is there already is as good; the tree keeps what was made before a failure. -/
def makeBelow (above : Option (String → Tree × Except Fault Unit)) (t : Tree) (path : String) :
    Tree × Except Fault Unit :=
  if path.isEmpty then (t, .ok ())
  else match t.makeDirectory path with
    | .ok t => (t, .ok ())
    | .error .notFound =>
      match above, Path.parent? path with
      | some above, some dir =>
        match above dir with
        | (t, .ok ()) =>
          match t.makeDirectory path with
          | .ok t => (t, .ok ())
          | .error f => (t, if t.isDirectory path then .ok () else .error f)
        | failed => failed
      | _, _ => (t, .error .unfinished)
    | .error f => (t, if t.isDirectory path then .ok () else .error f)

/-- Makes the directory at `path` and, if need be, those above it, at most `depth` of them. -/
def makeAbove (depth : Nat) (t : Tree) (path : String) : Tree × Except Fault Unit :=
  match depth with
  | 0 => t.makeBelow none path
  | depth + 1 => t.makeBelow (some (makeAbove depth t)) path

/-- Makes the directory at `path` and those above it. -/
def makeDirectories (t : Tree) (path : String) : Tree × Except Fault Unit :=
  makeAbove path.length t path

/-- Makes the directory that `path` lies in, unless something is there already.  A bare file name
lies in a directory that needs no making. -/
def prepareParent (t : Tree) (path : String) : Tree × Except Fault Unit :=
  match Path.parent? path with
  | some above =>
    if above.isEmpty || t.kind above != .absent then (t, .ok ()) else t.makeDirectories above
  | none => (t, .ok ())

/-! ## Files -/

/-- Opens the file at `path` for writing, and makes an empty one if there is none. -/
def openFile (t : Tree) (path : String) : Except Fault (Tree × NodeId) := do
  let slash := path.toList.getLast? == some '/'
  match ← t.lookup true (withoutSlash path) with
  | .taken id =>
    match t.node id with
    | .file .. => if slash then .error .isDirectory else .ok (t, id)
    | _ => .error .isDirectory
  | .vacant dir name linkSlash =>
    if slash || linkSlash then .error .isDirectory
    else .ok (t.tick.bindNew dir name (.file [] t.clock))

/-- Gives an open file new content. -/
def overwrite (t : Tree) (id : NodeId) (bytes : Bytes) : Tree :=
  t.tick.setNode id (.file bytes t.clock)

/-- Adds to the end of an open file. -/
def extend (t : Tree) (id : NodeId) (bytes : Bytes) : Tree :=
  if bytes.isEmpty then t else t.overwrite id ((t.content id).1 ++ bytes)

/-- Opens `path` for appending; the directory it lies in is made first. -/
def openForAppend (t : Tree) (path : String) : Tree × Except Fault NodeId :=
  match t.prepareParent path with
  | (t, .error f) => (t, .error f)
  | (t, .ok ()) =>
    match t.openFile path with
    | .ok (t, id) => (t, .ok id)
    | .error f => (t, .error f)

/-- Makes `bytes` the content of the file at `path`. -/
def write (t : Tree) (path : String) (bytes : Bytes) : Tree × Except Fault NodeId :=
  match t.openFile path with
  | .ok (t, id) => (t.overwrite id bytes, .ok id)
  | .error f => (t, .error f)

/-- Sets the time of the last change. -/
def setWritten (t : Tree) (id : NodeId) (written : Int) : Tree :=
  match t.node id with
  | .file bytes _ => t.setNode id (.file bytes written)
  | _ => t

/-! ## Links and removal -/

/-- Makes a link at `path`. -/
def makeLink (t : Tree) (path target : String) : Except Fault Tree := do
  if target.toList.contains '\x00' then .error .unusablePath
  else if target.isEmpty then .error .notFound
  else match ← t.placeFor path with
    | (_, _, true) => .error .notFound
    | (dir, name, false) => .ok (t.bindNew dir name (.link target)).1

/-- Takes every name of node `id` out of the directories; a node is named once. -/
def unbind (t : Tree) (id : NodeId) : Tree :=
  { t with nodes := t.nodes.map fun
      | .directory parent entries => .directory parent (entries.filter (·.2 != id))
      | n => n }

/-- Removes what stands at `path`, a directory with all it holds, a link and not its target. -/
def remove (t : Tree) (path : String) : Except Fault Tree := do
  match ← t.lookup false path with
  | .taken id => .ok (t.unbind id)
  | .vacant .. => .error .notFound

end Primacy.Files.Tree
