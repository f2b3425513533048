/-
  Primacy.Files.Tree

  A file tree: numbered nodes that directories name, so that a file which is open or locked stays
  the same file while paths to it come and go.  `lookup` follows a path to the node or to the
  vacant place it leads to.
-/
import Primacy.Files.Fault
import Primacy.Keyed
import Primacy.Path
import Primacy.Text.Utf8

namespace Primacy.Files

open Text.Utf8 (Bytes)

/-- The number of a node. -/
abbrev NodeId := Nat

inductive Node where
  /-- A regular file; `written` is the time of its last change, in nanoseconds of the epoch. -/
  | file (bytes : Bytes) (written : Int)
  | directory (parent : NodeId) (entries : Keyed NodeId)
  /-- A symbolic link. -/
  | link (target : String)
  deriving Inhabited

/-- Node 0 is the root; relative paths begin at `home`; `clock` is the time of the next change. -/
structure Tree where
  nodes : Array Node
  home : NodeId
  clock : Int

namespace Tree

/-- A tree with an empty working directory. -/
def blank (clock : Int) : Tree where
  nodes := #[.directory 0 [("tmp", 1)], .directory 0 [("work", 2)], .directory 1 []]
  home := 2
  clock := clock

def node (t : Tree) (id : NodeId) : Node := t.nodes.getD id default

def setNode (t : Tree) (id : NodeId) (n : Node) : Tree :=
  { t with nodes := t.nodes.setIfInBounds id n }

/-- Adds a node that no directory names yet. -/
def addNode (t : Tree) (n : Node) : Tree × NodeId :=
  ({ t with nodes := t.nodes.push n }, t.nodes.size)

/-- A later time for the next change. -/
def tick (t : Tree) : Tree := { t with clock := t.clock + 1000000 }

/-! ## Following a path -/

/-- Where a path leads: to a node, or to a free name in a directory.  `slash` holds if a slash
follows the free name. -/
inductive Place where
  | taken (id : NodeId)
  | vacant (directory : NodeId) (name : String) (slash : Bool)

/-- Links that one look-up follows at most. -/
def maxLinks : Nat := 40

/-- Bytes of a name at most. -/
def maxName : Nat := 255

/-- Bytes of a path at most. -/
def maxPath : Nat := 4095

/-- Follows `parts` from node `id`.  A link in last position is followed if `follow` holds. -/
def walk (t : Tree) (follow : Bool) (links : Nat) (id : NodeId) (parts : List (List Char)) :
    Except Fault Place :=
  match parts with
  | [] => .ok (.taken id)
  | part :: rest =>
    match t.node id with
    | .directory parent entries =>
      if Path.isIdle part then walk t follow links id rest
      else if part == ['.', '.'] then walk t follow links parent rest
      else
        let name := String.ofList part
        if maxName < name.utf8ByteSize then .error .nameTooLong
        else match entries.get? name with
          | none =>
            if rest.all List.isEmpty then .ok (.vacant id name !rest.isEmpty)
            else .error .notFound
          | some child =>
            match t.node child with
            | .link target =>
              if rest.isEmpty && !follow then .ok (.taken child)
              else match links with
                | 0 => .error .tooManyLinks
                | links + 1 =>
                  walk t follow links (if Path.isAbsolute target then 0 else id)
                    (Path.parts target.toList ++ rest)
            | _ => walk t follow links child rest
    | _ => .error .notDirectory
termination_by (links, parts.length)

/-- Where `path` leads. -/
def lookup (t : Tree) (follow : Bool) (path : String) : Except Fault Place :=
  if path.toList.contains '\x00' then .error .unusablePath
  else if path.isEmpty then .error .notFound
  else if maxPath < path.utf8ByteSize then .error .nameTooLong
  else
    t.walk follow maxLinks (if Path.isAbsolute path then 0 else t.home) (Path.parts path.toList)

/-- The node that `path` leads to, through links. -/
def find (t : Tree) (path : String) : Except Fault NodeId := do
  match ← t.lookup true path with
  | .taken id => .ok id
  | .vacant .. => .error .notFound

/-- Binds a free name of a directory to a new node. -/
def bindNew (t : Tree) (directory : NodeId) (name : String) (n : Node) : Tree × NodeId :=
  let (t, id) := t.addNode n
  match t.node directory with
  | .directory parent entries =>
    (t.setNode directory (.directory parent (entries.insert name id)), id)
  | _ => (t, id)

end Tree

end Primacy.Files
