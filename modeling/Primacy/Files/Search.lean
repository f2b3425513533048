/-
  Primacy.Files.Search

  Finding files by extension and text in files.  A text is found whatever its case and whatever
  bytes stand around it.
-/
import Primacy.Files.Access
import Primacy.Text.Lowercase

namespace Primacy.Files

open Text.Utf8 (Bytes)

/-- One of `needles` stands in `bytes`, case aside.  Bytes that are not UTF-8 count as U+FFFD. -/
def containsAny (bytes : Bytes) (needles : List String) : Bool :=
  let text := Text.lowercase (Text.Utf8.decodeLossy bytes)
  needles.any fun needle => Text.hasInfix (Text.lowercase needle.toList) text

/-- One of `needles` stands in the file at `path`. -/
def Tree.contains (t : Tree) (path : String) (needles : List String) : Except Fault Bool := do
  let (bytes, _) ← t.read path
  return containsAny bytes needles

/-- The regular files right in `dir` whose names have the given extension, in order of their
paths.  A directory that does not exist has none. -/
def Tree.withExtension (t : Tree) (dir ext : String) :
    Except Fault (List (String × NodeId)) :=
  match t.list dir with
  | .error .notFound => .ok []
  | .error f => .error f
  | .ok entries =>
    .ok ((entries.filter fun e =>
      match t.node e.2 with
      | .file .. => Path.extensionOf? e.1 == some ext
      | _ => false).map fun e => (Path.join dir e.1, e.2))

end Primacy.Files
