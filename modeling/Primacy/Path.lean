/-
  Primacy.Path

  Paths as texts with `/` between their parts.  Joining and cutting work on the text alone and never
  look at the disk.
-/

namespace Primacy.Path

/-- The parts between slashes, empty ones kept. -/
def parts (path : List Char) : List (List Char) :=
  path.foldr (fun c ps =>
    if c = '/' then [] :: ps
    else match ps with
      | [] => [[c]]
      | p :: ps => (c :: p) :: ps) [[]]

def isAbsolute (path : String) : Bool := path.toList.head? == some '/'

/-- `path` below `dir`; an absolute `path` stands for itself. -/
def join (dir path : String) : String :=
  if isAbsolute path || dir.isEmpty then path
  else if dir.toList.getLast? == some '/' then dir ++ path
  else dir ++ "/" ++ path

/-! ## The directory a path lies in -/

/-- What a path begins at: the root, a leading `.`, or nothing written. -/
def start (path : List Char) : List Char :=
  match path with
  | '/' :: _ => ['/']
  | ['.'] => ['.']
  | '.' :: '/' :: _ => ['.']
  | _ => []

/-- A part that leads nowhere. -/
def isIdle (part : List Char) : Bool := part.isEmpty || part == ['.']

/-- The parts behind `start`, the last one first, without idle ones at the end. -/
def bodyReversed (path : List Char) : List (List Char) :=
  match path.drop (start path).length with
  | [] => []
  | body => ((parts body).reverse).dropWhile isIdle

/-- Puts the parts of a body back behind `start`. -/
def rebuild (start : List Char) (reversed : List (List Char)) : String :=
  String.ofList (start ++ List.intercalate ['/'] reversed.reverse)

/-- The path without its last part; `none` of the root and of the empty path. -/
def parent? (path : String) : Option String :=
  let cs := path.toList
  match bodyReversed cs with
  | _ :: above => some (rebuild (start cs) (above.dropWhile isIdle))
  | [] => if start cs == ['.'] then some "" else none

/-- The last part of a path, unless it is `.` or `..`. -/
def fileName? (path : String) : Option String :=
  match bodyReversed path.toList with
  | last :: _ => if last == ['.', '.'] then none else some (String.ofList last)
  | [] => none

/-- What follows the last point of a file name; a point at the front does not count. -/
def extensionOf? (name : String) : Option String :=
  let behind := (name.toList.reverse.takeWhile (· != '.')).reverse
  let before := name.toList.take (name.length - behind.length - 1)
  if name == ".." || behind.length == name.length || before.isEmpty then none
  else some (String.ofList behind)

def extension? (path : String) : Option String := (fileName? path).bind extensionOf?

end Primacy.Path
