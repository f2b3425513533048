/-
  Primacy.Text.Lowercase

  Lower-casing of text, one character at a time except for capital sigma, whose form depends on
  its place in the word.
-/
import Primacy.Text.Lowercase.Table

namespace Primacy.Text.Lowercase

def inRanges (table : List (Nat × Nat)) (c : Char) : Bool :=
  table.any fun r => r.1 ≤ c.toNat && c.toNat ≤ r.2

def isIgnorable (c : Char) : Bool := inRanges ignorableRanges c

def isCased (c : Char) : Bool := inRanges casedRanges c

/-- The first character that is not looked past is a cased letter. -/
def meetsCased (cs : List Char) : Bool :=
  match cs.dropWhile isIgnorable with
  | [] => false
  | c :: _ => isCased c

/-- The lower-case form of one character, whatever stands around it. -/
def ofChar (c : Char) : List Char :=
  if c.toNat < 0x80 then [c.toLower]
  else if c == '\u0130' then ['i', '\u0307']
  else match runs.findSome? (·.find? c.toNat) with
    | some n => [Char.ofNat n]
    | none => [c]

/-- Lower-cases `cs`, which stands after the characters `before` (nearest first).  A capital sigma
that ends a word becomes the final small sigma. -/
def after (before : List Char) : List Char → List Char
  | [] => []
  | c :: cs =>
    (if c == '\u03A3' then
      [if meetsCased before && !meetsCased cs then '\u03C2' else '\u03C3']
    else ofChar c) ++ after (c :: before) cs

end Lowercase

/-- `cs` in lower case. -/
def lowercase (cs : List Char) : List Char := Lowercase.after [] cs

/-- `s` in lower case. -/
def lowercased (s : String) : String := String.ofList (lowercase s.toList)

/-- `needle` stands somewhere in `cs`. -/
def hasInfix (needle : List Char) : List Char → Bool
  | [] => needle.isEmpty
  | c :: cs => needle.isPrefixOf (c :: cs) || hasInfix needle cs

end Primacy.Text
