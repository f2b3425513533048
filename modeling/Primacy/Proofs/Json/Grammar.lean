/-
  Primacy.Proofs.Json.Grammar

  What JSON texts look like.  The texts of strings, of integers and of the members of objects are
  given together with what they stand for; values that nobody asks the meaning of have texts only.
  Texts have no white space around them unless it is said, and a string's text begins behind its
  opening quote.
-/
import Primacy.Proofs.Json.Literal

namespace Primacy.Json

/-- White space of the format, and nothing else. -/
def Spaces (cs : List Char) : Prop := cs.all isSpace = true

/-! ## Strings -/

/-- Four hexadecimal digits, and the number that they make up. -/
inductive UnitText : List Char → Nat → Prop where
  | digits {a b c d : Char} {i j k l : Nat} (ha : hexValue? a = some i) (hb : hexValue? b = some j)
      (hc : hexValue? c = some k) (hd : hexValue? d = some l) :
      UnitText [a, b, c, d] (((i * 16 + j) * 16 + k) * 16 + l)

/-- The character that a pair of surrogates stands for. -/
@[irreducible] def pairChar (high low : Nat) : Char :=
  Char.ofNat (0x10000 + (high - 0xD800) * 0x400 + (low - 0xDC00))

/-- The characters that stand behind a backslash, and those that they stand for. -/
def shortEscapes : List (Char × Char) :=
  [('"', '"'), ('\\', '\\'), ('/', '/'), ('b', '\x08'), ('f', '\x0c'), ('n', '\n'), ('r', '\r'),
    ('t', '\t')]

/-- What stands behind a backslash for a character: a short escape, a code unit that is no
surrogate, or two that make up a pair. -/
inductive EscapeText : List Char → Char → Prop where
  | short {e c : Char} (h : (e, c) ∈ shortEscapes) : EscapeText [e] c
  | single {text : List Char} {n : Nat} (h : UnitText text n) (range : n < 0xD800 ∨ 0xDFFF < n) :
      EscapeText ('u' :: text) (Char.ofNat n)
  | pair {text text' : List Char} {high low : Nat} (h : UnitText text high)
      (h' : UnitText text' low) (highRange : 0xD800 ≤ high ∧ high ≤ 0xDBFF)
      (lowRange : 0xDC00 ≤ low ∧ low ≤ 0xDFFF) :
      EscapeText ('u' :: (text ++ '\\' :: 'u' :: text')) (pairChar high low)

/-- The character stands for itself inside a string. -/
def IsPlain (c : Char) : Prop := 0x20 ≤ c.toNat ∧ c ≠ '"' ∧ c ≠ '\\'

/-- The text of a string, up to its closing quote. -/
inductive StringText : List Char → List Char → Prop where
  | close : StringText ['"'] []
  | plain {c : Char} {text cs : List Char} (h : IsPlain c) (rest : StringText text cs) :
      StringText (c :: text) (c :: cs)
  | escape {piece text cs : List Char} {c : Char} (h : EscapeText piece c)
      (rest : StringText text cs) : StringText ('\\' :: (piece ++ text)) (c :: cs)

/-- The text of a string that nobody asks for, up to its closing quote: its code units need not pair
up. -/
inductive PassedString : List Char → Prop where
  | close : PassedString ['"']
  | plain {c : Char} {text : List Char} (h : IsPlain c) (rest : PassedString text) :
      PassedString (c :: text)
  | short {e : Char} {text : List Char} (h : e ∈ shortEscapes.map (·.1))
      (rest : PassedString text) : PassedString ('\\' :: e :: text)
  | unit {piece text : List Char} {n : Nat} (h : UnitText piece n) (rest : PassedString text) :
      PassedString ('\\' :: 'u' :: (piece ++ text))

/-! ## Numbers -/

/-- Digits, at least one. -/
def DigitsText (ds : List Char) : Prop := ds ≠ [] ∧ ∀ d ∈ ds, Text.isDigit d = true

/-- Digits of a number: only zero itself begins with a zero. -/
def WholeText (ds : List Char) : Prop := DigitsText ds ∧ (ds.head? = some '0' → ds = ['0'])

/-- An integer; zero has no sign. -/
inductive IntegerText : List Char → Int → Prop where
  | natural {ds : List Char} (h : WholeText ds) : IntegerText ds (Nat.ofDigitChars 10 ds 0 : Nat)
  | negative {ds : List Char} (h : WholeText ds) (nonzero : ds ≠ ['0']) :
      IntegerText ('-' :: ds) (-(Nat.ofDigitChars 10 ds 0 : Nat))

/-- A point and digits, or nothing. -/
inductive FractionText : List Char → Prop where
  | none : FractionText []
  | digits {ds : List Char} (h : DigitsText ds) : FractionText ('.' :: ds)

/-- An exponent, or nothing. -/
inductive ExponentText : List Char → Prop where
  | none : ExponentText []
  | digits {e : Char} {sign ds : List Char} (he : e = 'e' ∨ e = 'E')
      (hsign : sign = [] ∨ sign = ['+'] ∨ sign = ['-']) (h : DigitsText ds) :
      ExponentText (e :: (sign ++ ds))

/-- A number. -/
inductive NumberText : List Char → Prop where
  | parts {sign whole fraction exponent : List Char} (hsign : sign = [] ∨ sign = ['-'])
      (hwhole : WholeText whole) (hfraction : FractionText fraction)
      (hexponent : ExponentText exponent) :
      NumberText (sign ++ (whole ++ (fraction ++ exponent)))

/-- No number goes on here. -/
def Ends (rest : List Char) : Prop :=
  ∀ c ∈ rest.head?, Text.isDigit c = false ∧ c ≠ '.' ∧ c ≠ 'e' ∧ c ≠ 'E'

/-! ## Values that nobody asks for -/

def Frame.opens : Frame → Char
  | .list => '['
  | .object => '\x7b'

/-- Parts of a value that nobody asks for. -/
inductive Part where
  | value
  /-- An element of a list, or a member of an object. -/
  | item (frame : Frame)
  /-- What stands behind an item: the closing bracket, or a comma and what follows it. -/
  | tail (frame : Frame)

/-- The texts of the parts of a value that nobody asks for.  What is behind an item may begin with
white space. -/
inductive Passed : Part → List Char → Prop where
  | word {w : String} (h : w = "null" ∨ w = "true" ∨ w = "false") : Passed .value w.toList
  | number {text : List Char} (h : NumberText text) : Passed .value text
  | string {text : List Char} (h : PassedString text) : Passed .value ('"' :: text)
  | empty {spaces : List Char} (frame : Frame) (h : Spaces spaces) :
      Passed .value (frame.opens :: (spaces ++ [frame.close]))
  | filled {frame : Frame} {spaces item tail : List Char} (h : Spaces spaces)
      (hitem : Passed (.item frame) item) (htail : Passed (.tail frame) tail) :
      Passed .value (frame.opens :: (spaces ++ (item ++ tail)))
  | element {text : List Char} (h : Passed .value text) : Passed (.item .list) text
  | member {name spaces spaces' text : List Char} (hname : PassedString name) (h : Spaces spaces)
      (h' : Spaces spaces') (hvalue : Passed .value text) :
      Passed (.item .object) ('"' :: (name ++ (spaces ++ ':' :: (spaces' ++ text))))
  | close {spaces : List Char} {frame : Frame} (h : Spaces spaces) :
      Passed (.tail frame) (spaces ++ [frame.close])
  | more {spaces spaces' item tail : List Char} {frame : Frame} (h : Spaces spaces)
      (h' : Spaces spaces') (hitem : Passed (.item frame) item)
      (htail : Passed (.tail frame) tail) :
      Passed (.tail frame) (spaces ++ ',' :: (spaces' ++ (item ++ tail)))

/-! ## Members -/

/-- A string between its quotes. -/
inductive QuotedText : List Char → String → Prop where
  | quotes {text : List Char} {s : String} (h : StringText text s.toList) :
      QuotedText ('"' :: text) s

/-- What separates an item from what is in front of it: nothing, if it is the first one. -/
def comma (first : Bool) : List Char := if first then [] else [',']

/-- A member of an object: its name and its value. -/
inductive MemberText {α : Type} (V : String → List Char → α → Prop) :
    List Char → String × α → Prop where
  | parts {nameText spaces spaces' text : List Char} {name : String} {a : α}
      (hname : QuotedText nameText name) (h : Spaces spaces) (h' : Spaces spaces')
      (hvalue : V name text a) :
      MemberText V (nameText ++ (spaces ++ ':' :: (spaces' ++ text))) (name, a)

/-- What stands behind an opening bracket (with `first`), or behind an item: items that are texts of
`M`, and the closing bracket. -/
inductive ItemsText {μ : Type} (close : Char) (M : List Char → μ → Prop) :
    Bool → List Char → List μ → Prop where
  | close {first : Bool} {spaces : List Char} (h : Spaces spaces) :
      ItemsText close M first (spaces ++ [close]) []
  | item {first : Bool} {spaces spaces' text tail : List Char} {m : μ} {ms : List μ}
      (h : Spaces spaces) (h' : Spaces spaces') (hm : M text m)
      (htail : ItemsText close M false tail ms) :
      ItemsText close M first
        (spaces ++ (comma first ++ (spaces' ++ (text ++ tail)))) (m :: ms)

/-- An object whose members are texts of `M`. -/
inductive ObjectText {μ : Type} (M : List Char → μ → Prop) : List Char → List μ → Prop where
  | braces {text : List Char} {ms : List μ} (h : ItemsText '\x7d' M true text ms) :
      ObjectText M ('\x7b' :: text) ms

/-! ## Records -/

/-- The value of a member of a record: that of a field, or one that nobody asks for. -/
inductive FieldValue {α : Type} (names : List String) (V : String → List Char → α → Prop) :
    String → List Char → Option α → Prop where
  | known {name : String} {text : List Char} {a : α} (h : name ∈ names) (hvalue : V name text a) :
      FieldValue names V name text (some a)
  | unknown {name : String} {text : List Char} (h : name ∉ names) (hvalue : Passed .value text) :
      FieldValue names V name text none

/-- The fields among the members of a record. -/
def fieldsOf {α : Type} (ms : List (String × Option α)) : List (String × α) :=
  ms.filterMap fun m => m.2.map (m.1, ·)

/-- What stands behind the opening bracket of a record that is an array (with `first`), or behind an
element of it: values of the first ones of the fields that are left. -/
inductive ElementsText {α : Type} (V : String → List Char → α → Prop) :
    Bool → List String → List Char → List (String × α) → Prop where
  | close {first : Bool} {names : List String} {spaces : List Char} (h : Spaces spaces) :
      ElementsText V first names (spaces ++ [']']) []
  | element {first : Bool} {name : String} {names : List String}
      {spaces spaces' text tail : List Char} {a : α} {values : List (String × α)}
      (h : Spaces spaces) (h' : Spaces spaces') (hvalue : V name text a)
      (htail : ElementsText V false names tail values) :
      ElementsText V first (name :: names)
        (spaces ++ (comma first ++ (spaces' ++ (text ++ tail))))
        ((name, a) :: values)

/-- A record with the fields `names`: an object that has each of them at most once, or an array of
the first ones.  It stands for the fields that it has. -/
inductive RecordText {α : Type} (names : List String) (V : String → List Char → α → Prop) :
    List Char → List (String × α) → Prop where
  | object {text : List Char} {ms : List (String × Option α)}
      (h : ObjectText (MemberText (FieldValue names V)) text ms)
      (distinct : ((fieldsOf ms).map (·.1)).Nodup) : RecordText names V text (fieldsOf ms)
  | array {text : List Char} {values : List (String × α)}
      (h : ElementsText V true names text values) :
      RecordText names V ('[' :: text) values

/-- A whole text: white space around a text of `V`. -/
def Surrounded {α : Type} (V : List Char → α → Prop) (cs : List Char) (a : α) : Prop :=
  ∃ spaces text spaces',
    cs = spaces ++ (text ++ spaces') ∧ Spaces spaces ∧ Spaces spaces' ∧ V text a

end Primacy.Json
