/-
  Primacy.Text.Blank

  Blank characters, and text without the blanks at its ends.  A setting, a coordinator address or
  a registry document counts as empty when nothing is left of it here.
-/

namespace Primacy.Text

/-- The characters of Unicode's `White_Space` property. -/
def isBlank (c : Char) : Bool :=
  let n := c.toNat
  (0x09 ≤ n && n ≤ 0x0D) || n == 0x20 || n == 0x85 || n == 0xA0 || n == 0x1680 ||
    (0x2000 ≤ n && n ≤ 0x200A) || n == 0x2028 || n == 0x2029 || n == 0x202F || n == 0x205F ||
    n == 0x3000

/-- `cs` without its leading and trailing blanks. -/
def trim (cs : List Char) : List Char :=
  ((cs.dropWhile isBlank).reverse.dropWhile isBlank).reverse

/-- Text of blanks only, the empty text included. -/
def isBlankText (s : String) : Bool := s.toList.all isBlank

/-- `s` without its leading and trailing blanks. -/
def trimmed (s : String) : String := String.ofList (trim s.toList)

/-! ## Laws -/

theorem dropWhile_eq_nil_iff {p : Char → Bool} {cs : List Char} :
    cs.dropWhile p = [] ↔ cs.all p := by
  induction cs with
  | nil => simp
  | cons c cs ih => by_cases h : p c <;> simp [List.dropWhile, h, ih]

/-- Nothing is left exactly of the texts made of blanks only. -/
theorem trim_eq_nil_iff {cs : List Char} : trim cs = [] ↔ cs.all isBlank := by
  rw [trim, List.reverse_eq_nil_iff, dropWhile_eq_nil_iff, List.all_reverse]
  constructor
  · intro h
    rw [← List.takeWhile_append_dropWhile (p := isBlank) (l := cs), List.all_append, h,
      Bool.and_true]
    exact List.all_takeWhile
  · intro h
    rw [dropWhile_eq_nil_iff.2 h]
    rfl

end Primacy.Text
