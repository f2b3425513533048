/-
  Primacy.Proofs.Text.Numeral

  The text of an integer: a minus sign if it is negative, and its decimal digits.  There are no
  blanks in it, and it is read back as the integer.
-/
import Primacy.Text.Numeral

namespace Primacy.Text

theorem isDigit_toDigits {n : Nat} {c : Char} (h : c ∈ Nat.toDigits 10 n) :
    isDigit c = true :=
  Nat.isDigit_of_mem_toDigits (by decide) (by decide) h

/-- The text of an integer, its sign and its digits. -/
theorem toList_toString (n : Int) :
    (toString n).toList = (if n < 0 then ['-'] else []) ++ Nat.toDigits 10 n.natAbs := by
  cases n with
  | ofNat n =>
    have hnonneg : ¬ Int.ofNat n < 0 := Int.not_lt.mpr (Int.natCast_nonneg n)
    show (Nat.repr n).toList = _
    rw [Nat.toList_repr, if_neg hnonneg]
    rfl
  | negSucc n =>
    show ("-" ++ Nat.repr (n + 1)).toList = _
    rw [String.toList_append, Nat.toList_repr, if_pos (Int.negSucc_lt_zero n)]
    rfl

/-! ## Blanks around a number -/

/-- Text without blanks is left as it is. -/
theorem trim_of_not_isBlank {cs : List Char} (h : ∀ c ∈ cs, isBlank c = false) : trim cs = cs := by
  have hdrop : ∀ {cs : List Char}, (∀ c ∈ cs, isBlank c = false) → cs.dropWhile isBlank = cs := by
    intro cs h
    cases cs with
    | nil => rfl
    | cons c cs => exact List.dropWhile_cons_of_neg (by simp [h c List.mem_cons_self])
  rw [trim, hdrop h, hdrop fun c hc => h c (List.mem_reverse.mp hc), List.reverse_reverse]

theorem isBlank_of_isDigit {c : Char} (h : isDigit c = true) : isBlank c = false := by
  simp only [isDigit, Bool.and_eq_true, decide_eq_true_eq, Char.le_def, UInt32.le_iff_toNat_le] at h
  have hlow : 48 ≤ c.toNat := h.1
  have hhigh : c.toNat ≤ 57 := h.2
  simp only [isBlank, Bool.or_eq_false_iff, Bool.and_eq_false_iff, decide_eq_false_iff_not,
    beq_eq_false_iff_ne]
  omega

theorem trimmed_toString (n : Int) : trimmed (toString n) = toString n := by
  rw [trimmed, trim_of_not_isBlank, String.ofList_toList]
  intro c hc
  rw [toList_toString] at hc
  rcases List.mem_append.mp hc with hc | hc
  · split at hc
    · rw [List.mem_singleton.mp hc]
      rfl
    · cases hc
  · exact isBlank_of_isDigit (isDigit_toDigits hc)

/-! ## Reading a number back -/

theorem natural?_toDigits (n : Nat) : natural? (Nat.toDigits 10 n) = some n := by
  have hall : (Nat.toDigits 10 n).all isDigit = true :=
    List.all_eq_true.mpr fun c hc => isDigit_toDigits hc
  have hsome : (Nat.toDigits 10 n).isEmpty = false := List.isEmpty_eq_false_iff.mpr Nat.toDigits_ne_nil
  rw [natural?, hall, hsome]
  exact congrArg some Nat.ofDigitChars_ten_toDigits

/-- Digits without a sign are read as they are. -/
theorem integer?_of_isDigit {c : Char} {cs : List Char} (h : isDigit c = true) :
    integer? (c :: cs) = (natural? (c :: cs)).map Int.ofNat := by
  unfold integer?
  split
  · next heq =>
    rw [(List.cons.inj heq).1] at h
    cases h
  · next heq =>
    rw [(List.cons.inj heq).1] at h
    cases h
  · rfl

theorem integer?_toString (n : Int) : integer? (toString n).toList = some n := by
  rw [toList_toString]
  by_cases hneg : n < 0
  · rw [if_pos hneg]
    show (natural? (Nat.toDigits 10 n.natAbs)).map _ = _
    rw [natural?_toDigits, Option.map_some]
    refine congrArg some ?_
    show -(n.natAbs : Int) = n
    omega
  · rw [if_neg hneg, List.nil_append]
    cases hdigits : Nat.toDigits 10 n.natAbs with
    | nil => exact absurd hdigits Nat.toDigits_ne_nil
    | cons c cs =>
      rw [integer?_of_isDigit (isDigit_toDigits (hdigits ▸ List.mem_cons_self)), ← hdigits,
        natural?_toDigits, Option.map_some]
      refine congrArg some ?_
      show (n.natAbs : Int) = n
      omega

/-- What is read of the text of an integer is this integer. -/
theorem eq_of_int64?_toString {n m : Int} (h : int64? (trimmed (toString n)) = some m) : m = n := by
  rw [int64?, trimmed_toString, integer?_toString] at h
  exact (Option.some.inj (Option.eq_some_of_filter_eq_some h)).symm

end Primacy.Text
