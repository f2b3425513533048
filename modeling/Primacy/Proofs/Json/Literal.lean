/-
  Primacy.Proofs.Json.Literal

  Strings and integers are read back from what is written for them.  A string ends at its closing
  quote, an integer where no digit follows.
-/
import Primacy.Json.Shape
import Primacy.Proofs.Text.Numeral

namespace Primacy

namespace Json

open Text (Reader)

/-- The white space of the format. -/
def isSpace (c : Char) : Bool := c == ' ' || c == '\n' || c == '\t' || c == '\r'

theorem token_of_spaces (spaces : List Char) {rest : List Char} {c : Char}
    (hspaces : spaces.all isSpace = true) (hc : isSpace c = false) :
    token (spaces ++ c :: rest) = .ok (some c, c :: rest) := by
  have hdrop : (spaces ++ c :: rest).dropWhile isSpace = c :: rest := by
    rw [List.dropWhile_append_of_pos (by simpa using hspaces),
      List.dropWhile_cons_of_neg (by simp [hc])]
  show Except.ok (((spaces ++ c :: rest).dropWhile isSpace).head?,
    (spaces ++ c :: rest).dropWhile isSpace) = _
  rw [hdrop]
  rfl

/-! ## Strings -/

theorem hexValue?_hexDigit {n : Nat} (h : n < 16) : hexValue? (hexDigit n) = some n := by
  revert n
  decide

/-- One round of `characters`. -/
def stringRound (before : List Char) : Reader Fault (List Char ⊕ List Char) := do
  match ← Reader.next with
  | none => Reader.fail .eof
  | some '"' => pure (.inr before.reverse)
  | some '\\' => return .inl ((← escapeReader) :: before)
  | some c => if c.toNat < 0x20 then Reader.fail .malformed else pure (.inl (c :: before))

theorem codeUnit_hexDigits {a b : Nat} (ha : a < 16) (hb : b < 16) (rest : List Char) :
    codeUnit ('0' :: '0' :: hexDigit a :: hexDigit b :: rest) = .ok (a * 16 + b, rest) := by
  have hzero : hexValue? '0' = some 0 := by decide
  simp only [codeUnit, hzero, hexValue?_hexDigit ha, hexValue?_hexDigit hb, Nat.zero_mul,
    Nat.zero_add]

theorem escapeReader_control {c : Char} (hc : c.toNat < 0x20) (rest : List Char) :
    escapeReader ('u' :: '0' :: '0' :: hexDigit (c.toNat / 16) :: hexDigit (c.toNat % 16) :: rest) =
      .ok (c, rest) := by
  have hhigh : c.toNat / 16 < 16 := by omega
  have hunit := codeUnit_hexDigits hhigh (Nat.mod_lt c.toNat (by decide)) rest
  have hvalue : c.toNat / 16 * 16 + c.toNat % 16 = c.toNat := by omega
  rw [hvalue] at hunit
  show unicodeEscape _ = _
  rw [unicodeEscape, Reader.bind_of_ok hunit, if_neg (by omega), if_pos (by omega),
    Char.ofNat_toNat]
  rfl

/-- A character is read back from what stands for it inside a string. -/
theorem stringRound_escape (c : Char) (before rest : List Char) :
    stringRound before (escape c ++ rest) = .ok (.inl (c :: before), rest) := by
  by_cases hshort : c = '"' ∨ c = '\\' ∨ c = '\x08' ∨ c = '\x0c' ∨ c = '\n' ∨ c = '\r' ∨ c = '\t'
  · rcases hshort with rfl | rfl | rfl | rfl | rfl | rfl | rfl <;> rfl
  · simp only [not_or] at hshort
    obtain ⟨hquote, hback, hb, hf, hn, hr, ht⟩ := hshort
    rw [escape, if_neg hquote, if_neg hback, if_neg hb, if_neg hf, if_neg hn, if_neg hr, if_neg ht]
    by_cases hcontrol : c.toNat < 0x20
    · rw [if_pos hcontrol]
      show (escapeReader >>= fun d => pure (Sum.inl (d :: before))) _ = _
      exact Reader.bind_of_ok (escapeReader_control hcontrol rest) _
    · rw [if_neg hcontrol]
      have hnext : Reader.next ([c] ++ rest) = (.ok (some c, rest) : Except Fault _) := rfl
      rw [stringRound, Reader.bind_of_ok hnext]
      refine congrFun (g := (pure (.inl (c :: before)) : Reader Fault (List Char ⊕ List Char)))
        ?_ rest
      split
      · next h => exact nomatch h
      · next h => exact absurd (Option.some.inj h) hquote
      · next h => exact absurd (Option.some.inj h) hback
      · next d _ _ h =>
        obtain rfl := Option.some.inj h
        rw [if_neg hcontrol]

theorem escape_ne_nil (c : Char) : escape c ≠ [] := by
  intro h
  have hround := stringRound_escape c [] []
  rw [h] at hround
  exact nomatch hround

theorem characters_escaped (cs before rest : List Char) :
    Reader.iterate .malformed stringRound before (cs.flatMap escape ++ '"' :: rest) =
      .ok (before.reverse ++ cs, rest) := by
  -- on the characters, one round for each
  induction cs generalizing before with
  | nil =>
    rw [List.append_nil]
    exact Reader.iterate_of_inr rfl
  | cons c cs ih =>
    have hround := stringRound_escape c before (cs.flatMap escape ++ '"' :: rest)
    have hpos := List.length_pos_iff.mpr (escape_ne_nil c)
    rw [List.flatMap_cons, List.append_assoc, Reader.iterate_of_inl hround, ih, List.reverse_cons,
      List.append_assoc]
    · rfl
    · simp only [List.length_append]
      omega

/-- The text of a string, up to its closing quote. -/
theorem stringBody_escaped (s : String) (rest : List Char) :
    stringBody (s.toList.flatMap escape ++ '"' :: rest) = .ok (s, rest) := by
  have hchars : characters (s.toList.flatMap escape ++ '"' :: rest) = .ok (s.toList, rest) :=
    characters_escaped s.toList [] rest
  rw [stringBody, Reader.bind_of_ok hchars, String.ofList_toList]
  rfl

theorem string_quoted (spaces : List Char) (hspaces : spaces.all isSpace = true) (s : String)
    (rest : List Char) : string (spaces ++ (quoted s ++ rest)) = .ok (s, rest) := by
  have htoken : token (spaces ++ (quoted s ++ rest)) = .ok (some '"', quoted s ++ rest) :=
    token_of_spaces spaces hspaces rfl
  rw [string, Reader.bind_of_ok htoken]
  show stringBody (s.toList.flatMap escape ++ ['"'] ++ rest) = _
  rw [List.append_assoc]
  exact stringBody_escaped s rest

/-! ## Integers -/

/-- No digit comes next. -/
def EndsNumber (rest : List Char) : Prop :=
  ∃ c cs, rest = c :: cs ∧ (c = ',' ∨ c = '\n')

/-- Only the number zero begins with a zero. -/
theorem toDigits_head {n : Nat} (hn : 0 < n) :
    ∃ c cs, Nat.toDigits 10 n = c :: cs ∧ c ≠ '0' := by
  induction n using Nat.strongRecOn with
  | ind n ih =>
    rw [Nat.toDigits_eq_if (by decide)]
    split
    · refine ⟨_, [], rfl, fun h => ?_⟩
      rw [Nat.digitChar_eq_zero] at h
      omega
    · obtain ⟨c, cs, heq, hne⟩ := ih (n / 10) (by omega) (by omega)
      exact ⟨c, cs ++ [Nat.digitChar (n % 10)], by rw [heq, List.cons_append], hne⟩

theorem le_ofDigitChars (cs : List Char) (n : Nat) : n ≤ Nat.ofDigitChars 10 cs n := by
  induction cs generalizing n with
  | nil => exact Nat.le_of_eq Nat.ofDigitChars_nil.symm
  | cons c cs ih =>
    rw [Nat.ofDigitChars_cons]
    have h := ih (10 * n + (c.toNat - '0'.toNat))
    omega

/-- Digits whose value fits 64 bits all count. -/
theorem wholePart_of_le {cs : List Char} {n : Nat}
    (h : Nat.ofDigitChars 10 cs n ≤ Text.nat64Max) :
    Number.Mantissa.wholePart cs ⟨n, 0⟩ = ⟨Nat.ofDigitChars 10 cs n, 0⟩ := by
  induction cs generalizing n with
  | nil =>
    rw [Nat.ofDigitChars_nil]
    rfl
  | cons c cs ih =>
    rw [Nat.ofDigitChars_cons] at h ⊢
    have hle := le_ofDigitChars cs (10 * n + (c.toNat - '0'.toNat))
    have hvalue : n * 10 + Text.digitValue c = 10 * n + (c.toNat - '0'.toNat) := by
      rw [Nat.mul_comm]
      rfl
    have hfits : Number.Mantissa.fits ⟨n, 0⟩ c = true := by
      refine decide_eq_true ?_
      show n * 10 + Text.digitValue c ≤ _
      omega
    rw [Number.Mantissa.wholePart, if_pos ⟨rfl, hfits⟩]
    show Number.Mantissa.wholePart cs ⟨n * 10 + Text.digitValue c, 0⟩ = _
    rw [hvalue]
    exact ih h

/-- The integer that `n` is, with or without a minus sign in front of it. -/
def signed (negative : Bool) (n : Nat) : Int := if negative then -(n : Int) else n

theorem afterWhole_of_ends {cs : List Char} {n : Nat} {negative : Bool}
    (hvalue : Nat.ofDigitChars 10 cs 0 = n)
    (hrange : if negative then 0 < n ∧ n ≤ 9223372036854775808 else n ≤ Text.nat64Max)
    {rest : List Char} (hrest : EndsNumber rest) :
    Number.afterWhole negative cs rest = .ok (.integer (signed negative n), rest) := by
  obtain ⟨c, tail, rfl, hc⟩ := hrest
  have hle : n ≤ Text.nat64Max := by
    rw [Text.nat64Max]
    cases negative with
    | true =>
      have hle := hrange.2
      omega
    | false => exact hrange
  have hwhole : Number.Mantissa.wholePart cs ⟨0, 0⟩ = ⟨n, 0⟩ := by
    rw [← hvalue] at hle ⊢
    exact wholePart_of_le hle
  have hinteger : (if (0 : Int) ≠ 0 then fun cs => (Number.finish ⟨n, 0⟩).map (·, cs)
      else if !negative then pure (.integer n)
      else if n = 0 ∨ n > 9223372036854775808 then pure .float
      else pure (.integer (-(n : Int))) : Reader Fault Number) =
      pure (.integer (signed negative n)) := by
    refine (if_neg fun h : (0 : Int) ≠ 0 => h rfl).trans ?_
    cases negative with
    | false => rfl
    | true =>
      obtain ⟨hpos, hle⟩ := hrange
      refine (if_neg nofun).trans ((if_neg ?_).trans rfl)
      omega
  -- what follows is neither a point nor an exponent
  unfold Number.afterWhole
  rw [hwhole]
  rcases hc with rfl | rfl
  · exact congrFun hinteger _
  · exact congrFun hinteger _

/-- The digits of a number are read up to where no digit follows. -/
theorem unsigned_toDigits {n : Nat} {negative : Bool}
    (hrange : if negative then 0 < n ∧ n ≤ 9223372036854775808 else n ≤ Text.nat64Max)
    {rest : List Char} (hrest : EndsNumber rest) :
    Number.unsigned negative (Nat.toDigits 10 n ++ rest) =
      .ok (.integer (signed negative n), rest) := by
  have hends := hrest
  obtain ⟨d, tail, rfl, hd⟩ := hends
  have hdigit : Text.isDigit d = false := by
    rcases hd with rfl | rfl <;> rfl
  have hafter : ∀ cs, Nat.ofDigitChars 10 cs 0 = n →
      Number.afterWhole negative cs (d :: tail) = .ok (.integer (signed negative n), d :: tail) :=
    fun cs hvalue => afterWhole_of_ends hvalue hrange hrest
  rcases Nat.eq_zero_or_pos n with rfl | hpos
  · have hzero := hafter ['0'] rfl
    show (if Text.isDigit d then Reader.fail .malformed else Number.afterWhole negative ['0'])
      (d :: tail) = _
    rw [if_neg (by simp [hdigit])]
    exact hzero
  · obtain ⟨c, cs, heq, hne⟩ := toDigits_head hpos
    have hall : ∀ x ∈ c :: cs, Text.isDigit x = true := fun x hx =>
      Text.isDigit_toDigits (heq ▸ hx)
    have htake : Reader.takeWhile Text.isDigit (c :: cs ++ d :: tail) =
        (.ok (c :: cs, d :: tail) : Except Fault _) := by
      rw [Reader.takeWhile, List.takeWhile_append_of_pos hall, List.dropWhile_append_of_pos hall,
        List.takeWhile_cons_of_neg (by simp [hdigit]),
        List.dropWhile_cons_of_neg (by simp [hdigit]), List.append_nil]
    have hpeek : Reader.peek (c :: cs ++ d :: tail) =
        (.ok (some c, c :: cs ++ d :: tail) : Except Fault _) := rfl
    rw [heq, Number.unsigned, Reader.bind_of_ok hpeek]
    refine (congrFun (g := (do
      let whole ← Reader.takeWhile Text.isDigit
      Number.afterWhole negative whole : Reader Fault Number)) ?_ _).trans ?_
    · split
      · next h => exact nomatch h
      · next h => exact absurd (Option.some.inj h) hne
      · next x _ h =>
        obtain rfl := Option.some.inj h
        rw [if_pos (hall c List.mem_cons_self)]
    · refine (Reader.bind_of_ok htake _).trans (hafter (c :: cs) ?_)
      rw [← heq]
      exact Nat.ofDigitChars_ten_toDigits

theorem reader_toString {n : Int} (hlow : Text.int64Min ≤ n) (hhigh : n ≤ Text.int64Max)
    {rest : List Char} (hrest : EndsNumber rest) :
    Number.reader ((toString n).toList ++ rest) = .ok (.integer n, rest) := by
  rw [Text.int64Min] at hlow
  rw [Text.int64Max] at hhigh
  rw [Text.toList_toString, Number.reader]
  by_cases hneg : n < 0
  · have haccept : Reader.accept '-' ('-' :: (Nat.toDigits 10 n.natAbs ++ rest)) =
        (.ok (true, Nat.toDigits 10 n.natAbs ++ rest) : Except Fault _) := rfl
    have hrange : if true then 0 < n.natAbs ∧ n.natAbs ≤ 9223372036854775808
        else n.natAbs ≤ Text.nat64Max := by
      show 0 < n.natAbs ∧ n.natAbs ≤ 9223372036854775808
      omega
    have hsigned : signed true n.natAbs = n := by
      show -(n.natAbs : Int) = n
      omega
    rw [if_pos hneg]
    refine (Reader.bind_of_ok haccept _).trans ?_
    rw [unsigned_toDigits hrange hrest, hsigned]
  · have haccept : Reader.accept '-' (Nat.toDigits 10 n.natAbs ++ rest) =
        (.ok (false, Nat.toDigits 10 n.natAbs ++ rest) : Except Fault _) := by
      cases hdigits : Nat.toDigits 10 n.natAbs with
      | nil => exact absurd hdigits Nat.toDigits_ne_nil
      | cons c cs =>
        have hdigit : Text.isDigit c = true := Text.isDigit_toDigits (hdigits ▸ List.mem_cons_self)
        have hne : c ≠ '-' := by
          rintro rfl
          exact nomatch hdigit
        show (if c = '-' then _ else _) = _
        rw [if_neg hne]
    have hrange : if false then 0 < n.natAbs ∧ n.natAbs ≤ 9223372036854775808
        else n.natAbs ≤ Text.nat64Max := by
      show n.natAbs ≤ 18446744073709551615
      omega
    have hsigned : signed false n.natAbs = n := by
      show (n.natAbs : Int) = n
      omega
    rw [if_neg hneg, List.nil_append]
    refine (Reader.bind_of_ok haccept _).trans ?_
    rw [unsigned_toDigits hrange hrest, hsigned]

theorem toString_head (n : Int) :
    ∃ c cs, (toString n).toList = c :: cs ∧ (c = '-' ∨ Text.isDigit c = true) := by
  rw [Text.toList_toString]
  by_cases hneg : n < 0
  · rw [if_pos hneg]
    exact ⟨'-', _, rfl, .inl rfl⟩
  · rw [if_neg hneg, List.nil_append]
    cases hdigits : Nat.toDigits 10 n.natAbs with
    | nil => exact absurd hdigits Nat.toDigits_ne_nil
    | cons c cs => exact ⟨c, cs, rfl, .inr (Text.isDigit_toDigits (hdigits ▸ List.mem_cons_self))⟩

theorem isSpace_of_number {c : Char} (h : c = '-' ∨ Text.isDigit c = true) :
    isSpace c = false := by
  rw [Bool.eq_false_iff]
  intro hspace
  simp only [isSpace, Bool.or_eq_true, beq_iff_eq] at hspace
  rcases hspace with ((rfl | rfl) | rfl) | rfl <;> rcases h with h | h <;> exact nomatch h

theorem integer_toString (spaces : List Char) (hspaces : spaces.all isSpace = true) {n : Int}
    (hlow : Text.int64Min ≤ n) (hhigh : n ≤ Text.int64Max) {rest : List Char}
    (hrest : EndsNumber rest) :
    integer Text.int64Min Text.int64Max (spaces ++ ((toString n).toList ++ rest)) =
      .ok (n, rest) := by
  obtain ⟨c, cs, heq, hc⟩ := toString_head n
  have hreader := reader_toString hlow hhigh hrest
  rw [heq] at hreader ⊢
  have htoken : token (spaces ++ (c :: cs ++ rest)) = .ok (some c, c :: cs ++ rest) :=
    token_of_spaces spaces hspaces (isSpace_of_number hc)
  rw [integer, Reader.bind_of_ok htoken]
  show (if c = '-' ∨ Text.isDigit c = true then _ else _ : Reader Fault Int) _ = _
  rw [if_pos hc]
  refine (Reader.bind_of_ok hreader _).trans ?_
  show (if _ then _ else _ : Reader Fault Int) _ = _
  rw [if_pos ⟨hlow, hhigh⟩]
  rfl

end Json

end Primacy
