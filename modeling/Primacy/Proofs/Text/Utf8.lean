/-
  Primacy.Proofs.Text.Utf8

  Every text is read back from its bytes.  A character is one to four bytes, each with some of its
  bits; the bounds on the second byte leave out what no character is written as.
-/
import Primacy.Text.Utf8

namespace Primacy.Text.Utf8

/-! ## Single bytes -/

theorem toNat_byte {n : Nat} (h : n < 256) : (UInt8.ofNat n).toNat = n := by
  rw [UInt8.toNat_ofNat', Nat.mod_eq_of_lt h]

theorem byte_le_iff {n m : Nat} (hn : n < 256) (hm : m < 256) :
    UInt8.ofNat n ≤ UInt8.ofNat m ↔ n ≤ m := by
  rw [UInt8.le_iff_toNat_le, toNat_byte hn, toNat_byte hm]

theorem byte_lt_iff {n m : Nat} (hn : n < 256) (hm : m < 256) :
    UInt8.ofNat n < UInt8.ofNat m ↔ n < m := by
  rw [UInt8.lt_iff_toNat_lt, toNat_byte hn, toNat_byte hm]

/-- A byte in a range. -/
theorem byte_within {n : Nat} (hn : n < 256) {low high : Nat} (hlow : low < 256)
    (hhigh : high < 256) :
    (decide (UInt8.ofNat low ≤ UInt8.ofNat n) && decide (UInt8.ofNat n ≤ UInt8.ofNat high)) =
      decide (low ≤ n ∧ n ≤ high) := by
  simp only [byte_le_iff hlow hn, byte_le_iff hn hhigh, Bool.decide_and]

theorem byte_beq {n m : Nat} (hn : n < 256) (hm : m < 256) :
    (UInt8.ofNat n == UInt8.ofNat m) = decide (n = m) := by
  rw [Bool.beq_eq_decide_eq, decide_eq_decide, ← UInt8.toNat_inj, toNat_byte hn, toNat_byte hm]

theorem isTail_byte {n : Nat} (h : n < 64) : isTail (UInt8.ofNat (n + 0x80)) = true := by
  have hn : n + 0x80 < 256 := by omega
  refine (byte_within hn (by decide : 0x80 < 256) (by decide : 0xBF < 256)).trans
    (decide_eq_true ?_)
  omega

/-- The bounds on the second byte of a longer character. -/
theorem secondOk_byte {a b : Nat} (ha : a < 256) (hb : b < 64) (he0 : a = 0xE0 → 0x20 ≤ b)
    (hed : a = 0xED → b < 0x20) (hf0 : a = 0xF0 → 0x10 ≤ b) (hf4 : a = 0xF4 → b < 0x10) :
    secondOk (UInt8.ofNat a) (UInt8.ofNat (b + 0x80)) = true := by
  have hbyte : b + 0x80 < 256 := by omega
  have hwithin : ∀ low high : Nat, low < 256 → high < 256 → low ≤ b + 0x80 → b + 0x80 ≤ high →
      (decide (UInt8.ofNat low ≤ UInt8.ofNat (b + 0x80)) &&
        decide (UInt8.ofNat (b + 0x80) ≤ UInt8.ofNat high)) = true := by
    intro low high hlow hhigh hl hh
    rw [byte_within hbyte hlow hhigh]
    exact decide_eq_true ⟨hl, hh⟩
  have hlead : ∀ n : Nat, n < 256 → (UInt8.ofNat a == UInt8.ofNat n) = true → a = n := by
    intro n hn h
    rw [byte_beq ha hn] at h
    exact of_decide_eq_true h
  unfold secondOk
  split
  · next h =>
    have hlow := he0 (hlead 0xE0 (by omega) h)
    exact hwithin 0xA0 0xBF (by omega) (by omega) (by omega) (by omega)
  · split
    · next h =>
      have hhigh := hed (hlead 0xED (by omega) h)
      exact hwithin 0x80 0x9F (by omega) (by omega) (by omega) (by omega)
    · split
      · next h =>
        have hlow := hf0 (hlead 0xF0 (by omega) h)
        exact hwithin 0x90 0xBF (by omega) (by omega) (by omega) (by omega)
      · split
        · next h =>
          have hhigh := hf4 (hlead 0xF4 (by omega) h)
          exact hwithin 0x80 0x8F (by omega) (by omega) (by omega) (by omega)
        · exact isTail_byte hb

/-! ## The first character -/

/-- The ranges of lead bytes that `head` goes by, one after the other. -/
theorem head_lead {n : Nat} (hn : n < 256) :
    (UInt8.ofNat n < 0x80 ↔ n < 0x80) ∧
    (decide (0xC2 ≤ UInt8.ofNat n) && decide (UInt8.ofNat n ≤ 0xDF)) =
      decide (0xC2 ≤ n ∧ n ≤ 0xDF) ∧
    (decide (0xE0 ≤ UInt8.ofNat n) && decide (UInt8.ofNat n ≤ 0xEF)) =
      decide (0xE0 ≤ n ∧ n ≤ 0xEF) ∧
    (decide (0xF0 ≤ UInt8.ofNat n) && decide (UInt8.ofNat n ≤ 0xF4)) =
      decide (0xF0 ≤ n ∧ n ≤ 0xF4) :=
  ⟨byte_lt_iff hn (by decide : 0x80 < 256),
    byte_within hn (by decide : 0xC2 < 256) (by decide : 0xDF < 256),
    byte_within hn (by decide : 0xE0 < 256) (by decide : 0xEF < 256),
    byte_within hn (by decide : 0xF0 < 256) (by decide : 0xF4 < 256)⟩

variable {a b d e : Nat} (rest : Bytes)

theorem head_one (ha : a < 128) : head (UInt8.ofNat a) rest = (some (Char.ofNat a), 0) := by
  obtain ⟨h1, -⟩ := head_lead (n := a) (by omega)
  unfold head
  rw [if_pos (h1.mpr ha), toNat_byte (by omega)]

theorem head_two (ha : 2 ≤ a ∧ a < 32) (hb : b < 64) :
    head (UInt8.ofNat (a + 0xC0)) (UInt8.ofNat (b + 0x80) :: rest) =
      (some (Char.ofNat (a * 64 + b)), 1) := by
  have hn : a + 0xC0 < 256 := by omega
  obtain ⟨h1, h2, -⟩ := head_lead hn
  unfold head
  rw [if_neg (by rw [h1]; omega), h2, if_pos (decide_eq_true (by omega))]
  simp only [isTail_byte hb, if_true, assemble, List.foldl_cons, List.foldl_nil]
  rw [toNat_byte hn, toNat_byte (by omega), Nat.add_sub_cancel, Nat.add_sub_cancel]

theorem head_three (ha : a < 16) (hb : b < 64) (hd : d < 64) (hlow : a = 0 → 0x20 ≤ b)
    (hsurrogate : a = 13 → b < 0x20) :
    head (UInt8.ofNat (a + 0xE0)) (UInt8.ofNat (b + 0x80) :: UInt8.ofNat (d + 0x80) :: rest) =
      (some (Char.ofNat ((a * 64 + b) * 64 + d)), 2) := by
  have hn : a + 0xE0 < 256 := by omega
  obtain ⟨h1, h2, h3, -⟩ := head_lead hn
  have hsecond : secondOk (UInt8.ofNat (a + 0xE0)) (UInt8.ofNat (b + 0x80)) = true :=
    secondOk_byte hn hb (fun _ => hlow (by omega)) (fun _ => hsurrogate (by omega))
      (fun _ => by omega) (fun _ => by omega)
  unfold head
  rw [if_neg (by rw [h1]; omega), h2, if_neg (by simp only [decide_eq_true_eq]; omega), h3,
    if_pos (decide_eq_true (by omega))]
  simp only [hsecond, isTail_byte hd, Bool.not_true, Bool.false_eq_true, if_false, if_true,
    assemble, List.foldl_cons, List.foldl_nil]
  rw [toNat_byte hn, toNat_byte (by omega), toNat_byte (by omega), Nat.add_sub_cancel,
    Nat.add_sub_cancel, Nat.add_sub_cancel]

theorem head_four (ha : a < 5) (hb : b < 64) (hd : d < 64) (he : e < 64)
    (hlow : a = 0 → 0x10 ≤ b) (hhigh : a = 4 → b < 0x10) :
    head (UInt8.ofNat (a + 0xF0)) (UInt8.ofNat (b + 0x80) :: UInt8.ofNat (d + 0x80) ::
      UInt8.ofNat (e + 0x80) :: rest) =
      (some (Char.ofNat (((a * 64 + b) * 64 + d) * 64 + e)), 3) := by
  have hn : a + 0xF0 < 256 := by omega
  obtain ⟨h1, h2, h3, h4⟩ := head_lead hn
  have hsecond : secondOk (UInt8.ofNat (a + 0xF0)) (UInt8.ofNat (b + 0x80)) = true :=
    secondOk_byte hn hb (fun _ => by omega) (fun _ => by omega) (fun _ => hlow (by omega))
      (fun _ => hhigh (by omega))
  unfold head
  rw [if_neg (by rw [h1]; omega), h2, if_neg (by simp only [decide_eq_true_eq]; omega), h3,
    if_neg (by simp only [decide_eq_true_eq]; omega), h4, if_pos (decide_eq_true (by omega))]
  simp only [hsecond, isTail_byte hd, isTail_byte he, Bool.not_true, Bool.false_eq_true, if_false,
    if_true, assemble, List.foldl_cons, List.foldl_nil]
  rw [toNat_byte hn, toNat_byte (by omega), toNat_byte (by omega), toNat_byte (by omega),
    Nat.add_sub_cancel, Nat.add_sub_cancel, Nat.add_sub_cancel, Nat.add_sub_cancel]

/-! ## Texts -/

/-- The first character of the bytes of a text. -/
theorem head_encodeChar (c : Char) : ∃ b tail, String.utf8EncodeChar c = b :: tail ∧
    ∀ rest, head b (tail ++ rest) = (some c, tail.length) := by
  have hvalid : c.toNat < 0xD800 ∨ (0xDFFF < c.toNat ∧ c.toNat < 0x110000) := c.valid
  have hnat : Char.ofNat c.toNat = c := Char.ofNat_toNat c
  have hval : c.val.toNat = c.toNat := rfl
  unfold String.utf8EncodeChar
  simp only [hval]
  split
  · refine ⟨_, _, rfl, fun rest => ?_⟩
    rw [List.nil_append, head_one rest (by omega), hnat]
    rfl
  · split
    · refine ⟨_, _, rfl, fun rest => ?_⟩
      have hchar : c.toNat / 64 % 32 * 64 + c.toNat % 64 = c.toNat := by omega
      refine (head_two rest (by omega) (by omega)).trans ?_
      rw [hchar, hnat]
      rfl
    · split
      · refine ⟨_, _, rfl, fun rest => ?_⟩
        have hchar : (c.toNat / 4096 % 16 * 64 + c.toNat / 64 % 64) * 64 + c.toNat % 64 =
            c.toNat := by omega
        refine (head_three rest (by omega) (by omega) (by omega) (by omega) (by omega)).trans ?_
        rw [hchar, hnat]
        rfl
      · refine ⟨_, _, rfl, fun rest => ?_⟩
        have hchar : ((c.toNat / 262144 % 8 * 64 + c.toNat / 4096 % 64) * 64 +
            c.toNat / 64 % 64) * 64 + c.toNat % 64 = c.toNat := by omega
        refine (head_four rest (by omega) (by omega) (by omega) (by omega) (by omega)
          (by omega)).trans ?_
        rw [hchar, hnat]
        rfl

theorem scan_encode (cs : List Char) : scan (cs.flatMap String.utf8EncodeChar) = cs.map some := by
  induction cs with
  | nil => rw [List.flatMap_nil, scan, List.map_nil]
  | cons c cs ih =>
    obtain ⟨b, tail, henc, hhead⟩ := head_encodeChar c
    rw [List.flatMap_cons, henc, List.cons_append, scan, hhead, List.drop_left, ih]
    rfl

/-- The bytes of an array in order. -/
theorem toList_loop (bs : ByteArray) (i : Nat) (r : List UInt8) :
    ByteArray.toList.loop bs i r = r.reverse ++ bs.data.toList.drop i := by
  fun_induction ByteArray.toList.loop bs i r with
  | case1 i r h ih =>
    have hi : i < bs.data.toList.length := by simpa using h
    rw [ih, List.drop_eq_getElem_cons hi]
    simp [ByteArray.get!, h]
  | case2 i r h =>
    rw [List.drop_eq_nil_of_le (by simpa using Nat.le_of_not_lt h)]
    simp

theorem encode_ofList (cs : List Char) :
    encode (String.ofList cs) = cs.flatMap String.utf8EncodeChar := by
  show ByteArray.toList.loop (cs.flatMap String.utf8EncodeChar).toByteArray 0 [] = _
  rw [toList_loop, List.toList_data_toByteArray]
  rfl

/-- Every text is read back from its bytes. -/
theorem decode?_encode (cs : List Char) :
    decode? (encode (String.ofList cs)) = some (String.ofList cs) := by
  have hall : ∀ cs : List Char, (cs.map some).mapM id = some cs := by
    intro cs
    induction cs with
    | nil => rfl
    | cons c cs ih =>
      rw [List.map_cons, List.mapM_cons, ih]
      rfl
  rw [decode?, encode_ofList, scan_encode, hall]
  rfl

end Primacy.Text.Utf8
