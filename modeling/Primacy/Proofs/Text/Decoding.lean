/-
  Primacy.Proofs.Text.Decoding

  Bytes are read as a text exactly if they are the bytes of that text.  A character was read from
  one to four bytes; in each range of lead bytes these make up the number of the character, and it
  is written as the same bytes again.
-/
import Primacy.Proofs.Text.Utf8

namespace Primacy.Text.Utf8

/-! ## The bytes of a character -/

theorem toNat_ofNat {n : Nat} (h : n.isValidChar) : (Char.ofNat n).val.toNat = n := by
  rw [Char.ofNat, dif_pos h]
  rfl

theorem encodeChar_one {a : Nat} (ha : a < 128) :
    String.utf8EncodeChar (Char.ofNat a) = [UInt8.ofNat a] := by
  have hval := toNat_ofNat (n := a) (.inl (by omega))
  unfold String.utf8EncodeChar
  simp only [hval]
  rw [if_pos (by omega)]

theorem encodeChar_two {a b : Nat} (ha : 2 ≤ a ∧ a < 32) (hb : b < 64) :
    String.utf8EncodeChar (Char.ofNat (a * 64 + b)) =
      [UInt8.ofNat (a + 0xC0), UInt8.ofNat (b + 0x80)] := by
  have hval := toNat_ofNat (n := a * 64 + b) (.inl (by omega))
  have hlead : (a * 64 + b) / 64 % 32 = a := by omega
  have htail : (a * 64 + b) % 64 = b := by omega
  unfold String.utf8EncodeChar
  simp only [hval, hlead, htail]
  rw [if_neg (by omega), if_pos (by omega)]

theorem encodeChar_three {a b d : Nat} (ha : a < 16) (hb : b < 64) (hd : d < 64)
    (hlow : a = 0 → 0x20 ≤ b) (hsurrogate : a = 13 → b < 0x20) :
    String.utf8EncodeChar (Char.ofNat ((a * 64 + b) * 64 + d)) =
      [UInt8.ofNat (a + 0xE0), UInt8.ofNat (b + 0x80), UInt8.ofNat (d + 0x80)] := by
  have hval := toNat_ofNat (n := (a * 64 + b) * 64 + d) (by
    unfold Nat.isValidChar
    omega)
  have hlead : ((a * 64 + b) * 64 + d) / 4096 % 16 = a := by omega
  have hsecond : ((a * 64 + b) * 64 + d) / 64 % 64 = b := by omega
  have htail : ((a * 64 + b) * 64 + d) % 64 = d := by omega
  unfold String.utf8EncodeChar
  simp only [hval, hlead, hsecond, htail]
  rw [if_neg (by omega), if_neg (by omega), if_pos (by omega)]

theorem encodeChar_four {a b d e : Nat} (ha : a < 5) (hb : b < 64) (hd : d < 64) (he : e < 64)
    (hlow : a = 0 → 0x10 ≤ b) (hhigh : a = 4 → b < 0x10) :
    String.utf8EncodeChar (Char.ofNat (((a * 64 + b) * 64 + d) * 64 + e)) =
      [UInt8.ofNat (a + 0xF0), UInt8.ofNat (b + 0x80), UInt8.ofNat (d + 0x80),
        UInt8.ofNat (e + 0x80)] := by
  have hval := toNat_ofNat (n := ((a * 64 + b) * 64 + d) * 64 + e) (by
    unfold Nat.isValidChar
    omega)
  have hlead : (((a * 64 + b) * 64 + d) * 64 + e) / 262144 % 8 = a := by omega
  have hsecond : (((a * 64 + b) * 64 + d) * 64 + e) / 4096 % 64 = b := by omega
  have hthird : (((a * 64 + b) * 64 + d) * 64 + e) / 64 % 64 = d := by omega
  have htail : (((a * 64 + b) * 64 + d) * 64 + e) % 64 = e := by omega
  unfold String.utf8EncodeChar
  simp only [hval, hlead, hsecond, hthird, htail]
  rw [if_neg (by omega), if_neg (by omega), if_neg (by omega)]

/-- A byte in a range, counted from the beginning of it. -/
theorem exists_byte {b low high : UInt8} (h : (decide (low ≤ b) && decide (b ≤ high)) = true) :
    ∃ a ≤ high.toNat - low.toNat, b = UInt8.ofNat (a + low.toNat) := by
  rw [Bool.and_eq_true, decide_eq_true_iff, decide_eq_true_iff, UInt8.le_iff_toNat_le,
    UInt8.le_iff_toNat_le] at h
  refine ⟨b.toNat - low.toNat, by omega, ?_⟩
  rw [Nat.sub_add_cancel h.1, UInt8.ofNat_toNat]

theorem exists_tail {b : UInt8} (h : isTail b = true) :
    ∃ a < 64, b = UInt8.ofNat (a + 0x80) := by
  obtain ⟨a, ha, rfl⟩ := exists_byte h
  exact ⟨a, Nat.lt_succ_of_le ha, rfl⟩

/-- What the second byte may be. -/
theorem exists_second {a : Nat} {c : UInt8} (ha : a < 256)
    (h : secondOk (UInt8.ofNat a) c = true) :
    ∃ b < 64, c = UInt8.ofNat (b + 0x80) ∧ (a = 0xE0 → 0x20 ≤ b) ∧ (a = 0xED → b < 0x20) ∧
      (a = 0xF0 → 0x10 ≤ b) ∧ (a = 0xF4 → b < 0x10) := by
  have hlead : ∀ n : Nat, n < 256 → ((UInt8.ofNat a == UInt8.ofNat n) = true ↔ a = n) := by
    intro n hn
    rw [byte_beq ha hn, decide_eq_true_iff]
  have hwithin : ∀ low high : Nat, 0x80 ≤ low → low ≤ high → high < 0xC0 →
      (decide (UInt8.ofNat low ≤ c) && decide (c ≤ UInt8.ofNat high)) = true →
      ∃ b < 64, c = UInt8.ofNat (b + 0x80) ∧ low ≤ b + 0x80 ∧ b + 0x80 ≤ high := by
    intro low high hlow hle hhigh hc
    obtain ⟨k, hk, rfl⟩ := exists_byte hc
    rw [toNat_byte (by omega), toNat_byte (by omega)] at hk
    refine ⟨k + (low - 0x80), by omega, ?_, by omega, by omega⟩
    rw [toNat_byte (by omega), Nat.add_assoc, Nat.sub_add_cancel hlow]
  unfold secondOk at h
  split at h
  · next heq =>
    obtain rfl := (hlead 0xE0 (by omega)).mp heq
    obtain ⟨b, hb, rfl, hbounds⟩ := hwithin 0xA0 0xBF (by omega) (by omega) (by omega) h
    exact ⟨b, hb, rfl, by omega, by omega, by omega, by omega⟩
  next he0 =>
  split at h
  · next heq =>
    obtain rfl := (hlead 0xED (by omega)).mp heq
    obtain ⟨b, hb, rfl, hbounds⟩ := hwithin 0x80 0x9F (by omega) (by omega) (by omega) h
    exact ⟨b, hb, rfl, by omega, by omega, by omega, by omega⟩
  next hed =>
  split at h
  · next heq =>
    obtain rfl := (hlead 0xF0 (by omega)).mp heq
    obtain ⟨b, hb, rfl, hbounds⟩ := hwithin 0x90 0xBF (by omega) (by omega) (by omega) h
    exact ⟨b, hb, rfl, by omega, by omega, by omega, by omega⟩
  next hf0 =>
  split at h
  · next heq =>
    obtain rfl := (hlead 0xF4 (by omega)).mp heq
    obtain ⟨b, hb, rfl, hbounds⟩ := hwithin 0x80 0x8F (by omega) (by omega) (by omega) h
    exact ⟨b, hb, rfl, by omega, by omega, by omega, by omega⟩
  next hf4 =>
  obtain ⟨b, hb, rfl⟩ := exists_tail h
  exact ⟨b, hb, rfl, fun heq => absurd ((hlead 0xE0 (by omega)).mpr heq) he0,
    fun heq => absurd ((hlead 0xED (by omega)).mpr heq) hed,
    fun heq => absurd ((hlead 0xF0 (by omega)).mpr heq) hf0,
    fun heq => absurd ((hlead 0xF4 (by omega)).mpr heq) hf4⟩

variable {lead : UInt8} {rest : Bytes} {c : Char} {n : Nat}

/-! ## The bytes that a character was read from -/

theorem encodeChar_of_head_two {a : Nat} (ha : 2 ≤ a ∧ a < 32)
    (h : head (UInt8.ofNat (a + 0xC0)) rest = (some c, n)) :
    String.utf8EncodeChar c = UInt8.ofNat (a + 0xC0) :: rest.take n := by
  obtain ⟨h1, h2, -⟩ := head_lead (n := a + 0xC0) (by omega)
  have hone : ¬ UInt8.ofNat (a + 0xC0) < 0x80 := by
    rw [h1]
    omega
  have htwo := h2.trans (decide_eq_true (by omega))
  rcases rest with _ | ⟨x, rest⟩
  · rw [head, if_neg hone, if_pos htwo] at h
    cases h
  by_cases hx : isTail x = true
  · obtain ⟨b, hb, rfl⟩ := exists_tail hx
    rw [head_two rest ha hb] at h
    cases h
    exact encodeChar_two ha hb
  · rw [head, if_neg hone, if_pos htwo] at h
    simp only [hx] at h
    cases h

theorem encodeChar_of_head_three {a : Nat} (ha : a < 16)
    (h : head (UInt8.ofNat (a + 0xE0)) rest = (some c, n)) :
    String.utf8EncodeChar c = UInt8.ofNat (a + 0xE0) :: rest.take n := by
  obtain ⟨h1, h2, h3, -⟩ := head_lead (n := a + 0xE0) (by omega)
  have hone : ¬ UInt8.ofNat (a + 0xE0) < 0x80 := by
    rw [h1]
    omega
  have htwo := (Bool.not_eq_true _).mpr (h2.trans (decide_eq_false (by omega)))
  have hthree := h3.trans (decide_eq_true (by omega))
  rcases rest with _ | ⟨x, _ | ⟨y, rest⟩⟩
  · rw [head, if_neg hone, if_neg htwo, if_pos hthree] at h
    cases h
  · rw [head, if_neg hone, if_neg htwo, if_pos hthree] at h
    cases h
  by_cases hx : secondOk (UInt8.ofNat (a + 0xE0)) x = true
  · obtain ⟨b, hb, rfl, hlow, hsurrogate, -⟩ := exists_second (by omega) hx
    by_cases hy : isTail y = true
    · obtain ⟨d, hd, rfl⟩ := exists_tail hy
      rw [head_three rest ha hb hd (by omega) (by omega)] at h
      cases h
      exact encodeChar_three ha hb hd (by omega) (by omega)
    · rw [head, if_neg hone, if_neg htwo, if_pos hthree] at h
      simp only [hx, hy] at h
      cases h
  · rw [head, if_neg hone, if_neg htwo, if_pos hthree] at h
    simp only [hx] at h
    cases h

theorem encodeChar_of_head_four {a : Nat} (ha : a < 5)
    (h : head (UInt8.ofNat (a + 0xF0)) rest = (some c, n)) :
    String.utf8EncodeChar c = UInt8.ofNat (a + 0xF0) :: rest.take n := by
  obtain ⟨h1, h2, h3, h4⟩ := head_lead (n := a + 0xF0) (by omega)
  have hone : ¬ UInt8.ofNat (a + 0xF0) < 0x80 := by
    rw [h1]
    omega
  have htwo := (Bool.not_eq_true _).mpr (h2.trans (decide_eq_false (by omega)))
  have hthree := (Bool.not_eq_true _).mpr (h3.trans (decide_eq_false (by omega)))
  have hfour := h4.trans (decide_eq_true (by omega))
  rcases rest with _ | ⟨x, _ | ⟨y, _ | ⟨z, rest⟩⟩⟩
  · rw [head, if_neg hone, if_neg htwo, if_neg hthree, if_pos hfour] at h
    cases h
  · rw [head, if_neg hone, if_neg htwo, if_neg hthree, if_pos hfour] at h
    cases h
  · rw [head, if_neg hone, if_neg htwo, if_neg hthree, if_pos hfour] at h
    cases h
  by_cases hx : secondOk (UInt8.ofNat (a + 0xF0)) x = true
  · obtain ⟨b, hb, rfl, -, -, hlow, hhigh⟩ := exists_second (by omega) hx
    by_cases hy : isTail y = true
    · obtain ⟨d, hd, rfl⟩ := exists_tail hy
      by_cases hz : isTail z = true
      · obtain ⟨e, he, rfl⟩ := exists_tail hz
        rw [head_four rest ha hb hd he (by omega) (by omega)] at h
        cases h
        exact encodeChar_four ha hb hd he (by omega) (by omega)
      · rw [head, if_neg hone, if_neg htwo, if_neg hthree, if_pos hfour] at h
        simp only [hx, hy, hz] at h
        cases h
    · rw [head, if_neg hone, if_neg htwo, if_neg hthree, if_pos hfour] at h
      simp only [hx, hy] at h
      cases h
  · rw [head, if_neg hone, if_neg htwo, if_neg hthree, if_pos hfour] at h
    simp only [hx] at h
    cases h

/-- A character is read from its own bytes only. -/
theorem encodeChar_of_head (h : head lead rest = (some c, n)) :
    String.utf8EncodeChar c = lead :: rest.take n := by
  -- on the ranges of lead bytes
  by_cases hone : lead < 0x80
  · obtain ⟨a, ha, rfl⟩ : ∃ a < 128, lead = UInt8.ofNat a :=
      ⟨lead.toNat, UInt8.lt_iff_toNat_lt.mp hone, (UInt8.ofNat_toNat).symm⟩
    rw [head_one rest ha] at h
    cases h
    exact encodeChar_one ha
  by_cases htwo : (decide (0xC2 ≤ lead) && decide (lead ≤ 0xDF)) = true
  · obtain ⟨a, ha, rfl⟩ := exists_byte htwo
    have hbounds : 2 ≤ a + 2 ∧ a + 2 < 32 :=
      ⟨by omega, Nat.lt_of_le_of_lt (Nat.add_le_add_right ha 2) (by decide)⟩
    exact encodeChar_of_head_two hbounds h
  by_cases hthree : (decide (0xE0 ≤ lead) && decide (lead ≤ 0xEF)) = true
  · obtain ⟨a, ha, rfl⟩ := exists_byte hthree
    exact encodeChar_of_head_three (Nat.lt_succ_of_le ha) h
  by_cases hfour : (decide (0xF0 ≤ lead) && decide (lead ≤ 0xF4)) = true
  · obtain ⟨a, ha, rfl⟩ := exists_byte hfour
    exact encodeChar_of_head_four (Nat.lt_succ_of_le ha) h
  · unfold head at h
    rw [if_neg hone, if_neg htwo, if_neg hthree, if_neg hfour] at h
    cases h

/-! ## The bytes of a text -/

theorem eq_map_of_mapM_id {α : Type} {xs : List (Option α)} {as : List α}
    (h : xs.mapM id = some as) : xs = as.map some := by
  induction xs generalizing as with
  | nil =>
    cases h
    rfl
  | cons x xs ih =>
    rw [List.mapM_cons] at h
    obtain ⟨a, rfl, hrest⟩ := Option.bind_eq_some_iff.mp h
    obtain ⟨as, has, hcons⟩ := Option.bind_eq_some_iff.mp hrest
    cases hcons
    exact congrArg (some a :: ·) (ih has)

/-- Bytes without an ill-formed part are the bytes of the characters that they are read as. -/
theorem flatMap_of_scan {bytes : Bytes} {cs : List Char} (h : scan bytes = cs.map some) :
    cs.flatMap String.utf8EncodeChar = bytes := by
  fun_induction scan bytes generalizing cs with
  | case1 =>
    obtain rfl := List.map_eq_nil_iff.mp h.symm
    rfl
  | case2 b rest ih =>
    obtain ⟨c, cs, rfl, hhead, hrest⟩ := List.map_eq_cons_iff.mp h.symm
    rw [List.flatMap_cons, encodeChar_of_head (Prod.ext hhead.symm rfl), ih hrest.symm,
      List.cons_append, List.take_append_drop]

/-- Bytes are read as a text if and only if they are the bytes of that text. -/
theorem decode?_eq_some_iff {bytes : Bytes} {text : String} :
    decode? bytes = some text ↔ encode text = bytes := by
  constructor
  · intro h
    obtain ⟨cs, hcs, rfl⟩ := Option.map_eq_some_iff.mp h
    rw [encode_ofList]
    exact flatMap_of_scan (eq_map_of_mapM_id hcs)
  · rintro rfl
    have h := decode?_encode text.toList
    rwa [String.ofList_toList] at h

end Primacy.Text.Utf8
