/-
  Primacy.Proofs.Text.Lossy

  Bytes that need not be UTF-8.  A byte below 0x80 is a character of its own and belongs to no
  other, whatever stands in front of it, so ill-formed parts do not reach past one.  Bytes that are
  added at the end change no character but the one shown for an ill-formed part there.
-/
import Primacy.Proofs.Text.Utf8

namespace Primacy.Text.Utf8

variable {b : UInt8}

theorem isTail_ascii (h : b < 0x80) : isTail b = false := by
  rw [isTail, Bool.and_eq_false_iff]
  exact .inl (decide_eq_false (UInt8.not_le.mpr h))

theorem secondOk_ascii (h : b < 0x80) (lead : UInt8) : secondOk lead b = false := by
  have hlow : ∀ {low high : UInt8}, 0x80 ≤ low → (decide (low ≤ b) && decide (b ≤ high)) = false :=
    fun hle => Bool.and_eq_false_iff.mpr
      (.inl (decide_eq_false (UInt8.not_le.mpr (UInt8.lt_of_lt_of_le h hle))))
  unfold secondOk
  split
  · exact hlow (by decide)
  · split
    · exact hlow (by decide)
    · split
      · exact hlow (by decide)
      · split
        · exact hlow (by decide)
        · exact isTail_ascii h

theorem head_ascii (h : b < 0x80) (rest : Bytes) :
    head b rest = (some (Char.ofNat b.toNat), 0) := by
  unfold head
  rw [if_pos h]

/-- A byte below 0x80 and all behind it do not matter to the first character. -/
theorem head_append_ascii (h : b < 0x80) (lead : UInt8) (front back : Bytes) :
    head lead (front ++ b :: back) = head lead front := by
  have htail := isTail_ascii h
  have hsecond := secondOk_ascii h lead
  -- on how many bytes there are before that byte, as `head` looks at three at most
  rcases front with _ | ⟨x, _ | ⟨y, _ | ⟨z, front⟩⟩⟩
  · rcases back with _ | ⟨c, _ | ⟨d, back⟩⟩ <;> simp [head, htail, hsecond]
  · cases hx : secondOk lead x <;> rcases back with _ | ⟨c, back⟩ <;> simp [head, htail, hx]
  · cases hx : secondOk lead x <;> cases hy : isTail y <;> simp [head, htail, hx, hy]
  · simp only [List.cons_append, head]

/-- The bytes of a character are there. -/
theorem head_length_le (lead : UInt8) (rest : Bytes) : (head lead rest).2 ≤ rest.length := by
  unfold head
  grind

theorem scan_ascii (h : b < 0x80) (back : Bytes) :
    scan (b :: back) = some (Char.ofNat b.toNat) :: scan back := by
  rw [scan, head_ascii h, List.drop_zero]

/-- What stands before a byte below 0x80 is read as if nothing followed it. -/
theorem scan_append_ascii (h : b < 0x80) (front back : Bytes) :
    scan (front ++ b :: back) = scan front ++ scan (b :: back) := by
  -- on the characters of `front`, of which none takes bytes from behind it
  induction front using scan.induct with
  | case1 =>
    rw [scan, List.nil_append, List.nil_append]
  | case2 lead rest ih =>
    have hfits := head_length_le lead rest
    calc scan (lead :: rest ++ b :: back)
      _ = (head lead rest).1 :: scan (rest.drop (head lead rest).2 ++ b :: back) := by
        rw [List.cons_append, scan, head_append_ascii h, List.drop_append_of_le_length hfits]
      _ = scan (lead :: rest) ++ scan (b :: back) := by
        rw [ih, scan.eq_2 lead rest, List.cons_append]

theorem decodeLossy_ascii (h : b < 0x80) (back : Bytes) :
    decodeLossy (b :: back) = Char.ofNat b.toNat :: decodeLossy back := by
  rw [decodeLossy, scan_ascii h]
  rfl

theorem decodeLossy_append_ascii (h : b < 0x80) (front back : Bytes) :
    decodeLossy (front ++ b :: back) = decodeLossy front ++ decodeLossy (b :: back) := by
  rw [decodeLossy, scan_append_ascii h, List.map_append]
  rfl

/-! ## Bytes that are added -/

/-- What is added behind the bytes matters to the first character only if they are all of an
ill-formed part that might go on. -/
theorem head_append_cases (lead : UInt8) (bytes later : Bytes) :
    head lead (bytes ++ later) = head lead bytes ∨ head lead bytes = (none, bytes.length) := by
  -- on how many bytes there are, as `head` looks at three at most
  rcases bytes with _ | ⟨x, _ | ⟨y, _ | ⟨z, bytes⟩⟩⟩
  · simp only [head, List.nil_append, List.length_nil]
    grind
  · simp only [head, List.cons_append, List.nil_append, List.length_cons, List.length_nil]
    grind
  · simp only [head, List.cons_append, List.nil_append, List.length_cons, List.length_nil]
    grind
  · exact .inl (by simp only [head, List.cons_append])

/-- Bytes that are added change nothing but an ill-formed part at the end. -/
theorem exists_scan_append (bytes later : Bytes) : ∃ whole torn, scan bytes = whole ++ torn ∧
    (torn = [] ∨ torn = [none]) ∧ whole <+: scan (bytes ++ later) := by
  induction bytes using scan.induct with
  | case1 => exact ⟨[], [], by rw [scan, List.append_nil], .inl rfl, List.nil_prefix⟩
  | case2 lead rest ih =>
    rw [scan, List.cons_append, scan]
    rcases head_append_cases lead rest later with hsame | htorn
    · obtain ⟨whole, torn, hscan, hend, hwhole⟩ := ih
      refine ⟨(head lead rest).1 :: whole, torn, ?_, hend, ?_⟩
      · rw [hscan, List.cons_append]
      · rw [hsame, List.drop_append_of_le_length (head_length_le lead rest)]
        exact (List.prefix_cons_inj _).mpr hwhole
    · refine ⟨[], [none], ?_, .inr rfl, List.nil_prefix⟩
      rw [htorn, List.drop_length, scan, List.nil_append]

theorem exists_decodeLossy_append (bytes later : Bytes) : ∃ whole torn,
    decodeLossy bytes = whole ++ torn ∧ (torn = [] ∨ torn = ['\uFFFD']) ∧
      whole <+: decodeLossy (bytes ++ later) := by
  obtain ⟨whole, torn, hscan, hend, hwhole⟩ := exists_scan_append bytes later
  refine ⟨whole.map (·.getD '\uFFFD'), torn.map (·.getD '\uFFFD'), ?_, ?_, hwhole.map _⟩
  · rw [decodeLossy, hscan, List.map_append]
  · rcases hend with rfl | rfl
    · exact .inl rfl
    · exact .inr rfl

/-! ## Texts among other bytes -/

theorem encode_append (s t : String) : encode (s ++ t) = encode s ++ encode t := by
  have henc : ∀ s : String, encode s = s.toList.flatMap String.utf8EncodeChar := by
    intro s
    rw [← encode_ofList, String.ofList_toList]
  rw [henc, henc, henc, String.toList_append, List.flatMap_append]

theorem decodeLossy_encode_append (cs : List Char) (back : Bytes) :
    decodeLossy (cs.flatMap String.utf8EncodeChar ++ back) = cs ++ decodeLossy back := by
  induction cs with
  | nil => rfl
  | cons c cs ih =>
    obtain ⟨b, tail, henc, hhead⟩ := head_encodeChar c
    rw [List.flatMap_cons, henc, List.append_assoc, List.cons_append, decodeLossy, scan, hhead,
      List.drop_left, List.map_cons]
    exact congrArg _ ih

theorem exists_encodeChar_ascii {c : Char} (hc : c.toNat < 0x80) :
    ∃ b, b < 0x80 ∧ String.utf8EncodeChar c = [b] := by
  have hle : c.val.toNat ≤ 0x7F := Nat.le_of_lt_succ hc
  refine ⟨UInt8.ofNat c.toNat, ?_, ?_⟩
  · exact (byte_lt_iff (by omega) (by decide : 0x80 < 256)).mpr hc
  · rw [String.utf8EncodeChar, if_pos hle]
    rfl

/-- A text that begins with an ASCII character is read as such, whatever stands around it. -/
theorem decodeLossy_around {c : Char} (hc : c.toNat < 0x80) (cs : List Char) (front back : Bytes) :
    decodeLossy (front ++ encode (String.ofList (c :: cs)) ++ back) =
      decodeLossy front ++ (c :: cs) ++ decodeLossy back := by
  obtain ⟨b, hb, henc⟩ := exists_encodeChar_ascii hc
  have htext := decodeLossy_encode_append (c :: cs) back
  rw [List.flatMap_cons, henc, List.append_assoc, List.singleton_append] at htext
  rw [encode_ofList, List.flatMap_cons, henc, List.append_assoc, List.append_assoc,
    List.singleton_append, decodeLossy_append_ascii hb, htext, List.append_assoc]

end Primacy.Text.Utf8
