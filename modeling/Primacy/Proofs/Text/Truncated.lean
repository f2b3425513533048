/-
  Primacy.Proofs.Text.Truncated

  A text whose bytes are cut off.  The cut falls between two characters, and then what is left is
  the bytes of fewer characters; or it falls into a character, and then the bytes are no text.
-/
import Primacy.Proofs.Text.Lossy

namespace Primacy.Text

variable {ι : Type}

/-- A part of two texts one after the other ends within the first, or it goes on with a part of the
second. -/
theorem prefix_append_cases {p s t : List ι} (h : p <+: s ++ t) :
    (p <+: s ∧ p ≠ s) ∨ ∃ p', p' <+: t ∧ p = s ++ p' := by
  rcases List.prefix_or_prefix_of_prefix h (List.prefix_append s t) with hp | hs
  · by_cases heq : p = s
    · exact .inr ⟨[], List.nil_prefix, by rw [heq, List.append_nil]⟩
    · exact .inl ⟨hp, heq⟩
  · obtain ⟨p', rfl⟩ := hs
    exact .inr ⟨p', (List.prefix_append_right_inj s).mp h, rfl⟩

/-! ## Bytes -/

namespace Utf8

/-- A character that begins part of some bytes begins all of them. -/
theorem head_append {b : UInt8} {bytes : Bytes} {c : Char} {n : Nat}
    (h : head b bytes = (some c, n)) (rest : Bytes) :
    n ≤ bytes.length ∧ head b (bytes ++ rest) = (some c, n) := by
  have hfits := head_length_le b bytes
  rw [h] at hfits
  rcases head_append_cases b bytes rest with hsame | htorn
  · exact ⟨hfits, hsame.trans h⟩
  · cases h.symm.trans htorn

/-- A character that is cut off is none. -/
theorem head_cut {c : Char} {b : UInt8} {p : Bytes} (h : b :: p <+: String.utf8EncodeChar c)
    (hne : b :: p ≠ String.utf8EncodeChar c) : (head b p).1 = none := by
  obtain ⟨b', tail, henc, hhead⟩ := head_encodeChar c
  rw [henc] at h hne
  obtain ⟨rfl, rest, rfl⟩ := List.cons_prefix_cons.mp h
  cases hcut : head b p with
  | mk d n =>
    cases d with
    | none => rfl
    | some d =>
      -- as many bytes as in `p` are not enough for the whole character
      obtain ⟨hle, happend⟩ := head_append hcut rest
      have hwhole : head b (p ++ rest) = (some c, (p ++ rest).length) := by
        have hnil := hhead []
        rw [List.append_nil] at hnil
        exact hnil
      have hn : n = (p ++ rest).length := congrArg Prod.snd (happend.symm.trans hwhole)
      have hrest : rest.length = 0 := by
        rw [List.length_append] at hn
        omega
      rw [List.length_eq_zero_iff.mp hrest, List.append_nil] at hne
      exact absurd rfl hne

/-- What is left of the bytes of a text. -/
theorem scan_cut (cs : List Char) {p : Bytes} (h : p <+: cs.flatMap String.utf8EncodeChar) :
    (∃ q, q <+: cs ∧ p = q.flatMap String.utf8EncodeChar) ∨ none ∈ scan p := by
  -- on the characters: the cut falls into the first one, or behind it
  induction cs generalizing p with
  | nil => exact .inl ⟨[], List.nil_prefix, List.prefix_nil.mp h⟩
  | cons c cs ih =>
    rw [List.flatMap_cons] at h
    rcases prefix_append_cases h with ⟨hc, hne⟩ | ⟨p', hp', rfl⟩
    · cases p with
      | nil => exact .inl ⟨[], List.nil_prefix, rfl⟩
      | cons b p =>
        rw [scan, head_cut hc hne]
        exact .inr List.mem_cons_self
    · rcases ih hp' with ⟨q, hq, rfl⟩ | hnone
      · exact .inl ⟨c :: q, List.cons_prefix_cons.mpr ⟨rfl, hq⟩, rfl⟩
      · obtain ⟨b, tail, henc, hhead⟩ := head_encodeChar c
        rw [henc, List.cons_append, scan, hhead, List.drop_left]
        exact .inr (List.mem_cons_of_mem _ hnone)

theorem decode?_of_none {bytes : Bytes} (h : none ∈ scan bytes) : decode? bytes = none := by
  have hall : ∀ cs : List (Option Char), none ∈ cs → cs.mapM id = none := by
    intro cs hcs
    induction cs with
    | nil => cases hcs
    | cons c cs ih =>
      rw [List.mapM_cons]
      cases c with
      | none => rfl
      | some c =>
        have hrest : none ∈ cs := (List.mem_cons.mp hcs).resolve_left nofun
        rw [ih hrest]
        rfl
  rw [decode?, hall _ h]
  rfl

/-- Part of the bytes of a text is the bytes of part of the text, or no text. -/
theorem decode?_cut {cs : List Char} {p : Bytes} (h : p <+: encode (String.ofList cs)) :
    (∃ q, q <+: cs ∧ p = encode (String.ofList q)) ∨ decode? p = none := by
  rw [encode_ofList] at h
  rcases scan_cut cs h with ⟨q, hq, rfl⟩ | hnone
  · exact .inl ⟨q, hq, (encode_ofList q).symm⟩
  · exact .inr (decode?_of_none hnone)

end Utf8

end Primacy.Text
