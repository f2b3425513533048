/-
  Primacy.Proofs.Text.Lowercase

  Lower-casing of parts of a text.  A character that is no letter and that words do not reach past,
  such as the end of a line, parts the text; an ASCII character is lower-cased by itself, whatever
  stands around it.  Only sigmas depend on what surrounds them, so a text without one is found
  however the text around it goes on.
-/
import Mathlib.Data.List.Infix
import Primacy.Text.Lowercase

namespace Primacy.Text

namespace Lowercase

variable {c : Char}

/-! ## Parting a text -/

/-- A sigma is not looked at past `c`. -/
def Parts (c : Char) : Prop := isIgnorable c = false ∧ isCased c = false ∧ c.toNat < 0x80

theorem parts_newline : Parts '\n' := ⟨by decide +kernel, by decide +kernel, by decide⟩

theorem meetsCased_cons (cs : List Char) : meetsCased (c :: cs) =
    if isIgnorable c then meetsCased cs else isCased c := by
  rw [meetsCased, List.dropWhile_cons]
  cases isIgnorable c <;> rfl

theorem meetsCased_append (hc : Parts c) (cs rest : List Char) :
    meetsCased (cs ++ c :: rest) = meetsCased cs := by
  induction cs with
  | nil =>
    rw [List.nil_append, meetsCased_cons, hc.1, if_neg Bool.false_ne_true, hc.2.1]
    rfl
  | cons x cs ih => rw [List.cons_append, meetsCased_cons, meetsCased_cons, ih]

theorem after_cons_ascii (hc : c.toNat < 0x80) (before cs : List Char) :
    after before (c :: cs) = c.toLower :: after (c :: before) cs := by
  have hsigma : (c == '\u03A3') = false := by
    rw [beq_eq_false_iff_ne]
    rintro rfl
    exact absurd hc (by decide)
  rw [after, hsigma, ofChar, if_pos hc]
  rfl

/-- What stands before a parting character does not matter behind it. -/
theorem after_append (hc : Parts c) (near far cs : List Char) :
    after (near ++ c :: far) cs = after near cs := by
  -- on the characters still to come; each joins those that a sigma looks back at
  induction cs generalizing near with
  | nil => rfl
  | cons x cs ih => rw [after, after, meetsCased_append hc, ← List.cons_append, ih]

/-- A parting character parts a text in two that are lower-cased by themselves. -/
theorem after_parts (hc : Parts c) (before cs rest : List Char) :
    after before (cs ++ c :: rest) = after before cs ++ c.toLower :: after [] rest := by
  induction cs generalizing before with
  | nil =>
    have hrest : after (c :: before) rest = after [] rest := after_append hc [] before rest
    rw [List.nil_append, after_cons_ascii hc.2.2, hrest]
    rfl
  | cons x cs ih =>
    rw [List.cons_append, after, after, meetsCased_append hc, ih, List.append_assoc]

/-! ## ASCII -/

theorem after_ascii {cs : List Char} (hcs : ∀ c ∈ cs, c.toNat < 0x80) (before rest : List Char) :
    after before (cs ++ rest) = cs.map Char.toLower ++ after (cs.reverse ++ before) rest := by
  induction cs generalizing before with
  | nil => rfl
  | cons c cs ih =>
    obtain ⟨hc, hrest⟩ := List.forall_mem_cons.mp hcs
    rw [List.cons_append, after_cons_ascii hc, ih hrest, List.map_cons, List.reverse_cons,
      List.append_assoc]
    rfl

theorem toNat_toLower_lt_iff : c.toLower.toNat < 0x80 ↔ c.toNat < 0x80 := by
  unfold Char.toLower
  split
  · next h =>
    obtain ⟨hlow, hhigh⟩ := h
    have hle : c.toNat ≤ 90 := hhigh
    have hlower : (c.val + ('a'.val - 'A'.val)).toNat = c.toNat + 32 := by
      rw [UInt32.toNat_add]
      exact Nat.mod_eq_of_lt (by show c.toNat + 32 < 2 ^ 32; omega)
    show (c.val + ('a'.val - 'A'.val)).toNat < 0x80 ↔ _
    rw [hlower]
    omega
  · rfl

theorem exists_after_append (before cs rest : List Char) :
    ∃ front, after before (cs ++ rest) = front ++ after (cs.reverse ++ before) rest := by
  induction cs generalizing before with
  | nil => exact ⟨[], rfl⟩
  | cons c cs ih =>
    obtain ⟨front, hfront⟩ := ih (c :: before)
    refine ⟨(if c == '\u03A3' then
      [if meetsCased before && !meetsCased (cs ++ rest) then '\u03C2' else '\u03C3']
      else ofChar c) ++ front, ?_⟩
    rw [List.cons_append, after, hfront, List.append_assoc, List.reverse_cons, List.append_assoc]
    rfl

/-! ## Sigmas as one -/

/-- Both small sigmas as one. -/
def merged (c : Char) : Char := if c = '\u03C2' then '\u03C3' else c

/-- The lower-case form of one character, with the small sigmas as one. -/
def form (c : Char) : List Char := if c = '\u03A3' then ['\u03C3'] else (ofChar c).map merged

/-- But for its sigmas, a text is lower-cased character by character. -/
theorem map_merged_after (before cs : List Char) :
    (after before cs).map merged = cs.flatMap form := by
  induction cs generalizing before with
  | nil => rfl
  | cons c cs ih =>
    rw [after, List.map_append, ih, List.flatMap_cons, form]
    refine congrArg (· ++ _) ?_
    by_cases hsigma : c = '\u03A3'
    · rw [if_pos hsigma, if_pos (beq_iff_eq.mpr hsigma)]
      cases (meetsCased before && !meetsCased cs) <;> rfl
    · rw [if_neg hsigma, if_neg (mt beq_iff_eq.mp hsigma)]

theorem map_merged_of_not_mem {cs : List Char} (h : '\u03C2' ∉ cs) : cs.map merged = cs := by
  have hself : ∀ c ∈ cs, merged c = id c := by
    intro c hc
    refine if_neg ?_
    rintro rfl
    exact h hc
  rw [List.map_congr_left hself, List.map_id]

theorem form_replacement : form '\uFFFD' = ['\uFFFD'] := by decide +kernel

end Lowercase

open Lowercase

/-- The end of a line parts a text. -/
theorem lowercase_lines (cs rest : List Char) :
    lowercase (cs ++ '\n' :: rest) = lowercase cs ++ '\n' :: lowercase rest :=
  after_parts parts_newline [] cs rest

theorem lowercase_ascii {cs : List Char} (hcs : ∀ c ∈ cs, c.toNat < 0x80) :
    lowercase cs = cs.map Char.toLower := by
  have h := after_ascii hcs [] []
  rwa [List.append_nil, after, List.append_nil] at h

/-- The texts are the same but for the case of their ASCII letters. -/
def SameButCase (s t : String) : Prop := s.toList.map Char.toLower = t.toList.map Char.toLower

instance (s t : String) : Decidable (SameButCase s t) := inferInstanceAs (Decidable (_ = _))

namespace SameButCase

variable {s t : String}

theorem ascii (same : SameButCase s t) (ht : ∀ c ∈ t.toList, c.toNat < 0x80) :
    ∀ c ∈ s.toList, c.toNat < 0x80 := by
  intro c hc
  have hlower : c.toLower ∈ t.toList.map Char.toLower := same ▸ List.mem_map_of_mem hc
  obtain ⟨d, hd, hsame⟩ := List.mem_map.mp hlower
  rw [← toNat_toLower_lt_iff, ← hsame, toNat_toLower_lt_iff]
  exact ht d hd

theorem lowercase_eq (same : SameButCase s t) (ht : ∀ c ∈ t.toList, c.toNat < 0x80) :
    lowercase s.toList = lowercase t.toList := by
  rw [lowercase_ascii (same.ascii ht), lowercase_ascii ht, same]

end SameButCase

/-- ASCII text is lower-cased by itself, whatever stands around it. -/
theorem lowercase_around {cs : List Char} (hcs : ∀ c ∈ cs, c.toNat < 0x80)
    (front back : List Char) :
    lowercase cs <:+: lowercase (front ++ cs ++ back) := by
  obtain ⟨before, hbefore⟩ := exists_after_append [] front (cs ++ back)
  rw [lowercase_ascii hcs, lowercase, List.append_assoc, hbefore, after_ascii hcs,
    ← List.append_assoc]
  exact ⟨before, _, rfl⟩

/-! ## Finding a text -/

theorem hasInfix_iff {needle cs : List Char} : hasInfix needle cs = true ↔ needle <:+: cs := by
  induction cs with
  | nil => rw [hasInfix, List.isEmpty_iff, List.infix_nil]
  | cons c cs ih =>
    rw [hasInfix, Bool.or_eq_true, List.isPrefixOf_iff_prefix, ih, List.infix_cons_iff]

/-- A text is found in parts that are set apart by a character which it does not have. -/
theorem infix_append_cons {needle cs rest : List Char} {c : Char} (hc : c ∉ needle) :
    needle <:+: cs ++ c :: rest ↔ needle <:+: cs ∨ needle <:+: rest := by
  constructor
  · -- a text that reaches into the second part would have `c` in it
    intro h
    rcases List.infix_append_iff.mp h with h | h | ⟨front, back, rfl, hfront, hback⟩
    · exact .inl h
    · rcases List.infix_cons_iff.mp h with h | h
      · rcases List.prefix_cons_iff.mp h with rfl | ⟨t, rfl, -⟩
        · exact .inl List.nil_infix
        · exact absurd List.mem_cons_self hc
      · exact .inr h
    · rcases List.prefix_cons_iff.mp hback with rfl | ⟨t, rfl, -⟩
      · rw [List.append_nil]
        exact .inl hfront.isInfix
      · exact absurd (List.mem_append_right front List.mem_cons_self) hc
  · rintro (h | h)
    · exact h.trans (List.prefix_append _ _).isInfix
    · exact h.trans ((List.suffix_cons _ _).trans (List.suffix_append _ _)).isInfix

/-! ## Finding a text that has no sigma -/

variable {needle cs rest : List Char}

/-- A text without sigmas is found in the forms of the characters, one after the other. -/
theorem infix_lowercase_iff (hsmall : '\u03C3' ∉ needle) (hfinal : '\u03C2' ∉ needle) :
    needle <:+: lowercase cs ↔ needle <:+: cs.flatMap form := by
  rw [← map_merged_after []]
  constructor
  · intro h
    rw [← map_merged_of_not_mem hfinal]
    exact h.map merged
  · intro h
    obtain ⟨found, hfound, rfl⟩ := List.infix_map_iff.mp h
    have hplain : '\u03C2' ∉ found := fun hc => hsmall (List.mem_map.mpr ⟨_, hc, rfl⟩)
    rw [map_merged_of_not_mem hplain]
    exact hfound

/-- A text without sigmas that is found is found in whatever the text goes on to be. -/
theorem infix_lowercase_append (hsmall : '\u03C3' ∉ needle) (hfinal : '\u03C2' ∉ needle)
    (h : needle <:+: lowercase cs) (rest : List Char) : needle <:+: lowercase (cs ++ rest) := by
  rw [infix_lowercase_iff hsmall hfinal] at h ⊢
  rw [List.flatMap_append]
  exact h.trans (List.prefix_append _ _).isInfix

/-- A character that stays as it is adds nothing to be found but itself. -/
theorem infix_lowercase_of_concat {c : Char} (hform : form c = [c]) (hc : c ∉ needle)
    (hsmall : '\u03C3' ∉ needle) (hfinal : '\u03C2' ∉ needle)
    (h : needle <:+: lowercase (cs ++ [c])) : needle <:+: lowercase cs := by
  rw [infix_lowercase_iff hsmall hfinal] at h ⊢
  rw [List.flatMap_append, List.flatMap_singleton, hform] at h
  rcases (infix_append_cons hc).mp h with h | h
  · exact h
  · rw [List.infix_nil.mp h]
    exact List.nil_infix

end Primacy.Text
