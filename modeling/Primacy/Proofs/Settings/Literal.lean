/-
  Primacy.Proofs.Settings.Literal

  What the text of a variable is read as, and how that prints.  A text is a word for a truth value,
  a number, or nothing but itself.  Only what is nothing but itself is sure to print as it was
  written: a truth value prints in lower case, and a number in one way whatever it was written like.
-/
import Primacy.Proofs.Json.Numbers
import Primacy.Proofs.Text.Numeral
import Primacy.Settings.Environment

namespace Primacy.Settings

open Decimal (Binary64)
open Json (DigitsText ExponentText)

/-! ## Numbers -/

/-- The words for the values that have no digits, in lower case. -/
def specialWords : List String := ["inf", "infinity", "nan"]

/-- A number without its sign: digits, at least one, with at most one point before, among or behind
them, then perhaps an exponent; or a word, in any case. -/
inductive MagnitudeText : List Char → Prop where
  | whole {ds exponent : List Char} (hds : DigitsText ds) (hexponent : ExponentText exponent) :
      MagnitudeText (ds ++ exponent)
  | pointed {ds fraction exponent : List Char} (hds : DigitsText (ds ++ fraction))
      (hexponent : ExponentText exponent) :
      MagnitudeText (ds ++ '.' :: (fraction ++ exponent))
  | special {cs : List Char} (h : String.ofList (cs.map Char.toLower) ∈ specialWords) :
      MagnitudeText cs

/-- A number. -/
inductive NumberText : List Char → Prop where
  | plain {cs : List Char} (h : MagnitudeText cs) : NumberText cs
  | signed {sign : Char} {cs : List Char} (hsign : sign = '+' ∨ sign = '-')
      (h : MagnitudeText cs) : NumberText (sign :: cs)

variable {cs : List Char}

theorem natural?_isSome_iff : (Text.natural? cs).isSome = true ↔ DigitsText cs := by
  rw [Text.natural?, Option.isSome_ite, Bool.and_eq_true, Bool.not_eq_true',
    List.isEmpty_eq_false_iff, List.all_eq_true]
  rfl

theorem integer?_isSome_iff : (Text.integer? cs).isSome = true ↔
    ∃ sign ds, cs = sign ++ ds ∧ (sign = [] ∨ sign = ['+'] ∨ sign = ['-']) ∧ DigitsText ds := by
  constructor
  · intro h
    unfold Text.integer? at h
    split at h
    · rw [Option.isSome_map] at h
      exact ⟨['+'], _, rfl, .inr (.inl rfl), natural?_isSome_iff.mp h⟩
    · rw [Option.isSome_map] at h
      exact ⟨['-'], _, rfl, .inr (.inr rfl), natural?_isSome_iff.mp h⟩
    · rw [Option.isSome_map] at h
      exact ⟨[], _, rfl, .inl rfl, natural?_isSome_iff.mp h⟩
  · rintro ⟨sign, ds, rfl, hsign, hds⟩
    have hsome : (Text.natural? ds).isSome = true := natural?_isSome_iff.mpr hds
    rcases hsign with rfl | rfl | rfl
    · obtain ⟨d, tail, rfl⟩ := List.exists_cons_of_ne_nil hds.1
      rw [List.nil_append, Text.integer?_of_isDigit (hds.2 d List.mem_cons_self), Option.isSome_map]
      exact hsome
    · exact (Option.isSome_map ..).trans hsome
    · exact (Option.isSome_map ..).trans hsome

theorem exponentPart?_isSome_iff :
    (Binary64.exponentPart? cs).isSome = true ↔ ExponentText cs := by
  constructor
  · intro h
    cases cs with
    | nil => exact .none
    | cons c cs =>
      rw [Binary64.exponentPart?] at h
      split at h
      · next he =>
        obtain ⟨sign, ds, rfl, hsign, hds⟩ := integer?_isSome_iff.mp h
        rw [Bool.or_eq_true, beq_iff_eq, beq_iff_eq] at he
        exact .digits he hsign hds
      · cases h
  · intro h
    cases h with
    | none => rfl
    | @digits e sign ds he hsign hds =>
      have hletter : (e == 'e' || e == 'E') = true := by
        rw [Bool.or_eq_true, beq_iff_eq, beq_iff_eq]
        exact he
      rw [Binary64.exponentPart?, if_pos hletter]
      exact integer?_isSome_iff.mpr ⟨_, _, rfl, hsign, hds⟩

/-- The digits that a text begins with are cut off it. -/
theorem digits_append {ds rest : List Char} (hds : ∀ d ∈ ds, Text.isDigit d = true)
    (hrest : ∀ c ∈ rest.head?, Text.isDigit c = false) :
    (ds ++ rest).takeWhile Text.isDigit = ds ∧ (ds ++ rest).dropWhile Text.isDigit = rest :=
  Prod.mk.inj (Except.ok.inj (Json.takeWhile_append hds hrest))

/-- No exponent begins with a digit or a point. -/
theorem head_exponent {exponent : List Char} (h : ExponentText exponent) :
    ∀ c ∈ exponent.head?, Text.isDigit c = false ∧ c ≠ '.' := by
  have hhead := Json.head_exponent h (nofun : Json.Ends [])
  rwa [List.append_nil] at hhead

/-- A number has a digit, before its point or behind it. -/
theorem no_digits_iff {ds fraction : List Char} :
    (ds.isEmpty && fraction.isEmpty) = true ↔ ds ++ fraction = [] := by
  rw [Bool.and_eq_true, List.isEmpty_iff, List.isEmpty_iff, List.append_eq_nil_iff]

section

variable {negative : Bool} {ds fraction rest : List Char}
  (hds : ∀ d ∈ ds, Text.isDigit d = true) (hfraction : ∀ d ∈ fraction, Text.isDigit d = true)
  (hrest : ∀ c ∈ rest.head?, Text.isDigit c = false)

include hds hrest

/-- Digits without a point are followed by the exponent. -/
theorem magnitude?_whole (hpoint : ∀ c ∈ rest.head?, c ≠ '.') :
    (Binary64.magnitude? negative (ds ++ rest)).isSome = true ↔
      DigitsText ds ∧ ExponentText rest := by
  obtain ⟨htake, hdrop⟩ := digits_append hds hrest
  simp only [Binary64.magnitude?, htake, hdrop]
  split
  · exact absurd rfl (hpoint '.' rfl)
  · rw [List.append_nil]
    split
    · next hnone =>
      refine iff_of_false Bool.false_ne_true fun h => h.1.1 ?_
      exact (List.append_nil ds).symm.trans (no_digits_iff.mp hnone)
    · next hsome =>
      have digits : DigitsText ds :=
        ⟨fun heq => hsome (no_digits_iff.mpr ((List.append_nil ds).trans heq)), hds⟩
      rw [Option.isSome_map, exponentPart?_isSome_iff]
      exact (and_iff_right digits).symm

include hfraction

/-- Digits with a point among them are followed by the exponent. -/
theorem magnitude?_pointed :
    (Binary64.magnitude? negative (ds ++ '.' :: (fraction ++ rest))).isSome = true ↔
      DigitsText (ds ++ fraction) ∧ ExponentText rest := by
  have hpoint : ∀ c ∈ ('.' :: (fraction ++ rest)).head?, Text.isDigit c = false :=
    fun c hc => Option.some.inj hc ▸ rfl
  obtain ⟨htake, hdrop⟩ := digits_append hds hpoint
  obtain ⟨htake', hdrop'⟩ := digits_append hfraction hrest
  simp only [Binary64.magnitude?, htake, hdrop, htake', hdrop']
  split
  · next hnone => exact iff_of_false Bool.false_ne_true fun h => h.1.1 (no_digits_iff.mp hnone)
  · next hsome =>
    have digits : DigitsText (ds ++ fraction) :=
      ⟨fun heq => hsome (no_digits_iff.mpr heq), List.forall_mem_append.mpr ⟨hds, hfraction⟩⟩
    rw [Option.isSome_map, exponentPart?_isSome_iff]
    exact (and_iff_right digits).symm

end

/-- What is read as a magnitude has digits with at most one point. -/
theorem of_magnitude? {negative : Bool}
    (h : (Binary64.magnitude? negative cs).isSome = true) : MagnitudeText cs := by
  obtain ⟨ds, mid, rfl, hds, hmid⟩ := Json.exists_takeWhile Text.isDigit cs
  by_cases hpoint : mid.head? = some '.'
  · obtain ⟨tail, rfl⟩ := List.head?_eq_some_iff.mp hpoint
    obtain ⟨fraction, rest, rfl, hfraction, hrest⟩ := Json.exists_takeWhile Text.isDigit tail
    obtain ⟨digits, hexponent⟩ := (magnitude?_pointed hds hfraction hrest).mp h
    exact .pointed digits hexponent
  · have hne : ∀ c ∈ mid.head?, c ≠ '.' := fun c hc heq => hpoint (heq ▸ hc)
    obtain ⟨digits, hexponent⟩ := (magnitude?_whole hds hmid hne).mp h
    exact .whole digits hexponent

/-- A number without its sign is read if it is one. -/
theorem unsigned?_isSome_iff {negative : Bool} :
    (Binary64.unsigned? negative cs).isSome = true ↔ MagnitudeText cs := by
  have hspecial : String.ofList (cs.map Char.toLower) ∈ specialWords ↔
      ((String.ofList (cs.map Char.toLower) == "inf" ||
        String.ofList (cs.map Char.toLower) == "infinity") = true ∨
        (String.ofList (cs.map Char.toLower) == "nan") = true) := by
    simp only [specialWords, List.mem_cons, List.not_mem_nil, or_false, Bool.or_eq_true,
      beq_iff_eq, or_assoc]
  rw [Binary64.unsigned?]
  split
  · next h => exact iff_of_true rfl (.special (hspecial.mpr (.inl h)))
  · next hinfinite =>
    split
    · next h => exact iff_of_true rfl (.special (hspecial.mpr (.inr h)))
    · next hnan =>
      refine ⟨of_magnitude?, fun h => ?_⟩
      cases h with
      | whole hds hexponent =>
        have hhead := head_exponent hexponent
        exact (magnitude?_whole hds.2 (fun c hc => (hhead c hc).1) fun c hc => (hhead c hc).2).mpr
          ⟨hds, hexponent⟩
      | pointed hds hexponent =>
        obtain ⟨hwhole, hfraction⟩ := List.forall_mem_append.mp hds.2
        exact (magnitude?_pointed hwhole hfraction fun c hc => (head_exponent hexponent c hc).1).mpr
          ⟨hds, hexponent⟩
      | special h => exact absurd (hspecial.mp h) (not_or.mpr ⟨hinfinite, hnan⟩)

/-- No magnitude begins with a sign. -/
theorem MagnitudeText.unsigned {sign : Char} (hsign : sign = '+' ∨ sign = '-') :
    ¬ MagnitudeText (sign :: cs) := by
  have hdigit : ¬ Text.isDigit sign = true := by
    rcases hsign with rfl | rfl <;> decide
  -- the sign would be the first digit, the point, or the first letter of a word
  intro h
  generalize heq : sign :: cs = text at h
  cases h with
  | @whole ds _ hds _ =>
    obtain ⟨d, tail, rfl⟩ := List.exists_cons_of_ne_nil hds.1
    obtain ⟨rfl, -⟩ := List.cons.inj heq
    exact hdigit (hds.2 _ List.mem_cons_self)
  | @pointed ds _ _ hds _ =>
    cases ds with
    | nil =>
      obtain ⟨rfl, -⟩ := List.cons.inj heq
      rcases hsign with hsign | hsign <;> cases hsign
    | cons d ds =>
      obtain ⟨rfl, -⟩ := List.cons.inj heq
      exact hdigit (hds.2 _ List.mem_cons_self)
  | special hword =>
    have hletter : ∀ word ∈ specialWords,
        word.toList.head? ≠ some '+' ∧ word.toList.head? ≠ some '-' := by decide
    obtain ⟨hplus, hminus⟩ := hletter _ hword
    rw [← heq, String.toList_ofList] at hplus hminus
    rcases hsign with rfl | rfl
    · exact hplus rfl
    · exact hminus rfl

/-- A text is read as a number if it is one. -/
theorem read?_isSome_iff {text : String} :
    (Binary64.read? text).isSome = true ↔ NumberText text.toList := by
  rw [Binary64.read?]
  split
  · next cs heq =>
    rw [heq, unsigned?_isSome_iff]
    refine ⟨.signed (.inl rfl), fun h => ?_⟩
    cases h with
    | plain h => exact absurd h (MagnitudeText.unsigned (.inl rfl))
    | signed _ h => exact h
  · next cs heq =>
    rw [heq, unsigned?_isSome_iff]
    refine ⟨.signed (.inr rfl), fun h => ?_⟩
    cases h with
    | plain h => exact absurd h (MagnitudeText.unsigned (.inr rfl))
    | signed _ h => exact h
  · next hplus hminus =>
    rw [unsigned?_isSome_iff]
    refine ⟨.plain, fun h => ?_⟩
    generalize text.toList = cs at h hplus hminus
    cases h with
    | plain h => exact h
    | signed hsign h =>
      rcases hsign with rfl | rfl
      · exact absurd rfl (hplus _)
      · exact absurd rfl (hminus _)

/-! ## What a text prints as -/

/-- The text is a word for a truth value, in any case. -/
def IsWord (text : String) : Prop :=
  Text.lowercased text = "true" ∨ Text.lowercased text = "false"

/-- The text `text` of a variable, read as a value and printed again, is `printed`. -/
inductive Prints (text : String) : (printed : String) → Prop where
  | word (h : IsWord text) : Prints text (Text.lowercased text)
  | integer {n : Int} (noWord : ¬ IsWord text) (h : Text.int64? text = some n) :
      Prints text (toString n)
  | float {x : Binary64} (noWord : ¬ IsWord text) (noInteger : Text.int64? text = none)
      (h : Binary64.read? text = some x) : Prints text x.text
  | itself (noWord : ¬ IsWord text) (noNumber : ¬ NumberText text.toList) : Prints text text

variable {text printed : String}

/-- An integer is a number. -/
theorem NumberText.of_int64? {n : Int} (h : Text.int64? text = some n) :
    NumberText text.toList := by
  have hsome : (Text.integer? text.toList).isSome = true :=
    Option.isSome_of_eq_some (Option.eq_some_of_filter_eq_some h)
  obtain ⟨sign, ds, heq, hsign, hds⟩ := integer?_isSome_iff.mp hsome
  have hmagnitude : MagnitudeText ds := List.append_nil ds ▸ .whole hds .none
  rw [heq]
  rcases hsign with rfl | rfl | rfl
  · exact .plain hmagnitude
  · exact .signed (.inl rfl) hmagnitude
  · exact .signed (.inr rfl) hmagnitude

/-- A text prints as itself unless it is a word or a number. -/
theorem Prints.verbatim (h : Prints text printed) :
    printed = text ∨ IsWord text ∨ NumberText text.toList := by
  cases h with
  | word h => exact .inr (.inl h)
  | integer noWord h => exact .inr (.inr (.of_int64? h))
  | float noWord noInteger h =>
    exact .inr (.inr (read?_isSome_iff.mp (Option.isSome_of_eq_some h)))
  | itself noWord noNumber => exact .inl rfl

theorem exists_prints (text : String) : ∃ printed, Prints text printed := by
  by_cases hword : IsWord text
  · exact ⟨_, .word hword⟩
  cases hint : Text.int64? text with
  | some n => exact ⟨_, .integer hword hint⟩
  | none =>
    cases hfloat : Binary64.read? text with
    | some x => exact ⟨_, .float hword hint hfloat⟩
    | none =>
      refine ⟨_, .itself hword fun hnumber => ?_⟩
      rw [← read?_isSome_iff, hfloat] at hnumber
      cases hnumber

theorem Environment.value_of_not_isWord (h : ¬ IsWord text) : Environment.value text =
    match Text.int64? text with
    | some n => .integer n
    | none => match Binary64.read? text with
      | some x => .float x
      | none => .text text := by
  obtain ⟨htrue, hfalse⟩ := not_or.mp h
  rw [← beq_iff_eq] at htrue hfalse
  exact (if_neg htrue).trans (if_neg hfalse)

theorem Prints.asText? (h : Prints text printed) :
    (Environment.value text).asText? = some printed := by
  cases h with
  | word h =>
    rcases h with h | h
    · simp only [Environment.value, h, beq_self_eq_true, if_pos]
      rfl
    · simp only [Environment.value, h]
      rfl
  | integer noWord h =>
    rw [Environment.value_of_not_isWord noWord, h]
    rfl
  | float noWord noInteger h =>
    rw [Environment.value_of_not_isWord noWord, noInteger, h]
    rfl
  | itself noWord noNumber =>
    have hint : Text.int64? text = none :=
      Option.eq_none_iff_forall_ne_some.mpr fun n hn => noNumber (.of_int64? hn)
    have hfloat : Binary64.read? text = none := by
      rw [← Option.not_isSome_iff_eq_none, read?_isSome_iff]
      exact noNumber
    rw [Environment.value_of_not_isWord noWord, hint, hfloat]
    rfl

/-- A text prints as its value does. -/
theorem prints_iff : Prints text printed ↔ (Environment.value text).asText? = some printed := by
  refine ⟨Prints.asText?, fun h => ?_⟩
  obtain ⟨printed', hprinted⟩ := exists_prints text
  obtain rfl := Option.some.inj (h.symm.trans hprinted.asText?)
  exact hprinted

end Primacy.Settings
