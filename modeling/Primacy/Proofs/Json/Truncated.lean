/-
  Primacy.Proofs.Json.Truncated

  Texts that are cut off.  What is left of a string is never read as one, wherever the cut falls;
  what is left of a number may be read, but then it uses up all there is.  Readers that follow one
  another fail on what is left of their texts as soon as the first of them does.
-/
import Primacy.Proofs.Json.Literal
import Primacy.Proofs.Text.Truncated

namespace Primacy

open Text (Reader prefix_append_cases)

namespace Json

/-! ## Cuts -/

variable {α β σ : Type} {r : Reader Fault α} {a : α} {p text : List Char}

/-- `r` fails on `p`. -/
def Fails (r : Reader Fault α) (p : List Char) : Prop := ∃ e, r p = .error e

/-- `r` fails on `p`, or it leaves nothing of it. -/
def UsesUp (r : Reader Fault α) (p : List Char) : Prop := Fails r p ∨ ∃ a, r p = .ok (a, [])

/-- `r` fails on what is left of `text` after a cut. -/
def FailsWithin (r : Reader Fault α) (text : List Char) : Prop :=
  ∀ p, p <+: text → p ≠ text → Fails r p

theorem Fails.bind (h : Fails r p) (f : α → Reader Fault β) : Fails (r >>= f) p := by
  obtain ⟨e, he⟩ := h
  exact ⟨e, Reader.bind_of_error he f⟩

/-- A reader that goes on as another one does fails where that one does. -/
theorem Fails.of_eq {r' : Reader Fault α} {p' : List Char} (hr : Fails r' p')
    (h : r p = r' p') : Fails r p := by
  obtain ⟨e, he⟩ := hr
  exact ⟨e, h.trans he⟩

theorem Fails.bind_of_ok {f : α → Reader Fault β} {rest : List Char} (h : r p = .ok (a, rest))
    (hf : Fails (f a) rest) : Fails (r >>= f) p :=
  hf.of_eq (Reader.bind_of_ok h f)

theorem Fails.iterate {round : σ → Reader Fault (σ ⊕ α)} {s : σ} (h : Fails (round s) p)
    (stuck : Fault) : Fails (Reader.iterate stuck round s) p := by
  obtain ⟨e, he⟩ := h
  exact ⟨e, Reader.iterate_of_error he⟩

theorem UsesUp.bind {f : α → Reader Fault β} (h : UsesUp r p) (hf : ∀ a, UsesUp (f a) []) :
    UsesUp (r >>= f) p := by
  rcases h with h | ⟨a, ha⟩
  · exact .inl (h.bind f)
  · rcases hf a with hf | ⟨b, hb⟩
    · exact .inl (.bind_of_ok ha hf)
    · exact .inr ⟨b, (Reader.bind_of_ok ha f).trans hb⟩

theorem UsesUp.bind_of_ok {f : α → Reader Fault β} {rest : List Char} (h : r p = .ok (a, rest))
    (hf : UsesUp (f a) rest) : UsesUp (r >>= f) p := by
  rcases hf with hf | ⟨b, hb⟩
  · exact .inl (.bind_of_ok h hf)
  · exact .inr ⟨b, (Reader.bind_of_ok h f).trans hb⟩

theorem UsesUp.ite {q : Prop} [Decidable q] {r' : Reader Fault α} (h : UsesUp r p)
    (h' : UsesUp r' p) : UsesUp (if q then r else r') p := by
  split
  · exact h
  · exact h'

theorem usesUp_pure_nil (a : α) : UsesUp (pure a : Reader Fault α) [] := .inr ⟨a, rfl⟩

/-- A reader that fails within its text reads all of it, or fails, after a cut. -/
theorem FailsWithin.cut {s t : List Char} (hr : FailsWithin r s)
    (hfull : ∀ rest, r (s ++ rest) = .ok (a, rest)) (hp : p <+: s ++ t) :
    Fails r p ∨ ∃ p', p' <+: t ∧ r p = .ok (a, p') := by
  rcases prefix_append_cases hp with ⟨hps, hne⟩ | ⟨p', hp', rfl⟩
  · exact .inl (hr p hps hne)
  · exact .inr ⟨p', hp', hfull p'⟩

theorem FailsWithin.iterate {round : σ → Reader Fault (σ ⊕ α)} {s : σ}
    (h : FailsWithin (round s) text) (stuck : Fault) :
    FailsWithin (Reader.iterate stuck round s) text := fun p hp hne =>
  (h p hp hne).iterate stuck

/-- A round of a repetition fails on `p`, or it asks for another round and leaves nothing of `p`. -/
def AsksOn (round : Reader Fault (σ ⊕ α)) (p : List Char) : Prop :=
  Fails round p ∨ ∃ s, round p = .ok (.inl s, [])

theorem AsksOn.bind_of_ok {r : Reader Fault β} {b : β} {rest : List Char}
    {f : β → Reader Fault (σ ⊕ α)} (h : r p = .ok (b, rest)) (hf : AsksOn (f b) rest) :
    AsksOn (r >>= f) p := by
  rcases hf with hf | ⟨s, hs⟩
  · exact .inl (.bind_of_ok h hf)
  · exact .inr ⟨s, (Reader.bind_of_ok h f).trans hs⟩

/-- A repetition fails where a round of it asks for another one and nothing is left. -/
theorem AsksOn.fails_iterate {round : σ → Reader Fault (σ ⊕ α)} {s : σ} {stuck : Fault}
    (h : AsksOn (round s) p) (hnil : ∀ s, Fails (round s) []) :
    Fails (Reader.iterate stuck round s) p := by
  rcases h with h | ⟨s', hs'⟩
  · exact h.iterate stuck
  · cases p with
    | nil => exact (hnil s).iterate stuck
    | cons c cs =>
      -- the next round has nothing to read
      have hnext := (hnil s').iterate stuck
      exact hnext.of_eq (Reader.iterate_of_inl hs' (Nat.zero_lt_succ _))

theorem token_of_all {spaces : List Char} (h : spaces.all isSpace = true) :
    token spaces = .ok (none, []) := by
  have hdrop : spaces.dropWhile isSpace = [] := by
    rw [← List.append_nil spaces, List.dropWhile_append_of_pos (List.all_eq_true.mp h)]
    rfl
  show Except.ok ((spaces.dropWhile isSpace).head?, spaces.dropWhile isSpace) = _
  rw [hdrop]
  rfl

/-- A reader that fails on white space alone fails within white space and what follows if it fails
within what follows. -/
theorem failsWithin_spaces {spaces cs : List Char} {c : Char} (hspaces : spaces.all isSpace = true)
    (hblank : ∀ s : List Char, s.all isSpace = true → Fails r s)
    (hcons : ∀ p, p <+: cs → p ≠ cs → Fails r (spaces ++ c :: p)) :
    FailsWithin r (spaces ++ c :: cs) := by
  intro p hp hne
  -- the cut falls into the white space, right behind it, or behind `c`
  rcases prefix_append_cases hp with ⟨hps, -⟩ | ⟨p', hp', rfl⟩
  · refine hblank p (List.all_eq_true.mpr fun d hd => ?_)
    exact List.all_eq_true.mp hspaces d (hps.subset hd)
  · rcases List.prefix_cons_iff.mp hp' with rfl | ⟨p'', rfl, hp''⟩
    · refine hblank (spaces ++ []) ?_
      rw [List.append_nil]
      exact hspaces
    · exact hcons p'' hp'' fun h => hne (by rw [h])

/-! ## Strings -/

theorem codeUnit_few (h : p.length < 4) : Fails codeUnit p := by
  match p with
  | [] => exact ⟨_, rfl⟩
  | [_] => exact ⟨_, rfl⟩
  | [_, _] => exact ⟨_, rfl⟩
  | [_, _, _] => exact ⟨_, rfl⟩
  | _ :: _ :: _ :: _ :: cs =>
    simp only [List.length_cons] at h
    omega

theorem failsWithin_cons {c : Char} {cs : List Char} (hnil : Fails r [])
    (hcons : ∀ p, p <+: cs → p ≠ cs → Fails r (c :: p)) : FailsWithin r (c :: cs) := by
  intro p hp hne
  rcases List.prefix_cons_iff.mp hp with rfl | ⟨p', rfl, hp'⟩
  · exact hnil
  · exact hcons p' hp' fun h => hne (by rw [h])

theorem stringRound_backslash {before tail : List Char} (h : FailsWithin escapeReader tail) :
    FailsWithin (stringRound before) ('\\' :: tail) :=
  failsWithin_cons ⟨_, rfl⟩ fun p hp hne => by
    have hescape : Fails (do return .inl ((← escapeReader) :: before) :
        Reader Fault (List Char ⊕ List Char)) p := (h p hp hne).bind _
    exact hescape.of_eq rfl

/-- What is left of a character's escape is not read. -/
theorem stringRound_within (c : Char) (before : List Char) :
    FailsWithin (stringRound before) (escape c) := by
  have hshort : ∀ x, FailsWithin escapeReader [x] := fun x =>
    failsWithin_cons ⟨_, rfl⟩ fun p hp hne => absurd (List.prefix_nil.mp hp) hne
  have hunit : ∀ a b, FailsWithin escapeReader ['u', '0', '0', a, b] := fun a b =>
    failsWithin_cons ⟨_, rfl⟩ fun p hp hne => by
      have hlength : p.length ≠ ['0', '0', a, b].length := fun h => hne (hp.eq_of_length h)
      have hle := hp.length_le
      have hfew : Fails codeUnit p := codeUnit_few (by
        simp only [List.length_cons, List.length_nil] at hle hlength
        omega)
      exact hfew.bind _
  have hplain : FailsWithin (stringRound before) [c] :=
    failsWithin_cons ⟨_, rfl⟩ fun p hp hne => absurd (List.prefix_nil.mp hp) hne
  unfold escape
  repeat' split
  any_goals exact stringRound_backslash (hshort _)
  · exact stringRound_backslash (hunit _ _)
  · exact hplain

/-- What is left of a string is not read. -/
theorem characters_within (cs before : List Char) :
    FailsWithin (Reader.iterate .malformed stringRound before) (cs.flatMap escape ++ ['"']) := by
  -- on the characters: the cut falls into the first one, or behind it
  induction cs generalizing before with
  | nil =>
    intro p hp hne
    rcases List.prefix_cons_iff.mp hp with rfl | ⟨p', rfl, hp'⟩
    · exact ⟨_, Reader.iterate_of_error rfl⟩
    · exact absurd (by rw [List.prefix_nil.mp hp']; rfl) hne
  | cons c cs ih =>
    intro p hp hne
    rw [List.flatMap_cons, List.append_assoc] at hp hne
    rcases prefix_append_cases hp with ⟨hc, hne'⟩ | ⟨p', hp', rfl⟩
    · exact (stringRound_within c before p hc hne').iterate .malformed
    · have hpos := List.length_pos_iff.mpr (escape_ne_nil c)
      have hlt : p'.length < (escape c ++ p').length := by
        rw [List.length_append]
        omega
      have hrest := ih (c :: before) p' hp' fun h => hne (by rw [h])
      exact hrest.of_eq (Reader.iterate_of_inl (stringRound_escape c before p') hlt)

theorem stringBody_within (s : String) :
    FailsWithin stringBody (s.toList.flatMap escape ++ ['"']) := fun p hp hne =>
  Fails.bind (characters_within s.toList [] p hp hne) fun cs => pure (String.ofList cs)

theorem usesUp_string (s : String) {p : List Char} (hp : p <+: ' ' :: quoted s) :
    UsesUp string p := by
  rcases List.prefix_cons_iff.mp hp with rfl | ⟨p', rfl, hp'⟩
  · exact .inl ⟨_, rfl⟩
  · rcases List.prefix_cons_iff.mp hp' with rfl | ⟨p'', rfl, hp''⟩
    · exact .inl ⟨_, rfl⟩
    · have htoken : token (' ' :: '"' :: p'') = .ok (some '"', '"' :: p'') :=
        token_of_spaces [' '] rfl rfl
      refine .bind_of_ok htoken ?_
      have hskip : Reader.skip 1 ('"' :: p'') = (.ok ((), p'') : Except Fault _) := rfl
      refine .bind_of_ok hskip ?_
      by_cases heq : p'' = s.toList.flatMap escape ++ ['"']
      · rw [heq]
        exact .inr ⟨s, stringBody_escaped s []⟩
      · exact .inl (stringBody_within s p'' hp'' heq)

/-! ## Integers -/

theorem finish_usesUp (m : Number.Mantissa) :
    UsesUp (fun cs => (Number.finish m).map (·, cs) : Reader Fault Number) [] := by
  cases h : Number.finish m with
  | error e => exact .inl ⟨e, rfl⟩
  | ok n => exact .inr ⟨n, rfl⟩

theorem afterWhole_usesUp (negative : Bool) (whole : List Char) :
    UsesUp (Number.afterWhole negative whole) [] := by
  have hpeek : Reader.peek [] = (.ok (none, []) : Except Fault _) := rfl
  rw [Number.afterWhole]
  refine .bind_of_ok hpeek ?_
  exact .ite (finish_usesUp _)
    (.ite (usesUp_pure_nil _) (.ite (usesUp_pure_nil _) (usesUp_pure_nil _)))

/-- Digits are all used up, whether they make up a number or not. -/
theorem unsigned_usesUp (negative : Bool) {ds : List Char} (hds : ∀ d ∈ ds, Text.isDigit d = true) :
    UsesUp (Number.unsigned negative) ds := by
  cases ds with
  | nil => exact .inl ⟨_, rfl⟩
  | cons d ds =>
    have hpeek : Reader.peek (d :: ds) = (.ok (some d, d :: ds) : Except Fault _) := rfl
    rw [Number.unsigned]
    refine .bind_of_ok hpeek ?_
    by_cases hzero : d = '0'
    · subst hzero
      have hskip : Reader.skip 1 ('0' :: ds) = (.ok ((), ds) : Except Fault _) := rfl
      refine .bind_of_ok hskip ?_
      cases ds with
      | nil => exact afterWhole_usesUp negative ['0']
      | cons d' ds =>
        -- a zero with a digit behind it is no number
        have hdigit : Text.isDigit d' = true := hds d' (by simp)
        have hnext : Reader.peek (d' :: ds) = (.ok (some d', d' :: ds) : Except Fault _) := rfl
        refine .bind_of_ok hnext (.inl ⟨.malformed, ?_⟩)
        show (if Text.isDigit d' = true then Reader.fail .malformed else _ : Reader Fault Number)
          (d' :: ds) = _
        rw [if_pos hdigit]
        rfl
    · have htake : Reader.takeWhile Text.isDigit (d :: ds) =
          (.ok (d :: ds, []) : Except Fault _) := by
        rw [Reader.takeWhile, ← List.append_nil (d :: ds), List.takeWhile_append_of_pos hds,
          List.dropWhile_append_of_pos hds]
        rfl
      split
      · next h => cases h
      · next h => exact absurd (Option.some.inj h) hzero
      · next c _ h =>
        obtain rfl := Option.some.inj h
        rw [if_pos (hds d List.mem_cons_self)]
        exact .bind_of_ok htake (afterWhole_usesUp negative (d :: ds))

/-- Part of the text of an integer begins with a sign or with a digit, and goes on with digits. -/
theorem reader_usesUp {n : Int} {c : Char} {cs : List Char} (h : c :: cs <+: (toString n).toList) :
    UsesUp Number.reader (c :: cs) ∧ (c = '-' ∨ Text.isDigit c = true) := by
  have hdigits : ∀ d ∈ Nat.toDigits 10 n.natAbs, Text.isDigit d = true := fun d =>
    Text.isDigit_toDigits
  rw [Text.toList_toString] at h
  by_cases hneg : n < 0
  · rw [if_pos hneg] at h
    obtain ⟨rfl, hcs⟩ := List.cons_prefix_cons.mp h
    have haccept : Reader.accept '-' ('-' :: cs) = (.ok (true, cs) : Except Fault _) := rfl
    exact ⟨.bind_of_ok haccept (unsigned_usesUp true fun d hd => hdigits d (hcs.subset hd)),
      .inl rfl⟩
  · rw [if_neg hneg, List.nil_append] at h
    have hall : ∀ d ∈ c :: cs, Text.isDigit d = true := fun d hd => hdigits d (h.subset hd)
    have hdigit : Text.isDigit c = true := hall c List.mem_cons_self
    have hne : c ≠ '-' := by
      rintro rfl
      cases hdigit
    have haccept : Reader.accept '-' (c :: cs) = (.ok (false, c :: cs) : Except Fault _) := by
      show (if c = '-' then _ else _) = _
      rw [if_neg hne]
    exact ⟨.bind_of_ok haccept (unsigned_usesUp false hall), .inr hdigit⟩

/-- The text of an integer, cut off anywhere, is all used up. -/
theorem usesUp_integer (low high n : Int) {p : List Char} (hp : p <+: ' ' :: (toString n).toList) :
    UsesUp (integer low high) p := by
  rcases List.prefix_cons_iff.mp hp with rfl | ⟨p', rfl, hp'⟩
  · exact .inl ⟨_, rfl⟩
  · cases p' with
    | nil => exact .inl ⟨_, rfl⟩
    | cons c cs =>
      have hreader := reader_usesUp hp'
      have htoken : token (' ' :: c :: cs) = .ok (some c, c :: cs) :=
        token_of_spaces [' '] rfl (isSpace_of_number hreader.2)
      refine .bind_of_ok htoken ?_
      show UsesUp (if c = '-' ∨ Text.isDigit c = true then _ else _) _
      rw [if_pos hreader.2]
      refine hreader.1.bind fun m => ?_
      cases m with
      | integer m => exact .ite (usesUp_pure_nil m) (.inl ⟨_, rfl⟩)
      | float => exact .inl ⟨_, rfl⟩

end Json

end Primacy
