/-
  Primacy.Proofs.Json.Recognition

  What it is for a reader to accept exactly the texts of a grammar, and that the readers of strings
  do.  A string is read, or passed over, up to its closing quote, whatever goes on behind it.
-/
import Primacy.Proofs.Json.Grammar
import Primacy.Proofs.Json.Typed

namespace Primacy

/-! ## Reading step by step -/

namespace Text.Reader

variable {ε α β γ : Type} {r : Reader ε α} {f : α → Reader ε β} {cs rest : List Char} {a a' : α}
  {b : β}

theorem bind_eq_ok_iff : (r >>= f) cs = .ok (b, rest) ↔
    ∃ a mid, r cs = .ok (a, mid) ∧ f a mid = .ok (b, rest) := by
  constructor
  · intro h
    cases hr : r cs with
    | error e => cases (bind_of_error hr f).symm.trans h
    | ok x => exact ⟨x.1, x.2, rfl, (bind_of_ok hr f).symm.trans h⟩
  · rintro ⟨a, mid, hr, hf⟩
    exact (bind_of_ok hr f).trans hf

theorem bind_assoc (r : Reader ε α) (f : α → Reader ε β) (g : β → Reader ε γ) :
    r >>= f >>= g = r >>= fun a => f a >>= g := by
  funext cs
  cases hr : r cs with
  | error e => rw [bind_of_error (bind_of_error hr f), bind_of_error hr]
  | ok x =>
    rw [bind_of_ok hr]
    cases hf : f x.1 x.2 with
    | error e => rw [bind_of_error hf, bind_of_error ((bind_of_ok hr f).trans hf)]
    | ok y => rw [bind_of_ok hf, bind_of_ok ((bind_of_ok hr f).trans hf)]

theorem pure_eq_ok_iff : (pure a : Reader ε α) cs = .ok (a', rest) ↔ a' = a ∧ rest = cs := by
  show Except.ok (a, cs) = _ ↔ _
  rw [Except.ok.injEq, Prod.mk.injEq, eq_comm, @eq_comm _ cs]

end Text.Reader

namespace Json

open Text (Reader)

variable {cs rest : List Char}

/-! ## Characters of a kind -/

theorem takeWhile_append {p : Char → Bool} {ds : List Char} (hds : ∀ d ∈ ds, p d = true)
    (h : ∀ c ∈ cs.head?, p c = false) :
    Reader.takeWhile p (ds ++ cs) = (.ok (ds, cs) : Except Fault _) := by
  rw [Reader.takeWhile, List.takeWhile_append_of_pos hds, List.dropWhile_append_of_pos hds]
  cases cs with
  | nil => simp
  | cons c cs =>
    have hc : ¬ p c = true := by rw [h c rfl]; decide
    rw [List.takeWhile_cons_of_neg hc, List.dropWhile_cons_of_neg hc, List.append_nil]

/-- A text is cut where its first characters of a kind end. -/
theorem exists_takeWhile (p : Char → Bool) (cs : List Char) :
    ∃ ds mid, cs = ds ++ mid ∧ (∀ d ∈ ds, p d = true) ∧ ∀ c ∈ mid.head?, p c = false := by
  refine ⟨cs.takeWhile p, cs.dropWhile p, List.takeWhile_append_dropWhile.symm,
    fun d hd => List.all_eq_true.mp List.all_takeWhile d hd, fun c hc => ?_⟩
  have hnot := List.head?_dropWhile_not p cs
  rw [Option.mem_def.mp hc] at hnot
  exact hnot

/-! ## Tokens -/

theorem isSpace_of_mem {spaces : List Char} (h : Spaces spaces) {c : Char} (hc : c ∈ spaces) :
    isSpace c = true := List.all_eq_true.mp h c hc

/-- White space is dropped from in front of what is read. -/
theorem token_eq_ok_iff {o : Option Char} : token cs = .ok (o, rest) ↔
    ∃ spaces, cs = spaces ++ rest ∧ Spaces spaces ∧ o = rest.head? ∧
      ∀ c ∈ rest.head?, isSpace c = false := by
  have htake : ∀ {cs spaces mid : List Char},
      Reader.takeWhile isSpace cs = (.ok (spaces, mid) : Except Fault _) →
      token cs = .ok (mid.head?, mid) := fun h => Reader.bind_of_ok h _
  constructor
  · intro h
    obtain ⟨spaces, mid, rfl, hspaces, hmid⟩ := exists_takeWhile isSpace cs
    rw [htake (takeWhile_append hspaces hmid)] at h
    cases h
    exact ⟨spaces, rfl, List.all_eq_true.mpr hspaces, rfl, hmid⟩
  · rintro ⟨spaces, rfl, hspaces, rfl, hrest⟩
    exact htake (takeWhile_append (fun c => isSpace_of_mem hspaces) hrest)

/-- Whatever `r` takes off a text is as `P` says. -/
def Takes {α : Type} (r : Reader Fault α) (P : List Char → α → List Char → Prop) : Prop :=
  ∀ cs a rest, r cs = .ok (a, rest) → P cs a rest

theorem takes_fail {α : Type} (e : Fault) (P : List Char → α → List Char → Prop) :
    Takes (Reader.fail e) P := by
  intro cs a rest h
  cases h

theorem takes_wrongKind {α : Type} (P : List Char → α → List Char → Prop) : Takes wrongKind P :=
  fun cs a rest h => (yields_wrongKind (fun _ => False) cs a rest h).elim

/-- A reader that looks at the next token takes white space and goes on from there. -/
theorem of_token {α : Type} {f : Option Char → Reader Fault α}
    {P : List Char → α → List Char → Prop} {a : α}
    (h : (token >>= f) cs = .ok (a, rest))
    (hf : ∀ o, Takes (f o) fun cs a rest => cs.head? = o → P cs a rest) :
    ∃ spaces mid, cs = spaces ++ mid ∧ Spaces spaces ∧ P mid a rest := by
  obtain ⟨o, mid, htoken, hread⟩ := Reader.bind_eq_ok_iff.mp h
  obtain ⟨spaces, rfl, hspaces, rfl, -⟩ := token_eq_ok_iff.mp htoken
  exact ⟨spaces, mid, rfl, hspaces, hf _ mid a rest hread rfl⟩

/-- A value begins here: neither white space nor a closing bracket. -/
def Starts (text : List Char) : Prop :=
  ∃ c tail, text = c :: tail ∧ isSpace c = false ∧ c ≠ ']' ∧ c ≠ '\x7d'

/-- The reader takes exactly the texts of `V`, behind any white space and where no number goes on
behind them. -/
structure Recognizes {α : Type} (r : Reader Fault α) (V : List Char → α → Prop) : Prop where
  sound {cs a rest} (h : r cs = .ok (a, rest)) :
    ∃ spaces text, cs = spaces ++ (text ++ rest) ∧ Spaces spaces ∧ V text a
  complete {spaces text a rest} (hspaces : Spaces spaces) (htext : V text a) (hrest : Ends rest) :
    r (spaces ++ (text ++ rest)) = .ok (a, rest)
  starts {text a} (htext : V text a) : Starts text

/-! ## Code units and escapes -/

theorem codeUnit_eq_ok_iff {n : Nat} : codeUnit cs = .ok (n, rest) ↔
    ∃ text, cs = text ++ rest ∧ UnitText text n := by
  constructor
  · intro h
    rcases cs with _ | ⟨a, _ | ⟨b, _ | ⟨c, _ | ⟨d, cs⟩⟩⟩⟩
    · cases h
    · cases h
    · cases h
    · cases h
    simp only [codeUnit] at h
    split at h
    · next i j k l ha hb hc hd =>
      cases h
      exact ⟨[a, b, c, d], rfl, .digits ha hb hc hd⟩
    · cases h
  · rintro ⟨text, rfl, hunit⟩
    cases hunit with
    | digits ha hb hc hd => simp only [List.cons_append, List.nil_append, codeUnit, ha, hb, hc, hd]

/-- Passes over the character `c`. -/
def expect (c : Char) : Reader Fault Unit := do
  match ← Reader.next with
  | none => Reader.fail .eof
  | some d => if d ≠ c then Reader.fail .malformed

/-- The second half of a surrogate pair. -/
def lowHalf (high : Nat) : Reader Fault Char := do
  expect '\\'
  expect 'u'
  let low ← codeUnit
  if low < 0xDC00 ∨ 0xDFFF < low then Reader.fail .malformed
  else pure (pairChar high low)

theorem expect_eq_ok_iff {c : Char} {u : Unit} : expect c cs = .ok (u, rest) ↔ cs = c :: rest := by
  cases cs with
  | nil => exact iff_of_false nofun nofun
  | cons d cs =>
    show (if d ≠ c then Reader.fail .malformed else pure () : Reader Fault Unit) cs = _ ↔ _
    by_cases h : d = c
    · rw [if_neg (Decidable.not_not.mpr h), Reader.pure_eq_ok_iff, h, List.cons.injEq]
      simp [eq_comm]
    · rw [if_pos h]
      exact iff_of_false nofun fun heq => h (List.cons.inj heq).1

theorem unicodeEscape_eq (cs : List Char) : unicodeEscape cs = (do
    let high ← codeUnit
    if 0xDC00 ≤ high ∧ high ≤ 0xDFFF then Reader.fail .malformed
    else if high < 0xD800 ∨ 0xDBFF < high then pure (Char.ofNat high)
    else lowHalf high : Reader Fault Char) cs := by
  unfold unicodeEscape
  cases h : codeUnit cs with
  | error e => rw [Reader.bind_of_error h, Reader.bind_of_error h]
  | ok x =>
    obtain ⟨high, rest⟩ := x
    rw [Reader.bind_of_ok h, Reader.bind_of_ok h]
    split
    · rfl
    split
    · rfl
    unfold lowHalf pairChar
    simp only [List.forIn_cons, List.forIn_nil]
    rcases rest with _ | ⟨c, rest⟩
    · rfl
    by_cases hc : c = '\\'
    · subst hc
      rcases rest with _ | ⟨d, rest⟩
      · rfl
      by_cases hd : d = 'u'
      · subst hd
        rfl
      · simp [bind, pure, Reader.next, expect, Reader.fail, hd]
    · simp [bind, Reader.next, expect, Reader.fail, hc]

theorem lowHalf_eq_ok_iff {high : Nat} {c : Char} : lowHalf high cs = .ok (c, rest) ↔
    ∃ text low, cs = '\\' :: 'u' :: (text ++ rest) ∧ UnitText text low ∧
      (0xDC00 ≤ low ∧ low ≤ 0xDFFF) ∧
      c = pairChar high low := by
  simp only [lowHalf, Reader.bind_eq_ok_iff, expect_eq_ok_iff, codeUnit_eq_ok_iff]
  constructor
  · rintro ⟨-, mid, rfl, -, mid, rfl, low, mid, ⟨text, rfl, hunit⟩, hlow⟩
    split at hlow
    · cases hlow
    · next hrange =>
      rw [Reader.pure_eq_ok_iff] at hlow
      obtain ⟨rfl, rfl⟩ := hlow
      exact ⟨text, low, rfl, hunit, by omega, rfl⟩
  · rintro ⟨text, low, rfl, hunit, hrange, rfl⟩
    refine ⟨(), _, rfl, (), _, rfl, low, rest, ⟨text, rfl, hunit⟩, ?_⟩
    rw [if_neg (by omega)]
    rfl

theorem unicodeEscape_eq_ok_iff {c : Char} : unicodeEscape cs = .ok (c, rest) ↔
    ∃ text, cs = text ++ rest ∧ EscapeText ('u' :: text) c := by
  rw [unicodeEscape_eq, Reader.bind_eq_ok_iff]
  simp only [codeUnit_eq_ok_iff]
  constructor
  · rintro ⟨high, mid, ⟨text, rfl, hunit⟩, h⟩
    split at h
    · cases h
    split at h
    · obtain ⟨rfl, rfl⟩ := Reader.pure_eq_ok_iff.mp h
      exact ⟨text, rfl, .single hunit (by omega)⟩
    · obtain ⟨text', low, rfl, hunit', hlow, rfl⟩ := lowHalf_eq_ok_iff.mp h
      refine ⟨text ++ '\\' :: 'u' :: text', by simp, .pair hunit hunit' (by omega) hlow⟩
  · rintro ⟨text, rfl, hescape⟩
    generalize hu : 'u' :: text = full at hescape
    cases hescape with
    | short h =>
      obtain ⟨rfl, -⟩ := List.cons.inj hu
      simp [shortEscapes] at h
    | @single text' n h range =>
      obtain ⟨-, rfl⟩ := List.cons.inj hu
      refine ⟨n, rest, ⟨text, rfl, h⟩, ?_⟩
      rw [if_neg (by omega), if_pos (by omega)]
      rfl
    | @pair text₁ text₂ high low h h' highRange lowRange =>
      obtain ⟨-, rfl⟩ := List.cons.inj hu
      refine ⟨high, '\\' :: 'u' :: (text₂ ++ rest), ⟨text₁, by simp, h⟩, ?_⟩
      rw [if_neg (by omega), if_neg (by omega)]
      exact lowHalf_eq_ok_iff.mpr ⟨text₂, low, rfl, h', lowRange, rfl⟩

theorem escapeReader_short {e c : Char} (h : (e, c) ∈ shortEscapes) (cs : List Char) :
    escapeReader (e :: cs) = .ok (c, cs) := by
  simp only [shortEscapes, List.mem_cons, Prod.mk.injEq, List.not_mem_nil, or_false] at h
  rcases h with ⟨rfl, rfl⟩ | ⟨rfl, rfl⟩ | ⟨rfl, rfl⟩ | ⟨rfl, rfl⟩ | ⟨rfl, rfl⟩ | ⟨rfl, rfl⟩ |
    ⟨rfl, rfl⟩ | ⟨rfl, rfl⟩ <;> rfl

theorem escapeReader_other {e : Char} (hu : e ≠ 'u') (h : ∀ c, (e, c) ∉ shortEscapes)
    (cs : List Char) : escapeReader (e :: cs) = .error .malformed := by
  simp only [shortEscapes, List.mem_cons, Prod.mk.injEq, List.not_mem_nil, or_false, not_or,
    not_and] at h
  have hnext : Reader.next (e :: cs) = (.ok (some e, cs) : Except Fault _) := rfl
  rw [escapeReader, Reader.bind_of_ok hnext]
  refine congrFun (g := (Reader.fail .malformed : Reader Fault Char)) ?_ cs
  split
  case h_1 heq => cases heq
  case h_10 heq => exact absurd (Option.some.inj heq) hu
  case h_11 => rfl
  all_goals
    rename_i heq
    cases heq
    simp at h

theorem escapeReader_eq_ok_iff {c : Char} : escapeReader cs = .ok (c, rest) ↔
    ∃ text, cs = text ++ rest ∧ EscapeText text c := by
  constructor
  · intro hread
    rcases cs with _ | ⟨e, cs⟩
    · cases hread
    by_cases hu : e = 'u'
    · subst hu
      have hunicode : unicodeEscape cs = .ok (c, rest) := hread
      obtain ⟨text, rfl, hescape⟩ := unicodeEscape_eq_ok_iff.mp hunicode
      exact ⟨'u' :: text, rfl, hescape⟩
    by_cases hshort : ∃ c', (e, c') ∈ shortEscapes
    · obtain ⟨c', hc'⟩ := hshort
      rw [escapeReader_short hc', Except.ok.injEq, Prod.mk.injEq] at hread
      obtain ⟨rfl, rfl⟩ := hread
      exact ⟨[e], rfl, .short hc'⟩
    · rw [escapeReader_other hu (not_exists.mp hshort)] at hread
      cases hread
  · rintro ⟨text, rfl, hescape⟩
    cases hescape with
    | short h => exact escapeReader_short h rest
    | single h range =>
      exact unicodeEscape_eq_ok_iff.mpr ⟨_, rfl, .single h range⟩
    | pair h h' highRange lowRange =>
      exact unicodeEscape_eq_ok_iff.mpr ⟨_, rfl, .pair h h' highRange lowRange⟩

/-! ## Strings -/

/-- Whatever is neither a quote nor a backslash stands for itself, unless it is a control
character. -/
theorem stringRound_other {c : Char} (hquote : c ≠ '"') (hback : c ≠ '\\')
    (before cs : List Char) : stringRound before (c :: cs) =
      if c.toNat < 0x20 then .error .malformed else .ok (.inl (c :: before), cs) := by
  have hnext : Reader.next (c :: cs) = (.ok (some c, cs) : Except Fault _) := rfl
  rw [stringRound, Reader.bind_of_ok hnext]
  refine (congrFun (g := if c.toNat < 0x20 then Reader.fail .malformed
    else (pure (.inl (c :: before)) : Reader Fault (List Char ⊕ List Char))) ?_ cs).trans ?_
  · split
    case h_1 heq => cases heq
    case h_2 heq => exact absurd (Option.some.inj heq) hquote
    case h_3 heq => exact absurd (Option.some.inj heq) hback
    case h_4 d _ _ heq =>
      obtain rfl := Option.some.inj heq
      rfl
  · by_cases hcontrol : c.toNat < 0x20
    · exact (congrFun (if_pos hcontrol) cs).trans (if_pos hcontrol).symm
    · exact (congrFun (if_neg hcontrol) cs).trans (if_neg hcontrol).symm

theorem stringRound_plain {c : Char} (h : IsPlain c) (before cs : List Char) :
    stringRound before (c :: cs) = .ok (.inl (c :: before), cs) :=
  (stringRound_other h.2.1 h.2.2 before cs).trans (if_neg (Nat.not_lt.mpr h.1))

theorem stringRound_escaped {c : Char} (before : List Char) {cs rest : List Char}
    (h : escapeReader cs = .ok (c, rest)) :
    stringRound before ('\\' :: cs) = .ok (.inl (c :: before), rest) :=
  Reader.bind_of_ok h _

/-- A round of reading a string closes it, or takes a character off it. -/
theorem stringRound_cases {before : List Char} {x : List Char ⊕ List Char}
    (h : stringRound before cs = .ok (x, rest)) :
    (cs = '"' :: rest ∧ x = .inr before.reverse) ∨
    (∃ c, cs = c :: rest ∧ IsPlain c ∧ x = .inl (c :: before)) ∨
    ∃ piece c, cs = '\\' :: (piece ++ rest) ∧ EscapeText piece c ∧ x = .inl (c :: before) := by
  rcases cs with _ | ⟨d, cs⟩
  · cases h
  by_cases hquote : d = '"'
  · subst hquote
    cases h
    exact .inl ⟨rfl, rfl⟩
  by_cases hback : d = '\\'
  · subst hback
    have hescape : (escapeReader >>= fun c => pure (.inl (c :: before)) :
        Reader Fault (List Char ⊕ List Char)) cs = .ok (x, rest) := h
    obtain ⟨c, mid, hread, hpure⟩ := Reader.bind_eq_ok_iff.mp hescape
    obtain ⟨piece, rfl, hpiece⟩ := escapeReader_eq_ok_iff.mp hread
    cases hpure
    exact .inr (.inr ⟨piece, c, rfl, hpiece, rfl⟩)
  · rw [stringRound_other hquote hback] at h
    split at h
    · cases h
    · next hvisible =>
      cases h
      exact .inr (.inl ⟨d, rfl, ⟨Nat.not_lt.mp hvisible, hquote, hback⟩, rfl⟩)

theorem characters_eq_ok_iff {before result : List Char} :
    Reader.iterate .malformed stringRound before cs = .ok (result, rest) ↔
      ∃ text chars, cs = text ++ rest ∧ StringText text chars ∧
        result = before.reverse ++ chars := by
  constructor
  · intro h
    -- on the rounds
    fun_induction Reader.iterate .malformed stringRound before cs with
    | case1 before cs e hround => cases h
    | case2 before cs a rest' hround =>
      cases h
      rcases stringRound_cases hround with ⟨rfl, hx⟩ | ⟨c, -, -, hx⟩ | ⟨piece, c, -, -, hx⟩
      · cases hx
        exact ⟨['"'], [], rfl, .close, (List.append_nil _).symm⟩
      · cases hx
      · cases hx
    | case3 before cs before' rest' hround hlt ih =>
      obtain ⟨text, chars, rfl, htext, rfl⟩ := ih h
      rcases stringRound_cases hround with ⟨-, hx⟩ | ⟨c, rfl, hplain, hx⟩ | ⟨piece, c, rfl, hc, hx⟩
      · cases hx
      · cases hx
        exact ⟨c :: text, c :: chars, rfl, .plain hplain htext, by simp⟩
      · cases hx
        exact ⟨'\\' :: (piece ++ text), c :: chars, by simp, .escape hc htext, by simp⟩
    | case4 before cs before' rest' hround hlt => cases h
  · rintro ⟨text, chars, rfl, htext, rfl⟩
    -- each part of the text is one round
    induction htext generalizing before with
    | close => exact Reader.iterate_of_inr (by rw [List.append_nil]; rfl)
    | @plain c text chars hplain htext ih =>
      have hround := stringRound_plain hplain before (text ++ rest)
      refine (Reader.iterate_of_inl hround (Nat.lt_succ_self _)).trans ?_
      rw [ih, List.reverse_cons, List.append_assoc]
      rfl
    | @escape piece text chars c hc htext ih =>
      have hround := stringRound_escaped before
        (escapeReader_eq_ok_iff.mpr ⟨piece, (rfl : piece ++ (text ++ rest) = _), hc⟩)
      rw [List.cons_append, List.append_assoc, Reader.iterate_of_inl hround, ih, List.reverse_cons,
        List.append_assoc]
      · rfl
      · simp only [List.length_cons, List.length_append]
        omega

/-- A string is read up to its closing quote. -/
theorem stringBody_eq_ok_iff {s : String} : stringBody cs = .ok (s, rest) ↔
    ∃ text, cs = text ++ rest ∧ StringText text s.toList := by
  rw [stringBody, Reader.bind_eq_ok_iff]
  constructor
  · rintro ⟨chars, mid, hchars, hpure⟩
    cases hpure
    obtain ⟨text, chars, rfl, htext, rfl⟩ := characters_eq_ok_iff.mp hchars
    exact ⟨text, rfl, by rwa [String.toList_ofList]⟩
  · rintro ⟨text, rfl, htext⟩
    refine ⟨s.toList, rest, characters_eq_ok_iff.mpr ⟨text, _, rfl, htext, rfl⟩, ?_⟩
    rw [String.ofList_toList]
    rfl

/-- The reader of strings reads exactly strings. -/
theorem string_recognizes : Recognizes string QuotedText where
  sound := by
    intro cs s rest h
    have hbody : ∃ spaces mid, cs = spaces ++ mid ∧ Spaces spaces ∧
        ∃ text, mid = text ++ rest ∧ QuotedText text s := by
      apply of_token h
      intro o
      split
      · intro cs s rest h hhead
        obtain ⟨cs, rfl⟩ := List.head?_eq_some_iff.mp hhead
        obtain ⟨text, rfl, htext⟩ := stringBody_eq_ok_iff.mp h
        exact ⟨'"' :: text, rfl, .quotes htext⟩
      · exact takes_wrongKind _
    obtain ⟨spaces, mid, rfl, hspaces, text, rfl, htext⟩ := hbody
    exact ⟨spaces, text, rfl, hspaces, htext⟩
  complete := by
    rintro spaces _ s rest hspaces ⟨htext⟩ -
    refine (Reader.bind_of_ok (token_of_spaces spaces hspaces rfl) _).trans ?_
    exact stringBody_eq_ok_iff.mpr ⟨_, rfl, htext⟩
  starts := by
    rintro _ s ⟨htext⟩
    exact ⟨'"', _, rfl, rfl, by decide, by decide⟩

/-! ## Strings that nobody asks for -/

/-- One round of `skipString`. -/
def passRound (_ : Unit) : Reader Fault (Unit ⊕ Unit) := do
  match ← Reader.next with
  | none => Reader.fail .eof
  | some '"' => pure (.inr ())
  | some '\\' =>
    match ← Reader.next with
    | none => Reader.fail .eof
    | some 'u' => let _ ← codeUnit; pure (.inl ())
    | some c =>
      if "\"\\/bfnrt".toList.contains c then pure (.inl ()) else Reader.fail .malformed
  | some c => if c.toNat < 0x20 then Reader.fail .malformed else pure (.inl ())

/-- What is passed over behind a backslash. -/
def passEscape : Option Char → Reader Fault (Unit ⊕ Unit)
  | none => Reader.fail .eof
  | some 'u' => do let _ ← codeUnit; pure (.inl ())
  | some c => if "\"\\/bfnrt".toList.contains c then pure (.inl ()) else Reader.fail .malformed

theorem contains_shortEscapes (c : Char) :
    "\"\\/bfnrt".toList.contains c = true ↔ c ∈ shortEscapes.map (·.1) := by
  simp [shortEscapes]

theorem passEscape_other {c : Char} (hu : c ≠ 'u') (cs : List Char) :
    passEscape (some c) cs =
      if c ∈ shortEscapes.map (·.1) then .ok (.inl (), cs) else .error .malformed := by
  have hkind : passEscape (some c) =
      if "\"\\/bfnrt".toList.contains c then pure (.inl ()) else Reader.fail .malformed := by
    unfold passEscape
    split
    · next heq => cases heq
    · next heq => exact absurd (Option.some.inj heq) hu
    · next heq =>
      obtain rfl := Option.some.inj heq
      rfl
  rw [hkind]
  by_cases h : c ∈ shortEscapes.map (·.1)
  · rw [if_pos ((contains_shortEscapes c).mpr h), if_pos h]
    rfl
  · rw [if_neg (mt (contains_shortEscapes c).mp h), if_neg h]
    rfl

/-- Whatever is neither a quote nor a backslash is passed over, unless it is a control character. -/
theorem passRound_other {c : Char} (hquote : c ≠ '"') (hback : c ≠ '\\') (cs : List Char) :
    passRound () (c :: cs) =
      if c.toNat < 0x20 then .error .malformed else .ok (.inl (), cs) := by
  have hnext : Reader.next (c :: cs) = (.ok (some c, cs) : Except Fault _) := rfl
  rw [passRound, Reader.bind_of_ok hnext]
  refine (congrFun (g := if c.toNat < 0x20 then Reader.fail .malformed
    else (pure (.inl ()) : Reader Fault (Unit ⊕ Unit))) ?_ cs).trans ?_
  · split
    case h_1 heq => cases heq
    case h_2 heq => exact absurd (Option.some.inj heq) hquote
    case h_3 heq => exact absurd (Option.some.inj heq) hback
    case h_4 d _ _ heq =>
      obtain rfl := Option.some.inj heq
      rfl
  · by_cases hcontrol : c.toNat < 0x20
    · exact (congrFun (if_pos hcontrol) cs).trans (if_pos hcontrol).symm
    · exact (congrFun (if_neg hcontrol) cs).trans (if_neg hcontrol).symm

/-- What a round of passing over a string takes off it. -/
inductive PassPiece : List Char → Unit ⊕ Unit → Prop where
  | close : PassPiece ['"'] (.inr ())
  | plain {c : Char} (h : IsPlain c) : PassPiece [c] (.inl ())
  | short {e : Char} (h : e ∈ shortEscapes.map (·.1)) : PassPiece ['\\', e] (.inl ())
  | unit {piece : List Char} {n : Nat} (h : UnitText piece n) :
      PassPiece ('\\' :: 'u' :: piece) (.inl ())

theorem passRound_eq_ok_iff {x : Unit ⊕ Unit} : passRound () cs = .ok (x, rest) ↔
    ∃ piece, cs = piece ++ rest ∧ PassPiece piece x := by
  constructor
  · intro h
    rcases cs with _ | ⟨c, cs⟩
    · cases h
    by_cases hquote : c = '"'
    · subst hquote
      cases h
      exact ⟨['"'], rfl, .close⟩
    by_cases hback : c = '\\'
    · subst hback
      rcases cs with _ | ⟨e, cs⟩
      · cases h
      have hescape : passEscape (some e) cs = .ok (x, rest) := h
      by_cases hu : e = 'u'
      · subst hu
        obtain ⟨n, mid, hunit, hpure⟩ := Reader.bind_eq_ok_iff.mp hescape
        cases hpure
        obtain ⟨piece, rfl, hpiece⟩ := codeUnit_eq_ok_iff.mp hunit
        exact ⟨'\\' :: 'u' :: piece, rfl, .unit hpiece⟩
      · rw [passEscape_other hu] at hescape
        split at hescape
        · next hshort =>
          cases hescape
          exact ⟨['\\', e], rfl, .short hshort⟩
        · cases hescape
    · rw [passRound_other hquote hback] at h
      split at h
      · cases h
      · next hvisible =>
        cases h
        exact ⟨[c], rfl, .plain ⟨Nat.not_lt.mp hvisible, hquote, hback⟩⟩
  · rintro ⟨piece, rfl, hpiece⟩
    cases hpiece with
    | close => rfl
    | plain h => exact (passRound_other h.2.1 h.2.2 _).trans (if_neg (Nat.not_lt.mpr h.1))
    | @short e h =>
      have hu : e ≠ 'u' := by
        rintro rfl
        revert h
        decide
      exact (passEscape_other hu rest).trans (if_pos h)
    | @unit piece n h =>
      have hunit : codeUnit (piece ++ rest) = .ok (n, rest) :=
        codeUnit_eq_ok_iff.mpr ⟨piece, rfl, h⟩
      exact Reader.bind_of_ok hunit _

theorem skipString_eq : skipString = Reader.iterate .malformed passRound () := rfl

/-- A string is passed over up to its closing quote. -/
theorem skipString_eq_ok_iff {u : Unit} : skipString cs = .ok (u, rest) ↔
    ∃ text, cs = text ++ rest ∧ PassedString text := by
  rw [skipString_eq]
  constructor
  · intro h
    -- on the rounds
    fun_induction Reader.iterate .malformed passRound () cs with
    | case1 s cs e hround => cases h
    | case2 s cs a rest' hround =>
      cases h
      obtain ⟨piece, rfl, hpiece⟩ := passRound_eq_ok_iff.mp hround
      cases hpiece with
      | close => exact ⟨['"'], rfl, .close⟩
    | case3 s cs s' rest' hround hlt ih =>
      obtain ⟨text, rfl, htext⟩ := ih h
      obtain ⟨piece, rfl, hpiece⟩ := passRound_eq_ok_iff.mp hround
      refine ⟨piece ++ text, (List.append_assoc ..).symm, ?_⟩
      cases hpiece with
      | plain h => exact .plain h htext
      | short h => exact .short h htext
      | unit h => exact .unit h htext
    | case4 s cs s' rest' hround hlt => cases h
  · rintro ⟨text, rfl, htext⟩
    have hpass : ∀ {piece text : List Char}, PassPiece piece (.inl ()) → piece ≠ [] →
        Reader.iterate .malformed passRound () (piece ++ (text ++ rest)) =
          Reader.iterate .malformed passRound () (text ++ rest) := by
      intro piece text hpiece hne
      have hround := passRound_eq_ok_iff.mpr ⟨piece, (rfl : piece ++ (text ++ rest) = _), hpiece⟩
      refine Reader.iterate_of_inl hround ?_
      have hpos := List.length_pos_iff.mpr hne
      simp only [List.length_append]
      omega
    induction htext with
    | close => exact Reader.iterate_of_inr (passRound_eq_ok_iff.mpr ⟨['"'], rfl, .close⟩)
    | plain h htext ih => exact (hpass (.plain h) (List.cons_ne_nil _ _)).trans ih
    | short h htext ih => exact (hpass (.short h) (List.cons_ne_nil _ _)).trans ih
    | @unit piece text n h htext ih =>
      rw [List.cons_append, List.cons_append, List.append_assoc]
      exact (hpass (.unit h) (List.cons_ne_nil _ _)).trans ih

end Json

end Primacy
