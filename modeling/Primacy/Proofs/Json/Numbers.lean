/-
  Primacy.Proofs.Json.Numbers

  The reader of integers accepts exactly their texts, and the one that passes over numbers exactly
  those of numbers, both where no number goes on.
-/
import Primacy.Proofs.Json.Recognition

namespace Primacy.Json

open Text (Reader)

variable {cs rest : List Char}

/-! ## Integers -/

theorem exp_wholePart_pos (ds : List Char) {m : Number.Mantissa} (h : 0 < m.exp) :
    0 < (Number.Mantissa.wholePart ds m).exp := by
  induction ds generalizing m with
  | nil => exact h
  | cons d ds ih =>
    rw [Number.Mantissa.wholePart, if_neg fun hfits => absurd hfits.1 (Int.ne_of_gt h)]
    exact ih (by show 0 < m.exp + 1; omega)

/-- Digits that all count make up their number. -/
theorem digits_wholePart {ds : List Char} {n : Nat}
    (h : (Number.Mantissa.wholePart ds ⟨n, 0⟩).exp = 0) :
    (Number.Mantissa.wholePart ds ⟨n, 0⟩).digits = Nat.ofDigitChars 10 ds n := by
  induction ds generalizing n with
  | nil => rfl
  | cons d ds ih =>
    rw [Number.Mantissa.wholePart] at h ⊢
    by_cases hfits : Number.Mantissa.fits ⟨n, 0⟩ d = true
    · rw [if_pos ⟨rfl, hfits⟩] at h ⊢
      rw [ih h, Nat.ofDigitChars_cons, Nat.mul_comm]
      rfl
    · rw [if_neg fun hboth => hfits hboth.2] at h
      have hpos := exp_wholePart_pos ds (m := ⟨n, 1⟩) Int.one_pos
      exact absurd h (Int.ne_of_gt hpos)

/-- The float with the mantissa `m`, where it is not too large. -/
def floated (m : Number.Mantissa) : Reader Fault Number := fun cs => (Number.finish m).map (·, cs)

/-- The digits of an exponent. -/
def exponentDigits (m : Number.Mantissa) (negative : Bool) : Reader Fault Number := do
  let digits ← Reader.takeWhile Text.isDigit
  if digits.isEmpty then
    match ← Reader.peek with
    | none => Reader.fail .eof
    | some _ => Reader.fail .malformed
  else floated { m with exp := m.exp + Number.exponentValue negative digits }

/-- A point, the digits behind it and an exponent, if there is one. -/
def fraction (m : Number.Mantissa) : Reader Fault Number := do
  Reader.skip 1
  let digits ← Reader.takeWhile Text.isDigit
  if digits.isEmpty then
    match ← Reader.peek with
    | none => Reader.fail .eof
    | some _ => Reader.fail .malformed
  else
    match ← Reader.peek with
    | some 'e' | some 'E' => Reader.skip 1; Number.exponent (m.fractionPart digits)
    | _ => floated (m.fractionPart digits)

/-- A number of digits alone. -/
def undivided (negative : Bool) (m : Number.Mantissa) : Reader Fault Number :=
  if m.exp ≠ 0 then floated m
  else if !negative then pure (.integer m.digits)
  else if m.digits = 0 ∨ m.digits > 9223372036854775808 then pure .float
  else pure (.integer (-(m.digits : Int)))

theorem exponent_eq (m : Number.Mantissa) : Number.exponent m = (do
    let negative ← Reader.accept '-'
    if !negative then
      let _ ← Reader.accept '+'
      exponentDigits m negative
    else exponentDigits m negative) := rfl

theorem afterWhole_eq (negative : Bool) (ds : List Char) : Number.afterWhole negative ds = (do
    match ← Reader.peek with
    | some '.' => fraction (Number.Mantissa.wholePart ds ⟨0, 0⟩)
    | some 'e' | some 'E' =>
      Reader.skip 1; Number.exponent (Number.Mantissa.wholePart ds ⟨0, 0⟩)
    | _ => undivided negative (Number.Mantissa.wholePart ds ⟨0, 0⟩)) := rfl

/-- Whatever has a point or an exponent is no integer. -/
theorem yields_floated (m : Number.Mantissa) :
    Yields (floated m) fun x => ∀ n, x ≠ .integer n := by
  intro cs x rest h
  rw [floated, Number.finish] at h
  split at h
  · cases h
  · cases h
    exact fun _ => nofun

theorem yields_exponentDigits (m : Number.Mantissa) (negative : Bool) :
    Yields (exponentDigits m negative) fun x => ∀ n, x ≠ .integer n := by
  refine yields_bind fun digits => ?_
  split
  · refine yields_bind fun o => ?_
    split <;> exact yields_fail _ _
  · exact yields_floated _

theorem yields_exponent (m : Number.Mantissa) :
    Yields (Number.exponent m) fun x => ∀ n, x ≠ .integer n := by
  rw [exponent_eq]
  refine yields_bind fun negative => ?_
  split
  · exact yields_bind fun _ => yields_exponentDigits m negative
  · exact yields_exponentDigits m negative

theorem yields_fraction (m : Number.Mantissa) :
    Yields (fraction m) fun x => ∀ n, x ≠ .integer n := by
  refine yields_bind fun _ => yields_bind fun digits => ?_
  split
  · refine yields_bind fun o => ?_
    split <;> exact yields_fail _ _
  · refine yields_bind fun o => ?_
    split
    · exact yields_bind fun _ => yields_exponent _
    · exact yields_bind fun _ => yields_exponent _
    · exact yields_floated _

/-- No point and no exponent comes next. -/
def Undivided (cs : List Char) : Prop := ∀ c ∈ cs.head?, c ≠ '.' ∧ c ≠ 'e' ∧ c ≠ 'E'

theorem afterWhole_undivided {negative : Bool} {ds : List Char} (h : Undivided cs) :
    Number.afterWhole negative ds cs =
      undivided negative (Number.Mantissa.wholePart ds ⟨0, 0⟩) cs := by
  have hpeek : Reader.peek cs = (.ok (cs.head?, cs) : Except Fault _) := rfl
  rw [afterWhole_eq, Reader.bind_of_ok hpeek]
  refine congrFun ?_ cs
  split
  · next heq => exact absurd rfl (h _ heq).1
  · next heq => exact absurd rfl (h _ heq).2.1
  · next heq => exact absurd rfl (h _ heq).2.2
  · rfl

/-- What has a point or an exponent behind its digits is no integer. -/
theorem undivided_of_afterWhole {negative : Bool} {ds : List Char} {n : Int}
    (h : Number.afterWhole negative ds cs = .ok (.integer n, rest)) : Undivided cs := by
  have hdivided : ∀ {r : Reader Fault Number} (cs : List Char),
      Yields r (fun x => ∀ n, x ≠ .integer n) → r cs ≠ .ok (.integer n, rest) :=
    fun cs hr hread => hr cs _ _ hread n rfl
  rintro c hc
  obtain ⟨cs, rfl⟩ := List.head?_eq_some_iff.mp hc
  refine ⟨?_, ?_, ?_⟩
  · rintro rfl
    exact hdivided ('.' :: cs) (yields_fraction _) h
  · rintro rfl
    exact hdivided cs (yields_exponent _) h
  · rintro rfl
    exact hdivided cs (yields_exponent _) h

/-- An integer is read from digits behind which no number goes on. -/
theorem of_afterWhole_integer {negative : Bool} {ds : List Char} {n : Int}
    (h : Number.afterWhole negative ds cs = .ok (.integer n, rest)) :
    cs = rest ∧ Undivided cs ∧ n = signed negative (Nat.ofDigitChars 10 ds 0) ∧
      (negative = true → Nat.ofDigitChars 10 ds 0 ≠ 0) := by
  have hundivided := undivided_of_afterWhole h
  rw [afterWhole_undivided hundivided, undivided] at h
  split at h
  · exact absurd rfl (yields_floated _ _ _ _ h n)
  next hexp =>
  have hdigits := digits_wholePart (Decidable.not_not.mp hexp)
  rw [hdigits] at h
  cases negative with
  | false =>
    cases h
    exact ⟨rfl, hundivided, rfl, nofun⟩
  | true =>
    rw [if_neg nofun] at h
    split at h
    · cases h
    · next hrange =>
      cases h
      exact ⟨rfl, hundivided, rfl, fun _ hzero => hrange (.inl hzero)⟩

/-- Digits behind which no number goes on are read, where they fit. -/
theorem afterWhole_integer {negative : Bool} {ds : List Char} (h : Undivided cs)
    (hfits : Nat.ofDigitChars 10 ds 0 ≤ Text.nat64Max)
    (hnegative : negative = true → 0 < Nat.ofDigitChars 10 ds 0 ∧
      Nat.ofDigitChars 10 ds 0 ≤ 9223372036854775808) :
    Number.afterWhole negative ds cs =
      .ok (.integer (signed negative (Nat.ofDigitChars 10 ds 0)), cs) := by
  rw [afterWhole_undivided h, wholePart_of_le hfits, undivided, if_neg (not_not_intro rfl)]
  cases negative with
  | false => rfl
  | true =>
    obtain ⟨hpos, hle⟩ := hnegative rfl
    rw [if_neg nofun, if_neg (by dsimp only; omega)]
    rfl

/-! ### Digits in front of a point -/

/-- The digits in front of a point, with what goes on behind them. -/
def wholeThen {α : Type} (missing : Fault) (goOn : List Char → Reader Fault α) :
    Reader Fault α := do
  match ← Reader.peek with
  | none => Reader.fail missing
  | some '0' =>
    Reader.skip 1
    match ← Reader.peek with
    | some c => if Text.isDigit c then Reader.fail .malformed else goOn ['0']
    | none => goOn ['0']
  | some c =>
    if Text.isDigit c then
      let whole ← Reader.takeWhile Text.isDigit
      goOn whole
    else Reader.fail .malformed

section

variable {α : Type} {missing : Fault} {goOn : List Char → Reader Fault α}

theorem wholeThen_nonzero {c : Char} (hc : c ≠ '0') (cs : List Char) :
    wholeThen missing goOn (c :: cs) =
      (if Text.isDigit c then Reader.takeWhile Text.isDigit >>= goOn
        else Reader.fail .malformed : Reader Fault α) (c :: cs) := by
  have hpeek : Reader.peek (c :: cs) = (.ok (some c, c :: cs) : Except Fault _) := rfl
  rw [wholeThen, Reader.bind_of_ok hpeek]
  refine congrFun ?_ _
  split
  · next heq => cases heq
  · next heq => exact absurd (Option.some.inj heq) hc
  · next heq =>
    obtain rfl := Option.some.inj heq
    rfl

/-- Digits that make up a number, behind which no digit follows, are all taken. -/
theorem wholeThen_whole {ds : List Char} (hds : WholeText ds)
    (h : ∀ c ∈ cs.head?, Text.isDigit c = false) :
    wholeThen missing goOn (ds ++ cs) = goOn ds cs := by
  obtain ⟨⟨hne, hall⟩, hzero⟩ := hds
  obtain ⟨d, tail, rfl⟩ := List.exists_cons_of_ne_nil hne
  by_cases hd : d = '0'
  · subst hd
    obtain rfl : tail = [] := (List.cons.inj (hzero rfl)).2
    cases cs with
    | nil => rfl
    | cons c cs =>
      have hdigit : ¬ Text.isDigit c = true := by rw [h c rfl]; decide
      show (if Text.isDigit c then Reader.fail .malformed else goOn ['0'] :
        Reader Fault α) (c :: cs) = _
      rw [if_neg hdigit]
  · rw [List.cons_append, wholeThen_nonzero hd, if_pos (hall d List.mem_cons_self)]
    exact Reader.bind_of_ok (takeWhile_append hall h) _

theorem wholeText_zero : WholeText ['0'] :=
  ⟨⟨nofun, fun _ hd => List.mem_singleton.mp hd ▸ rfl⟩, fun _ => rfl⟩

/-- A number without a sign begins with all its digits. -/
theorem of_wholeThen {a : α} (h : wholeThen missing goOn cs = .ok (a, rest)) :
    ∃ ds mid, cs = ds ++ mid ∧ WholeText ds ∧ (∀ c ∈ mid.head?, Text.isDigit c = false) ∧
      goOn ds mid = .ok (a, rest) := by
  have hsplit : ∀ ds mid, cs = ds ++ mid → WholeText ds →
      (∀ c ∈ mid.head?, Text.isDigit c = false) →
      ∃ ds mid, cs = ds ++ mid ∧ WholeText ds ∧ (∀ c ∈ mid.head?, Text.isDigit c = false) ∧
        goOn ds mid = .ok (a, rest) := by
    rintro ds mid rfl hds hmid
    exact ⟨ds, mid, rfl, hds, hmid, (wholeThen_whole hds hmid).symm.trans h⟩
  rcases cs with _ | ⟨c, cs⟩
  · cases h
  by_cases hc : c = '0'
  · subst hc
    rcases cs with _ | ⟨d, cs⟩
    · exact hsplit ['0'] [] rfl wholeText_zero nofun
    by_cases hd : Text.isDigit d = true
    · have hread : (if Text.isDigit d then Reader.fail .malformed else goOn ['0'] :
          Reader Fault α) (d :: cs) = .ok (a, rest) := h
      rw [if_pos hd] at hread
      cases hread
    · exact hsplit ['0'] (d :: cs) rfl wholeText_zero (by simpa using hd)
  by_cases hdigit : Text.isDigit c = true
  · obtain ⟨ds, mid, hcs, hds, hmid⟩ := exists_takeWhile Text.isDigit (c :: cs)
    refine hsplit ds mid hcs ⟨⟨?_, hds⟩, ?_⟩ hmid
    · rintro rfl
      obtain rfl : c :: cs = mid := hcs
      rw [hmid c rfl] at hdigit
      cases hdigit
    · intro hzero
      obtain ⟨tail, rfl⟩ := List.head?_eq_some_iff.mp hzero
      exact absurd (List.cons.inj hcs).1 hc
  · rw [wholeThen_nonzero hc, if_neg hdigit] at h
    cases h

end

theorem reader_of_ne {c : Char} (hc : c ≠ '-') (cs : List Char) :
    Number.reader (c :: cs) = Number.unsigned false (c :: cs) := by
  have haccept : Reader.accept '-' (c :: cs) = (.ok (false, c :: cs) : Except Fault _) := if_neg hc
  exact Reader.bind_of_ok haccept _

/-- An integer is read from its text, behind which no number goes on. -/
theorem of_reader_integer {n : Int} (h : Number.reader cs = .ok (.integer n, rest)) :
    ∃ text, cs = text ++ rest ∧ IntegerText text n ∧ Ends rest := by
  have hends : ∀ {cs : List Char}, (∀ c ∈ cs.head?, Text.isDigit c = false) → Undivided cs →
      Ends cs := fun hdigit hundivided c hc => ⟨hdigit c hc, hundivided c hc⟩
  rcases cs with _ | ⟨c, cs⟩
  · cases h
  by_cases hc : c = '-'
  · subst hc
    have hunsigned : Number.unsigned true cs = .ok (.integer n, rest) := h
    obtain ⟨ds, mid, rfl, hds, hmid, hafter⟩ := of_wholeThen hunsigned
    obtain ⟨rfl, hundivided, rfl, hzero⟩ := of_afterWhole_integer hafter
    refine ⟨'-' :: ds, rfl, .negative hds ?_, hends hmid hundivided⟩
    rintro rfl
    exact hzero rfl rfl
  · rw [reader_of_ne hc] at h
    obtain ⟨ds, mid, hcs, hds, hmid, hafter⟩ := of_wholeThen h
    obtain ⟨rfl, hundivided, rfl, -⟩ := of_afterWhole_integer hafter
    exact ⟨ds, hcs, .natural hds, hends hmid hundivided⟩

/-- Only zero itself has digits of no value. -/
theorem ofDigitChars_pos {ds : List Char} (hds : WholeText ds) (hne : ds ≠ ['0']) :
    0 < Nat.ofDigitChars 10 ds 0 := by
  obtain ⟨⟨hnil, hall⟩, hzero⟩ := hds
  obtain ⟨d, tail, rfl⟩ := List.exists_cons_of_ne_nil hnil
  have hd : d ≠ '0' := by
    rintro rfl
    exact hne (hzero rfl)
  have hdigit := hall d List.mem_cons_self
  rw [Text.isDigit, Bool.and_eq_true, decide_eq_true_iff] at hdigit
  have hle : '0'.toNat ≤ d.toNat := UInt32.le_iff_toNat_le.mp hdigit.1
  have hvalue : '0'.toNat ≠ d.toNat := fun heq => hd (Char.toNat_inj.mp heq).symm
  have hrest := le_ofDigitChars tail (10 * 0 + (d.toNat - '0'.toNat))
  rw [Nat.ofDigitChars_cons]
  omega

theorem reader_integer {text : List Char} {n : Int} (htext : IntegerText text n)
    (hlow : Text.int64Min ≤ n) (hhigh : n ≤ Text.int64Max) (hrest : Ends rest) :
    Number.reader (text ++ rest) = .ok (.integer n, rest) := by
  have hdigit : ∀ c ∈ rest.head?, Text.isDigit c = false := fun c hc => (hrest c hc).1
  have hundivided : Undivided rest := fun c hc => (hrest c hc).2
  rw [Text.int64Min] at hlow
  rw [Text.int64Max] at hhigh
  cases htext with
  | @natural ds hds =>
    obtain ⟨d, tail, rfl⟩ := List.exists_cons_of_ne_nil hds.1.1
    have hminus : d ≠ '-' := by
      rintro rfl
      cases hds.1.2 '-' List.mem_cons_self
    rw [List.cons_append, reader_of_ne hminus]
    exact (wholeThen_whole hds hdigit).trans
      (afterWhole_integer hundivided (by rw [Text.nat64Max]; omega) fun h =>
        absurd h Bool.false_ne_true)
  | @negative ds hds hne =>
    have hpos := ofDigitChars_pos hds hne
    have hread : Number.unsigned true (ds ++ rest) = _ := (wholeThen_whole hds hdigit).trans
      (afterWhole_integer hundivided (by rw [Text.nat64Max]; omega) fun _ => ⟨hpos, by omega⟩)
    exact hread

/-- A number is taken for an integer by its first character. -/
theorem starts_of_number {c : Char} (hc : c = '-' ∨ Text.isDigit c = true) (tail : List Char) :
    Starts (c :: tail) := by
  refine ⟨c, tail, rfl, isSpace_of_number hc, ?_, ?_⟩
  · rintro rfl
    revert hc
    decide
  · rintro rfl
    revert hc
    decide

theorem IntegerText.first {text : List Char} {n : Int} (h : IntegerText text n) :
    ∃ c tail, text = c :: tail ∧ (c = '-' ∨ Text.isDigit c = true) := by
  cases h with
  | natural hds =>
    obtain ⟨d, tail, rfl⟩ := List.exists_cons_of_ne_nil hds.1.1
    exact ⟨d, tail, rfl, .inr (hds.1.2 d List.mem_cons_self)⟩
  | negative hds hne => exact ⟨'-', _, rfl, .inl rfl⟩

/-- The reader of integers of 64 bits reads exactly these. -/
theorem integer_recognizes : Recognizes (integer Text.int64Min Text.int64Max)
    fun text n => IntegerText text n ∧ Text.int64Min ≤ n ∧ n ≤ Text.int64Max where
  sound := by
    intro cs n rest h
    have hinteger : ∃ spaces mid, cs = spaces ++ mid ∧ Spaces spaces ∧
        ∃ text, mid = text ++ rest ∧ IntegerText text n ∧ Text.int64Min ≤ n ∧
          n ≤ Text.int64Max := by
      apply of_token h
      intro o
      split
      · split
        · intro cs n rest h _
          obtain ⟨x, mid, hnumber, hrange⟩ := Reader.bind_eq_ok_iff.mp h
          cases x with
          | float => cases hrange
          | integer m =>
            dsimp only at hrange
            split at hrange
            · next hm =>
              cases hrange
              obtain ⟨text, rfl, htext, -⟩ := of_reader_integer hnumber
              exact ⟨text, rfl, htext, hm⟩
            · cases hrange
        · exact takes_wrongKind _
      · exact takes_wrongKind _
    obtain ⟨spaces, mid, rfl, hspaces, text, rfl, htext⟩ := hinteger
    exact ⟨spaces, text, rfl, hspaces, htext⟩
  complete := by
    rintro spaces text n rest hspaces ⟨htext, hlow, hhigh⟩ hrest
    obtain ⟨c, tail, rfl, hc⟩ := htext.first
    have htoken : token (spaces ++ (c :: tail ++ rest)) = .ok (some c, c :: tail ++ rest) :=
      token_of_spaces spaces hspaces (isSpace_of_number hc)
    rw [integer, Reader.bind_of_ok htoken]
    refine (congrFun (if_pos hc) _).trans ?_
    rw [Reader.bind_of_ok (reader_integer htext hlow hhigh hrest)]
    exact congrFun (if_pos ⟨hlow, hhigh⟩) _
  starts := by
    rintro text n ⟨htext, -⟩
    obtain ⟨c, tail, rfl, hc⟩ := htext.first
    exact starts_of_number hc tail

/-! ## Numbers that nobody asks for -/

/-- Digits, at least one, with what goes on behind them. -/
def skipDigits (goOn : Reader Fault Unit) : Reader Fault Unit := do
  let digits ← Reader.takeWhile Text.isDigit
  if digits.isEmpty then Reader.fail .malformed else goOn

/-- An exponent, if there is one. -/
def skipScale : Reader Fault Unit := do
  match ← Reader.peek with
  | some 'e' | some 'E' => Reader.skip 1; Number.skipExponent
  | _ => pure ()

/-- What stands behind the digits in front of a point. -/
def skipFraction : Reader Fault Unit := do
  match ← Reader.peek with
  | some '.' => Reader.skip 1; skipDigits skipScale
  | some 'e' | some 'E' => Reader.skip 1; Number.skipExponent
  | _ => pure ()

theorem skipExponent_eq : Number.skipExponent = (do
    let negative ← Reader.accept '-'
    if !negative then
      let _ ← Reader.accept '+'
      skipDigits (pure ())
    else skipDigits (pure ())) := rfl

theorem skipper_eq : Number.skipper = (do
    let _ ← Reader.accept '-'
    wholeThen .malformed fun _ => skipFraction) := by
  unfold Number.skipper
  refine congrArg (Reader.accept '-' >>= ·) (funext fun _ => funext fun cs => ?_)
  rcases cs with _ | ⟨c, cs⟩
  · rfl
  by_cases hc : c = '0'
  · subst hc
    rcases cs with _ | ⟨d, cs⟩
    · rfl
    by_cases hd : Text.isDigit d = true
    · exact (congrFun (if_pos hd) _).trans (congrFun (if_pos hd) (d :: cs)).symm
    · exact (congrFun (if_neg hd) _).trans (congrFun (if_neg hd) (d :: cs)).symm
  · have hpeek : Reader.peek (c :: cs) = (.ok (some c, c :: cs) : Except Fault _) := rfl
    rw [wholeThen_nonzero hc, Reader.bind_of_ok hpeek]
    refine congrFun ?_ _
    split
    · next heq => exact absurd (Option.some.inj heq) hc
    · next heq =>
      obtain rfl := Option.some.inj heq
      rfl
    · next heq => cases heq

theorem accept_of_ne {c d : Char} (h : d ≠ c) (cs : List Char) :
    Reader.accept c (d :: cs) = (.ok (false, d :: cs) : Except Fault _) := if_neg h

theorem of_skipDigits {goOn : Reader Fault Unit} {u : Unit}
    (h : skipDigits goOn cs = .ok (u, rest)) :
    ∃ ds mid, cs = ds ++ mid ∧ DigitsText ds ∧ goOn mid = .ok (u, rest) := by
  obtain ⟨ds, mid, rfl, hds, hmid⟩ := exists_takeWhile Text.isDigit cs
  have hread : (if ds.isEmpty then Reader.fail .malformed else goOn : Reader Fault Unit) mid =
      .ok (u, rest) := (Reader.bind_of_ok (takeWhile_append hds hmid) _).symm.trans h
  cases ds with
  | nil => cases hread
  | cons d ds => exact ⟨d :: ds, mid, rfl, ⟨nofun, hds⟩, hread⟩

theorem skipDigits_digits {ds : List Char} (hds : DigitsText ds)
    (h : ∀ c ∈ cs.head?, Text.isDigit c = false) (goOn : Reader Fault Unit) :
    skipDigits goOn (ds ++ cs) = goOn cs := by
  obtain ⟨hne, hall⟩ := hds
  refine (Reader.bind_of_ok (takeWhile_append hall h) _).trans ?_
  obtain ⟨d, tail, rfl⟩ := List.exists_cons_of_ne_nil hne
  rfl

/-- An exponent is passed over to its last digit. -/
theorem of_skipExponent {u : Unit} (h : Number.skipExponent cs = .ok (u, rest)) :
    ∃ sign ds, cs = sign ++ (ds ++ rest) ∧ (sign = [] ∨ sign = ['+'] ∨ sign = ['-']) ∧
      DigitsText ds := by
  have hdigits : ∀ {cs : List Char}, skipDigits (pure ()) cs = .ok (u, rest) →
      ∃ ds, cs = ds ++ rest ∧ DigitsText ds := by
    intro cs h
    obtain ⟨ds, mid, rfl, hds, hpure⟩ := of_skipDigits h
    cases hpure
    exact ⟨ds, rfl, hds⟩
  rw [skipExponent_eq] at h
  rcases cs with _ | ⟨c, cs⟩
  · cases h
  by_cases hminus : c = '-'
  · subst hminus
    obtain ⟨ds, rfl, hds⟩ := hdigits (h : skipDigits (pure ()) cs = _)
    exact ⟨['-'], ds, rfl, .inr (.inr rfl), hds⟩
  rw [Reader.bind_of_ok (accept_of_ne hminus cs)] at h
  by_cases hplus : c = '+'
  · subst hplus
    obtain ⟨ds, rfl, hds⟩ := hdigits (h : skipDigits (pure ()) cs = _)
    exact ⟨['+'], ds, rfl, .inr (.inl rfl), hds⟩
  · have hskip := (Reader.bind_of_ok (accept_of_ne hplus cs) _).symm.trans h
    obtain ⟨ds, hcs, hds⟩ := hdigits hskip
    exact ⟨[], ds, hcs, .inl rfl, hds⟩

theorem skipExponent_exponent {sign ds : List Char}
    (hsign : sign = [] ∨ sign = ['+'] ∨ sign = ['-']) (hds : DigitsText ds) (hrest : Ends rest) :
    Number.skipExponent (sign ++ (ds ++ rest)) = .ok ((), rest) := by
  have hdigits : skipDigits (pure ()) (ds ++ rest) = .ok ((), rest) :=
    skipDigits_digits hds (fun c hc => (hrest c hc).1) _
  rw [skipExponent_eq]
  rcases hsign with rfl | rfl | rfl
  · obtain ⟨d, tail, rfl⟩ := List.exists_cons_of_ne_nil hds.1
    have hdigit := hds.2 d List.mem_cons_self
    have hminus : d ≠ '-' := by
      rintro rfl
      cases hdigit
    have hplus : d ≠ '+' := by
      rintro rfl
      cases hdigit
    refine (Reader.bind_of_ok (accept_of_ne hminus _) _).trans ?_
    exact (Reader.bind_of_ok (accept_of_ne hplus _) _).trans hdigits
  · exact hdigits
  · exact hdigits

theorem of_skipScale {u : Unit} (h : skipScale cs = .ok (u, rest)) :
    ∃ text, cs = text ++ rest ∧ ExponentText text := by
  have hscale : ∀ o, Takes (match o with
      | some 'e' | some 'E' => do Reader.skip 1; Number.skipExponent
      | _ => pure ())
      fun cs _ rest => cs.head? = o → ∃ text, cs = text ++ rest ∧ ExponentText text := by
    intro o
    split
    · intro cs u rest h hhead
      obtain ⟨cs, rfl⟩ := List.head?_eq_some_iff.mp hhead
      obtain ⟨sign, ds, rfl, hsign, hds⟩ := of_skipExponent h
      exact ⟨_, by simp, .digits (.inl rfl) hsign hds⟩
    · intro cs u rest h hhead
      obtain ⟨cs, rfl⟩ := List.head?_eq_some_iff.mp hhead
      obtain ⟨sign, ds, rfl, hsign, hds⟩ := of_skipExponent h
      exact ⟨_, by simp, .digits (.inr rfl) hsign hds⟩
    · intro cs u rest h _
      cases h
      exact ⟨[], rfl, .none⟩
  exact hscale cs.head? cs u rest h rfl

theorem skipScale_of_ends (hrest : Ends rest) : skipScale rest = .ok ((), rest) := by
  have hkind : (match rest.head? with
      | some 'e' | some 'E' => do Reader.skip 1; Number.skipExponent
      | _ => pure () : Reader Fault Unit) = pure () := by
    split
    · next heq => exact absurd rfl (hrest _ heq).2.2.1
    · next heq => exact absurd rfl (hrest _ heq).2.2.2
    · rfl
  exact congrFun hkind rest

theorem skipScale_exponent {text : List Char} (htext : ExponentText text) (hrest : Ends rest) :
    skipScale (text ++ rest) = .ok ((), rest) := by
  cases htext with
  | none => exact skipScale_of_ends hrest
  | digits he hsign hds =>
    rw [List.cons_append, List.append_assoc]
    rcases he with rfl | rfl
    · exact skipExponent_exponent hsign hds hrest
    · exact skipExponent_exponent hsign hds hrest

/-- Without a point there is an exponent at most. -/
theorem skipFraction_of_ne (h : cs.head? ≠ some '.') : skipFraction cs = skipScale cs := by
  have hkind : (match cs.head? with
      | some '.' => do Reader.skip 1; skipDigits skipScale
      | some 'e' | some 'E' => do Reader.skip 1; Number.skipExponent
      | _ => pure () : Reader Fault Unit) = (match cs.head? with
      | some 'e' | some 'E' => do Reader.skip 1; Number.skipExponent
      | _ => pure ()) := by
    split
    · next heq => exact absurd heq h
    · next heq => rw [heq]; rfl
    · next heq => rw [heq]; rfl
    · next hlower hupper =>
      split
      · next heq => exact absurd heq hlower
      · next heq => exact absurd heq hupper
      · rfl
  exact congrFun hkind cs

/-- What stands behind the digits in front of a point is passed over to its end. -/
theorem of_skipFraction {u : Unit} (h : skipFraction cs = .ok (u, rest)) :
    ∃ fraction exponent, cs = fraction ++ (exponent ++ rest) ∧ FractionText fraction ∧
      ExponentText exponent := by
  by_cases hpoint : cs.head? = some '.'
  · obtain ⟨cs, rfl⟩ := List.head?_eq_some_iff.mp hpoint
    obtain ⟨ds, mid, rfl, hds, hscale⟩ := of_skipDigits (h : skipDigits skipScale cs = _)
    obtain ⟨exponent, rfl, hexponent⟩ := of_skipScale hscale
    exact ⟨'.' :: ds, exponent, rfl, .digits hds, hexponent⟩
  · rw [skipFraction_of_ne hpoint] at h
    obtain ⟨exponent, rfl, hexponent⟩ := of_skipScale h
    exact ⟨[], exponent, rfl, .none, hexponent⟩

/-- No exponent begins with a digit or a point. -/
theorem head_exponent {text : List Char} (htext : ExponentText text) (hrest : Ends rest) :
    ∀ c ∈ (text ++ rest).head?, Text.isDigit c = false ∧ c ≠ '.' := by
  cases htext with
  | none => exact fun c hc => ⟨(hrest c hc).1, (hrest c hc).2.1⟩
  | digits he hsign hds =>
    rintro c hc
    obtain rfl := Option.some.inj hc
    rcases he with rfl | rfl <;> decide

theorem skipFraction_fraction {fraction exponent : List Char} (hfraction : FractionText fraction)
    (hexponent : ExponentText exponent) (hrest : Ends rest) :
    skipFraction (fraction ++ (exponent ++ rest)) = .ok ((), rest) := by
  have hhead := head_exponent hexponent hrest
  cases hfraction with
  | none =>
    have hpoint : (exponent ++ rest).head? ≠ some '.' := fun h => (hhead _ h).2 rfl
    exact (skipFraction_of_ne hpoint).trans (skipScale_exponent hexponent hrest)
  | digits hds =>
    exact (skipDigits_digits hds (fun c hc => (hhead c hc).1) skipScale).trans
      (skipScale_exponent hexponent hrest)

/-- No fraction begins with a digit. -/
theorem head_fraction {fraction exponent : List Char} (hfraction : FractionText fraction)
    (hexponent : ExponentText exponent) (hrest : Ends rest) :
    ∀ c ∈ (fraction ++ (exponent ++ rest)).head?, Text.isDigit c = false := by
  cases hfraction with
  | none => exact fun c hc => (head_exponent hexponent hrest c hc).1
  | digits hds =>
    rintro c hc
    obtain rfl := Option.some.inj hc
    rfl

/-- What is passed over as a number is one. -/
theorem of_skipper {u : Unit} (h : Number.skipper cs = .ok (u, rest)) :
    ∃ text, cs = text ++ rest ∧ NumberText text := by
  have hunsigned : ∀ cs : List Char,
      wholeThen .malformed (fun _ => skipFraction) cs = .ok (u, rest) →
      ∃ whole fraction exponent, cs = whole ++ (fraction ++ (exponent ++ rest)) ∧
        WholeText whole ∧ FractionText fraction ∧ ExponentText exponent := by
    intro cs h
    obtain ⟨whole, mid, rfl, hwhole, -, hrest⟩ := of_wholeThen h
    obtain ⟨fraction, exponent, rfl, hfraction, hexponent⟩ := of_skipFraction hrest
    exact ⟨whole, fraction, exponent, rfl, hwhole, hfraction, hexponent⟩
  rw [skipper_eq] at h
  rcases cs with _ | ⟨c, cs⟩
  · cases h
  by_cases hminus : c = '-'
  · subst hminus
    obtain ⟨whole, fraction, exponent, rfl, hwhole, hfraction, hexponent⟩ := hunsigned cs h
    exact ⟨_, by simp, .parts (.inr rfl) hwhole hfraction hexponent⟩
  · rw [Reader.bind_of_ok (accept_of_ne hminus cs)] at h
    obtain ⟨whole, fraction, exponent, hcs, hwhole, hfraction, hexponent⟩ := hunsigned _ h
    exact ⟨_, by simpa using hcs, .parts (.inl rfl) hwhole hfraction hexponent⟩

/-- A number begins with its sign or with a digit. -/
theorem NumberText.first {text : List Char} (h : NumberText text) :
    ∃ c tail, text = c :: tail ∧ (c = '-' ∨ Text.isDigit c = true) := by
  cases h with
  | parts hsign hwhole hfraction hexponent =>
    rcases hsign with rfl | rfl
    · obtain ⟨d, tail, rfl⟩ := List.exists_cons_of_ne_nil hwhole.1.1
      exact ⟨d, _, rfl, .inr (hwhole.1.2 d List.mem_cons_self)⟩
    · exact ⟨'-', _, rfl, .inl rfl⟩

/-- A number is passed over where no number goes on. -/
theorem skipper_number {text : List Char} (htext : NumberText text) (hrest : Ends rest) :
    Number.skipper (text ++ rest) = .ok ((), rest) := by
  cases htext with
  | @parts sign whole fraction exponent hsign hwhole hfraction hexponent =>
    have hunsigned : wholeThen .malformed (fun _ => skipFraction)
        (whole ++ (fraction ++ (exponent ++ rest))) = .ok ((), rest) :=
      (wholeThen_whole hwhole (head_fraction hfraction hexponent hrest)).trans
        (skipFraction_fraction hfraction hexponent hrest)
    rw [skipper_eq, List.append_assoc, List.append_assoc, List.append_assoc]
    rcases hsign with rfl | rfl
    · obtain ⟨d, tail, rfl⟩ := List.exists_cons_of_ne_nil hwhole.1.1
      have hminus : d ≠ '-' := by
        rintro rfl
        cases hwhole.1.2 '-' List.mem_cons_self
      exact (Reader.bind_of_ok (accept_of_ne hminus _) _).trans hunsigned
    · exact hunsigned

end Primacy.Json
