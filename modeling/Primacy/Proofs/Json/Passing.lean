/-
  Primacy.Proofs.Json.Passing

  The reader that passes over a value accepts exactly the texts of values, of any kind and any
  depth.
-/
import Primacy.Proofs.Json.Numbers

namespace Primacy.Json

open Text (Reader)

variable {cs rest : List Char}

/-! ## Words and names -/

theorem letters_eq_ok_iff {word : List Char} {u : Unit} :
    letters word cs = .ok (u, rest) ↔ cs = word ++ rest := by
  induction word generalizing cs with
  | nil =>
    show (pure () : Reader Fault Unit) cs = _ ↔ _
    rw [Reader.pure_eq_ok_iff, List.nil_append, eq_comm (a := rest)]
    exact and_iff_right rfl
  | cons c word ih =>
    cases cs with
    | nil => exact iff_of_false nofun nofun
    | cons d cs =>
      show (if d = c then letters word else Reader.fail .malformed : Reader Fault Unit) cs = _ ↔ _
      by_cases h : d = c
      · rw [if_pos h, ih, h, List.cons_append, List.cons.injEq]
        exact (and_iff_right rfl).symm
      · rw [if_neg h]
        exact iff_of_false nofun fun heq => h (List.cons.inj heq).1

theorem colon_eq_ok_iff {u : Unit} :
    colon cs = .ok (u, rest) ↔ ∃ spaces, cs = spaces ++ ':' :: rest ∧ Spaces spaces := by
  constructor
  · intro h
    have hcolon : ∃ spaces mid, cs = spaces ++ mid ∧ Spaces spaces ∧ mid = ':' :: rest := by
      apply of_token h
      intro o
      split
      · exact takes_fail _ _
      · intro cs u rest h hhead
        obtain ⟨cs, rfl⟩ := List.head?_eq_some_iff.mp hhead
        cases h
        rfl
      · exact takes_fail _ _
    obtain ⟨spaces, mid, rfl, hspaces, rfl⟩ := hcolon
    exact ⟨spaces, rfl, hspaces⟩
  · rintro ⟨spaces, rfl, hspaces⟩
    exact Reader.bind_of_ok (token_of_spaces spaces hspaces rfl) _

/-- A member's name and colon. -/
inductive NameText : List Char → Prop where
  | parts {name spaces : List Char} (hname : PassedString name) (h : Spaces spaces) :
      NameText ('"' :: (name ++ (spaces ++ [':'])))

theorem of_skipName {u : Unit} (h : skipName cs = .ok (u, rest)) :
    ∃ spaces name, cs = spaces ++ (name ++ rest) ∧ Spaces spaces ∧ NameText name := by
  have hname : ∃ spaces mid, cs = spaces ++ mid ∧ Spaces spaces ∧
      ∃ name, mid = name ++ rest ∧ NameText name := by
    apply of_token h
    intro o
    split
    · exact takes_fail _ _
    · intro cs u rest h hhead
      obtain ⟨cs, rfl⟩ := List.head?_eq_some_iff.mp hhead
      have hread : (skipString >>= fun _ => colon) cs = .ok (u, rest) := h
      obtain ⟨_, mid, hskip, hcolon⟩ := Reader.bind_eq_ok_iff.mp hread
      obtain ⟨name, rfl, hname⟩ := skipString_eq_ok_iff.mp hskip
      obtain ⟨spaces, rfl, hspaces⟩ := colon_eq_ok_iff.mp hcolon
      exact ⟨_, by simp, .parts hname hspaces⟩
    · exact takes_fail _ _
  obtain ⟨spaces, mid, rfl, hspaces, name, rfl, hname⟩ := hname
  exact ⟨spaces, name, rfl, hspaces, hname⟩

theorem skipName_name {spaces name : List Char} (hspaces : Spaces spaces) (hname : NameText name) :
    skipName (spaces ++ (name ++ rest)) = .ok ((), rest) := by
  cases hname with
  | @parts name spaces' hname hspaces' =>
    have hskip : skipString (name ++ (spaces' ++ ':' :: rest)) = .ok ((), spaces' ++ ':' :: rest) :=
      skipString_eq_ok_iff.mpr ⟨name, rfl, hname⟩
    have hcolon : colon (spaces' ++ ':' :: rest) = .ok ((), rest) :=
      colon_eq_ok_iff.mpr ⟨spaces', rfl, hspaces'⟩
    rw [List.cons_append, List.append_assoc, List.append_assoc]
    refine (Reader.bind_of_ok (token_of_spaces spaces hspaces rfl) _).trans ?_
    exact (Reader.bind_of_ok hskip _).trans hcolon

/-! ## Items -/

/-- What stands in an item in front of its value. -/
inductive Lead : Frame → List Char → Prop where
  | list : Lead .list []
  | object {name : List Char} (h : NameText name) : Lead .object name

/-- Passes over what stands in an item in front of its value. -/
def skipLead : Frame → Reader Fault Unit
  | .list => pure ()
  | .object => skipName

theorem of_skipLead {frame : Frame} {u : Unit} (h : skipLead frame cs = .ok (u, rest)) :
    ∃ spaces lead, cs = spaces ++ (lead ++ rest) ∧ Spaces spaces ∧ Lead frame lead := by
  cases frame with
  | list =>
    cases h
    exact ⟨[], [], rfl, rfl, .list⟩
  | object =>
    obtain ⟨spaces, name, rfl, hspaces, hname⟩ := of_skipName h
    exact ⟨spaces, name, rfl, hspaces, .object hname⟩

/-- An item is made of its lead and its value; white space at its front is not part of it. -/
theorem Lead.item {frame : Frame} {lead spaces text : List Char} (hlead : Lead frame lead)
    (h : Spaces spaces) (htext : Passed .value text) :
    ∃ spaces' item, lead ++ (spaces ++ text) = spaces' ++ item ∧ Spaces spaces' ∧
      Passed (.item frame) item := by
  cases hlead with
  | list => exact ⟨spaces, text, rfl, h, .element htext⟩
  | object hname =>
    cases hname with
    | parts hname h' => exact ⟨[], _, rfl, rfl, by simpa using .member hname h' h htext⟩

theorem spaces_nil : Spaces [] := rfl

theorem Spaces.append {spaces spaces' : List Char} (h : Spaces spaces) (h' : Spaces spaces') :
    Spaces (spaces ++ spaces') := by
  rw [Spaces, List.all_append, h, h']
  rfl

/-! ## Rounds -/

/-- What a round in front of a value takes: a value that is passed over at once, or what opens a
frame that has an item. -/
inductive ValuePiece (frames : List Frame) : List Char → SkipPoint → Prop where
  | whole {text : List Char} (h : Passed .value text) : ValuePiece frames text (.behind frames)
  | opened {frame : Frame} {spaces lead : List Char} (h : Spaces spaces) (hlead : Lead frame lead) :
      ValuePiece frames (frame.opens :: (spaces ++ lead)) (.value (frame :: frames))

/-- What a round behind a value takes: the bracket that closes the frame, or a comma and what the
next item begins with. -/
inductive TailPiece (frame : Frame) (frames : List Frame) : List Char → SkipPoint → Prop where
  | closed {spaces : List Char} (h : Spaces spaces) :
      TailPiece frame frames (spaces ++ [frame.close]) (.behind frames)
  | more {spaces spaces' lead : List Char} (h : Spaces spaces) (h' : Spaces spaces')
      (hlead : Lead frame lead) :
      TailPiece frame frames (spaces ++ ',' :: (spaces' ++ lead)) (.value (frame :: frames))

/-- Goes on in front of an item's value. -/
theorem skipLead_eq (frame : Frame) (frames : List Frame) :
    (match frame with
      | .list => pure (.inl (.value (frame :: frames)))
      | .object => do skipName; pure (.inl (.value (frame :: frames))) :
      Reader Fault (SkipPoint ⊕ Unit)) = (do
        skipLead frame
        pure (.inl (.value (frame :: frames)))) := by
  cases frame with
  | list => rfl
  | object => rfl

theorem of_skipOpened {frame : Frame} {frames : List Frame} {x : SkipPoint ⊕ Unit}
    (h : skipOpened frame frames cs = .ok (x, rest)) :
    ∃ text p, cs = text ++ rest ∧ ValuePiece frames (frame.opens :: text) p ∧ x = .inl p := by
  have hopened : ∃ spaces mid, cs = spaces ++ mid ∧ Spaces spaces ∧
      ((mid = frame.close :: rest ∧ x = .inl (.behind frames)) ∨
        ∃ spaces lead, mid = spaces ++ (lead ++ rest) ∧ Spaces spaces ∧ Lead frame lead ∧
          x = .inl (.value (frame :: frames))) := by
    apply of_token h
    intro o
    split
    · exact takes_fail _ _
    split
    · next hclose =>
      intro cs x rest h hhead
      obtain ⟨cs, rfl⟩ := List.head?_eq_some_iff.mp hhead
      cases h
      exact .inl ⟨by rw [hclose]; rfl, rfl⟩
    · intro cs x rest h _
      obtain ⟨_, mid, hlead, hpure⟩ :=
        Reader.bind_eq_ok_iff.mp ((congrFun (skipLead_eq frame frames) cs).symm.trans h)
      cases hpure
      obtain ⟨spaces, lead, rfl, hspaces, hlead⟩ := of_skipLead hlead
      exact .inr ⟨spaces, lead, rfl, hspaces, hlead, rfl⟩
  obtain ⟨spaces, mid, rfl, hspaces, hmid⟩ := hopened
  rcases hmid with ⟨rfl, rfl⟩ | ⟨spaces', lead, rfl, hspaces', hlead, rfl⟩
  · exact ⟨spaces ++ [frame.close], _, by simp, .whole (.empty frame hspaces), rfl⟩
  · exact ⟨spaces ++ spaces' ++ lead, _, by simp, .opened (hspaces.append hspaces') hlead, rfl⟩

theorem of_valueRound {frames : List Frame} {x : SkipPoint ⊕ Unit}
    (h : skipRound (.value frames) cs = .ok (x, rest)) :
    ∃ spaces text p, cs = spaces ++ (text ++ rest) ∧ Spaces spaces ∧ ValuePiece frames text p ∧
      x = .inl p := by
  -- the first letter of a word is looked at, and the others are compared
  have hword : ∀ {w : String} {c : Char} {word : List Char},
      (w = "null" ∨ w = "true" ∨ w = "false") → w.toList = c :: word →
      ∀ {cs rest : List Char} {x : SkipPoint ⊕ Unit},
        (do letters word; pure (.inl (.behind frames)) : Reader Fault _) cs = .ok (x, rest) →
        ∃ text p, c :: cs = text ++ rest ∧ ValuePiece frames text p ∧ x = .inl p := by
    intro w c word hw hlist cs rest x h
    obtain ⟨_, mid, hletters, hpure⟩ := Reader.bind_eq_ok_iff.mp h
    cases hpure
    refine ⟨w.toList, _, ?_, .whole (.word hw), rfl⟩
    rw [hlist, letters_eq_ok_iff.mp hletters, List.cons_append]
  have hround : ∃ spaces mid, cs = spaces ++ mid ∧ Spaces spaces ∧
      ∃ text p, mid = text ++ rest ∧ ValuePiece frames text p ∧ x = .inl p := by
    apply of_token h
    intro o
    split
    · exact takes_fail _ _
    · intro cs x rest h hhead
      obtain ⟨cs, rfl⟩ := List.head?_eq_some_iff.mp hhead
      exact hword (.inl rfl) rfl h
    · intro cs x rest h hhead
      obtain ⟨cs, rfl⟩ := List.head?_eq_some_iff.mp hhead
      exact hword (.inr (.inl rfl)) rfl h
    · intro cs x rest h hhead
      obtain ⟨cs, rfl⟩ := List.head?_eq_some_iff.mp hhead
      exact hword (.inr (.inr rfl)) rfl h
    · intro cs x rest h hhead
      obtain ⟨cs, rfl⟩ := List.head?_eq_some_iff.mp hhead
      have hread : (do skipString; pure (.inl (.behind frames)) :
        Reader Fault (SkipPoint ⊕ Unit)) cs = .ok (x, rest) := h
      obtain ⟨_, mid, hskip, hpure⟩ := Reader.bind_eq_ok_iff.mp hread
      cases hpure
      obtain ⟨text, rfl, htext⟩ := skipString_eq_ok_iff.mp hskip
      exact ⟨'"' :: text, _, rfl, .whole (.string htext), rfl⟩
    · intro cs x rest h hhead
      obtain ⟨cs, rfl⟩ := List.head?_eq_some_iff.mp hhead
      have hopened : skipOpened .list frames cs = .ok (x, rest) := h
      obtain ⟨text, p, rfl, hpiece, hx⟩ := of_skipOpened hopened
      exact ⟨_, p, rfl, hpiece, hx⟩
    · intro cs x rest h hhead
      obtain ⟨cs, rfl⟩ := List.head?_eq_some_iff.mp hhead
      have hopened : skipOpened .object frames cs = .ok (x, rest) := h
      obtain ⟨text, p, rfl, hpiece, hx⟩ := of_skipOpened hopened
      exact ⟨_, p, rfl, hpiece, hx⟩
    · split
      · intro cs x rest h _
        obtain ⟨_, mid, hskip, hpure⟩ := Reader.bind_eq_ok_iff.mp h
        cases hpure
        obtain ⟨text, rfl, htext⟩ := of_skipper hskip
        exact ⟨text, _, rfl, .whole (.number htext), rfl⟩
      · exact takes_fail _ _
  obtain ⟨spaces, mid, rfl, hspaces, text, p, rfl, hpiece, hx⟩ := hround
  exact ⟨spaces, text, p, rfl, hspaces, hpiece, hx⟩

theorem of_tailRound {frame : Frame} {frames : List Frame} {x : SkipPoint ⊕ Unit}
    (h : skipRound (.behind (frame :: frames)) cs = .ok (x, rest)) :
    ∃ text p, cs = text ++ rest ∧ TailPiece frame frames text p ∧ x = .inl p := by
  have hround : ∃ spaces mid, cs = spaces ++ mid ∧ Spaces spaces ∧
      ((mid = frame.close :: rest ∧ x = .inl (.behind frames)) ∨
        ∃ spaces lead, mid = ',' :: (spaces ++ (lead ++ rest)) ∧ Spaces spaces ∧ Lead frame lead ∧
          x = .inl (.value (frame :: frames))) := by
    apply of_token h
    intro o
    split
    · exact takes_fail _ _
    split
    · next hclose =>
      intro cs x rest h hhead
      obtain ⟨cs, rfl⟩ := List.head?_eq_some_iff.mp hhead
      cases h
      exact .inl ⟨by rw [hclose]; rfl, rfl⟩
    split
    · next hcomma =>
      intro cs x rest h hhead
      obtain ⟨cs, rfl⟩ := List.head?_eq_some_iff.mp hhead
      obtain ⟨_, mid, hlead, hpure⟩ :=
        Reader.bind_eq_ok_iff.mp ((congrFun (skipLead_eq frame frames) cs).symm.trans h)
      cases hpure
      obtain ⟨spaces, lead, rfl, hspaces, hlead⟩ := of_skipLead hlead
      exact .inr ⟨spaces, lead, by rw [hcomma], hspaces, hlead, rfl⟩
    · exact takes_fail _ _
  obtain ⟨spaces, mid, rfl, hspaces, hmid⟩ := hround
  rcases hmid with ⟨rfl, rfl⟩ | ⟨spaces', lead, rfl, hspaces', hlead, rfl⟩
  · exact ⟨spaces ++ [frame.close], _, by simp, .closed hspaces, rfl⟩
  · exact ⟨_, _, by simp, .more hspaces hspaces' hlead, rfl⟩

/-! ## Values are all that is passed over -/

/-- What is behind a value inside the frames given. -/
inductive Tails : List Frame → List Char → Prop where
  | nil : Tails [] []
  | cons {frame : Frame} {frames : List Frame} {tail tails : List Char}
      (h : Passed (.tail frame) tail) (h' : Tails frames tails) :
      Tails (frame :: frames) (tail ++ tails)

/-- What there is to pass over from a point on. -/
def PointText : SkipPoint → List Char → Prop
  | .value frames, cs => ∃ spaces text tails, cs = spaces ++ (text ++ tails) ∧ Spaces spaces ∧
      Passed .value text ∧ Tails frames tails
  | .behind frames, cs => Tails frames cs

/-- Behind its lead an item goes on with its value and the tail of its frame. -/
theorem PointText.item {frame : Frame} {frames : List Frame} {text lead : List Char}
    (h : PointText (.value (frame :: frames)) text) (hlead : Lead frame lead) :
    ∃ spaces item tail tails, lead ++ text = spaces ++ (item ++ (tail ++ tails)) ∧ Spaces spaces ∧
      Passed (.item frame) item ∧ Passed (.tail frame) tail ∧ Tails frames tails := by
  obtain ⟨spaces, value, _, rfl, hspaces, hvalue, htails⟩ := h
  obtain ⟨spaces', item, heq, hspaces', hitem⟩ := hlead.item hspaces hvalue
  cases htails with
  | @cons _ _ tail tails htail htails =>
    refine ⟨spaces', item, tail, tails, ?_, hspaces', hitem, htail, htails⟩
    rw [← List.append_assoc spaces, ← List.append_assoc lead, heq, List.append_assoc]

theorem ValuePiece.point {frames : List Frame} {piece text : List Char} {p : SkipPoint}
    (hpiece : ValuePiece frames piece p) (h : PointText p text) :
    ∃ value tails, piece ++ text = value ++ tails ∧ Passed .value value ∧ Tails frames tails := by
  cases hpiece with
  | whole hvalue => exact ⟨piece, text, rfl, hvalue, h⟩
  | @opened frame spaces lead hspaces hlead =>
    obtain ⟨spaces', item, tail, tails, heq, hspaces', hitem, htail, htails⟩ := h.item hlead
    refine ⟨frame.opens :: (spaces ++ spaces' ++ (item ++ tail)), tails, ?_,
      .filled (hspaces.append hspaces') hitem htail, htails⟩
    rw [List.cons_append, List.append_assoc spaces lead, heq]
    simp

theorem TailPiece.point {frame : Frame} {frames : List Frame} {piece text : List Char}
    {p : SkipPoint} (hpiece : TailPiece frame frames piece p) (h : PointText p text) :
    Tails (frame :: frames) (piece ++ text) := by
  cases hpiece with
  | closed hspaces => exact .cons (.close hspaces) h
  | @more spaces spaces' lead hspaces hspaces' hlead =>
    obtain ⟨spaces'', item, tail, tails, heq, hspaces'', hitem, htail, htails⟩ := h.item hlead
    have hmore := Passed.more hspaces (hspaces'.append hspaces'') hitem htail
    rw [List.append_assoc, List.cons_append, List.append_assoc spaces' lead, heq]
    simpa using Tails.cons hmore htails

theorem of_skipRounds {p : SkipPoint} {u : Unit}
    (h : Reader.iterate .malformed skipRound p cs = .ok (u, rest)) :
    ∃ text, cs = text ++ rest ∧ PointText p text := by
  -- on the rounds
  fun_induction Reader.iterate .malformed skipRound p cs with
  | case1 p cs e hround => cases h
  | case2 p cs a rest' hround =>
    cases h
    rcases p with frames | _ | ⟨frame, frames⟩
    · obtain ⟨_, _, _, -, -, -, hx⟩ := of_valueRound hround
      cases hx
    · cases hround
      exact ⟨[], rfl, .nil⟩
    · obtain ⟨_, _, -, -, hx⟩ := of_tailRound hround
      cases hx
  | case3 p cs p' rest' hround hlt ih =>
    obtain ⟨text, rfl, htext⟩ := ih h
    rcases p with frames | _ | ⟨frame, frames⟩
    · obtain ⟨spaces, piece, _, rfl, hspaces, hpiece, hx⟩ := of_valueRound hround
      cases hx
      obtain ⟨value, tails, heq, hvalue, htails⟩ := hpiece.point htext
      refine ⟨spaces ++ (piece ++ text), by simp, spaces, value, tails, ?_, hspaces, hvalue, htails⟩
      rw [heq]
    · cases hround
    · obtain ⟨piece, _, rfl, hpiece, hx⟩ := of_tailRound hround
      cases hx
      exact ⟨piece ++ text, by simp, hpiece.point htext⟩
  | case4 p cs p' rest' hround hlt => cases h

/-! ## Values are passed over -/

theorem Passed.starts {part : Part} {text : List Char} (h : Passed part text)
    (hpart : ∀ frame, part ≠ .tail frame) : Starts text := by
  induction h with
  | word h =>
    rcases h with rfl | rfl | rfl
    · exact ⟨'n', _, rfl, by decide, by decide, by decide⟩
    · exact ⟨'t', _, rfl, by decide, by decide, by decide⟩
    · exact ⟨'f', _, rfl, by decide, by decide, by decide⟩
  | number h =>
    obtain ⟨c, tail, rfl, hc⟩ := h.first
    exact starts_of_number hc tail
  | string h => exact ⟨'"', _, rfl, by decide, by decide, by decide⟩
  | empty frame h => cases frame <;> exact ⟨_, _, rfl, by decide, by decide, by decide⟩
  | @filled frame _ _ _ h hitem htail ihitem ihtail =>
    cases frame <;> exact ⟨_, _, rfl, by decide, by decide, by decide⟩
  | element h ih => exact ih nofun
  | member hname h h' hvalue ih => exact ⟨'"', _, rfl, by decide, by decide, by decide⟩
  | close h => exact absurd rfl (hpart _)
  | more h h' hitem htail ihitem ihtail => exact absurd rfl (hpart _)

theorem ends_cons {c : Char} (h : Text.isDigit c = false ∧ c ≠ '.' ∧ c ≠ 'e' ∧ c ≠ 'E')
    (cs : List Char) : Ends (c :: cs) := by
  intro d hd
  obtain rfl := Option.some.inj hd
  exact h

theorem ends_spaces {spaces : List Char} (h : Spaces spaces) (hrest : Ends rest) :
    Ends (spaces ++ rest) := by
  cases spaces with
  | nil => exact hrest
  | cons c spaces =>
    have hspace := isSpace_of_mem h List.mem_cons_self
    simp only [isSpace, Bool.or_eq_true, beq_iff_eq] at hspace
    rcases hspace with ((rfl | rfl) | rfl) | rfl <;> exact ends_cons (by decide) _

/-- No number goes on behind an item. -/
theorem ends_tail {frame : Frame} {tail : List Char} (h : Passed (.tail frame) tail)
    (rest : List Char) : Ends (tail ++ rest) := by
  cases h with
  | close hspaces =>
    rw [List.append_assoc]
    exact ends_spaces hspaces (ends_cons (by cases frame <;> decide) _)
  | more hspaces hspaces' hitem htail =>
    rw [List.append_assoc]
    exact ends_spaces hspaces (ends_cons (by decide) _)

/-- Passing over a value from a point on. -/
def skipFrom (p : SkipPoint) : Reader Fault Unit := Reader.iterate .malformed skipRound p

theorem skipFrom_of_round {p p' : SkipPoint} (h : skipRound p cs = .ok (.inl p', rest))
    (hlt : rest.length < cs.length) : skipFrom p cs = skipFrom p' rest :=
  Reader.iterate_of_inl h hlt

/-- What passing over does with the text of a part. -/
def PassedOver : Part → List Char → Prop
  | .value, text => ∀ frames spaces rest, Spaces spaces → Ends rest →
      skipFrom (.value frames) (spaces ++ (text ++ rest)) = skipFrom (.behind frames) rest
  | .item frame, item => ∀ frames spaces rest, Spaces spaces → Ends rest →
      ∃ mid, mid.length ≤ (spaces ++ (item ++ rest)).length ∧
        skipLead frame (spaces ++ (item ++ rest)) = .ok ((), mid) ∧
        skipFrom (.value (frame :: frames)) mid = skipFrom (.behind (frame :: frames)) rest
  | .tail frame, tail => ∀ frames rest,
      skipFrom (.behind (frame :: frames)) (tail ++ rest) = skipFrom (.behind frames) rest

/-- A value that is passed over at once. -/
theorem passedOver_of_round {text : List Char} (hne : text ≠ [])
    (h : ∀ frames spaces rest, Spaces spaces → Ends rest →
      skipRound (.value frames) (spaces ++ (text ++ rest)) = .ok (.inl (.behind frames), rest)) :
    PassedOver .value text := by
  intro frames spaces rest hspaces hrest
  refine skipFrom_of_round (h frames spaces rest hspaces hrest) ?_
  have hpos := List.length_pos_iff.mpr hne
  simp only [List.length_append]
  omega

theorem passedOver_word {w : String} (h : w = "null" ∨ w = "true" ∨ w = "false") :
    PassedOver .value w.toList := by
  have hword : ∀ word rest frames, (do letters word; pure (.inl (.behind frames)) :
      Reader Fault (SkipPoint ⊕ Unit)) (word ++ rest) = .ok (.inl (.behind frames), rest) := by
    intro word rest frames
    have hletters : letters word (word ++ rest) = .ok ((), rest) := letters_eq_ok_iff.mpr rfl
    exact Reader.bind_of_ok hletters _
  rcases h with rfl | rfl | rfl
  · refine passedOver_of_round (by decide) fun frames spaces rest hspaces _ => ?_
    exact (Reader.bind_of_ok (token_of_spaces spaces hspaces rfl) _).trans (hword "ull".toList _ _)
  · refine passedOver_of_round (by decide) fun frames spaces rest hspaces _ => ?_
    exact (Reader.bind_of_ok (token_of_spaces spaces hspaces rfl) _).trans (hword "rue".toList _ _)
  · refine passedOver_of_round (by decide) fun frames spaces rest hspaces _ => ?_
    exact (Reader.bind_of_ok (token_of_spaces spaces hspaces rfl) _).trans (hword "alse".toList _ _)

theorem passedOver_number {text : List Char} (htext : NumberText text) :
    PassedOver .value text := by
  obtain ⟨c, tail, rfl, hc⟩ := htext.first
  refine passedOver_of_round nofun fun frames spaces rest hspaces hrest => ?_
  have htoken : token (spaces ++ (c :: tail ++ rest)) = .ok (some c, c :: tail ++ rest) :=
    token_of_spaces spaces hspaces (isSpace_of_number hc)
  rw [skipRound, Reader.bind_of_ok htoken]
  refine (congrFun (g := (do Number.skipper; pure (.inl (.behind frames)) :
    Reader Fault (SkipPoint ⊕ Unit))) ?_ _).trans
    (Reader.bind_of_ok (skipper_number htext hrest) _)
  split
  case h_1 heq => cases heq
  case h_8 heq =>
    obtain rfl := Option.some.inj heq
    exact if_pos hc
  all_goals
    rename_i heq
    obtain rfl := Option.some.inj heq
    exact absurd hc (by decide)

theorem passedOver_string {text : List Char} (htext : PassedString text) :
    PassedOver .value ('"' :: text) := by
  refine passedOver_of_round nofun fun frames spaces rest hspaces _ => ?_
  refine (Reader.bind_of_ok (token_of_spaces spaces hspaces rfl) _).trans ?_
  have hskip : skipString (text ++ rest) = .ok ((), rest) :=
    skipString_eq_ok_iff.mpr ⟨text, rfl, htext⟩
  exact Reader.bind_of_ok hskip _

theorem skipRound_opens (frame : Frame) {frames : List Frame} {spaces : List Char}
    (hspaces : Spaces spaces) (rest : List Char) :
    skipRound (.value frames) (spaces ++ frame.opens :: rest) = skipOpened frame frames rest := by
  cases frame with
  | list => exact Reader.bind_of_ok (token_of_spaces spaces hspaces rfl) _
  | object => exact Reader.bind_of_ok (token_of_spaces spaces hspaces rfl) _

theorem isSpace_close (frame : Frame) : isSpace frame.close = false := by
  cases frame <;> decide

theorem passedOver_empty (frame : Frame) {spaces : List Char} (h : Spaces spaces) :
    PassedOver .value (frame.opens :: (spaces ++ [frame.close])) := by
  refine passedOver_of_round nofun fun frames spaces' rest hspaces' _ => ?_
  rw [List.cons_append, skipRound_opens frame hspaces', List.append_assoc]
  refine (Reader.bind_of_ok (token_of_spaces spaces h (isSpace_close frame)) _).trans ?_
  exact congrFun (if_pos rfl) _

theorem skipOpened_item {frame : Frame} {frames : List Frame} {spaces : List Char} {c : Char}
    (h : Spaces spaces) (hc : isSpace c = false) (hclose : c ≠ frame.close) {cs mid : List Char}
    (hlead : skipLead frame (c :: cs) = .ok ((), mid)) :
    skipOpened frame frames (spaces ++ c :: cs) = .ok (.inl (.value (frame :: frames)), mid) := by
  refine (Reader.bind_of_ok (token_of_spaces spaces h hc) _).trans ?_
  refine (congrFun (if_neg hclose) _).trans ?_
  refine (congrFun (skipLead_eq frame frames) _).trans ?_
  exact Reader.bind_of_ok hlead _

theorem passedOver_filled {frame : Frame} {spaces item tail : List Char} (h : Spaces spaces)
    (hitem : Passed (.item frame) item) (htail : Passed (.tail frame) tail)
    (hpassItem : PassedOver (.item frame) item) (hpassTail : PassedOver (.tail frame) tail) :
    PassedOver .value (frame.opens :: (spaces ++ (item ++ tail))) := by
  intro frames spaces' rest hspaces' hrest
  obtain ⟨mid, hlength, hlead, hvalue⟩ :=
    hpassItem frames [] (tail ++ rest) rfl (ends_tail htail rest)
  obtain ⟨c, cs, rfl, hc, hbracket, hbrace⟩ := hitem.starts nofun
  have hclose : c ≠ frame.close := by
    cases frame with
    | list => exact hbracket
    | object => exact hbrace
  have hopened : skipOpened frame frames (spaces ++ c :: (cs ++ (tail ++ rest))) = _ :=
    skipOpened_item h hc hclose hlead
  have hround : skipRound (.value frames)
      (spaces' ++ (frame.opens :: (spaces ++ (c :: cs ++ tail)) ++ rest)) =
        .ok (.inl (.value (frame :: frames)), mid) := by
    rw [List.cons_append, skipRound_opens frame hspaces', List.append_assoc, List.append_assoc]
    exact hopened
  refine (skipFrom_of_round hround ?_).trans (hvalue.trans (hpassTail frames rest))
  simp only [List.length_append, List.length_cons, List.length_nil] at hlength ⊢
  omega

theorem passedOver_close {frame : Frame} {spaces : List Char} (h : Spaces spaces) :
    PassedOver (.tail frame) (spaces ++ [frame.close]) := by
  intro frames rest
  rw [List.append_assoc]
  have hround : skipRound (.behind (frame :: frames)) (spaces ++ ([frame.close] ++ rest)) =
      .ok (.inl (.behind frames), rest) := by
    refine (Reader.bind_of_ok (token_of_spaces spaces h (isSpace_close frame)) _).trans ?_
    exact congrFun (if_pos rfl) _
  refine skipFrom_of_round hround ?_
  simp only [List.length_append, List.length_cons]
  omega

theorem passedOver_more {frame : Frame} {spaces spaces' item tail : List Char} (h : Spaces spaces)
    (h' : Spaces spaces') (htail : Passed (.tail frame) tail)
    (hpassItem : PassedOver (.item frame) item) (hpassTail : PassedOver (.tail frame) tail) :
    PassedOver (.tail frame) (spaces ++ ',' :: (spaces' ++ (item ++ tail))) := by
  intro frames rest
  obtain ⟨mid, hlength, hlead, hvalue⟩ :=
    hpassItem frames spaces' (tail ++ rest) h' (ends_tail htail rest)
  have hcomma : ',' ≠ frame.close := by cases frame <;> decide
  have hround : skipRound (.behind (frame :: frames))
      (spaces ++ ',' :: (spaces' ++ (item ++ tail)) ++ rest) =
        .ok (.inl (.value (frame :: frames)), mid) := by
    rw [List.append_assoc, List.cons_append, List.append_assoc, List.append_assoc]
    refine (Reader.bind_of_ok (token_of_spaces spaces h (by decide)) _).trans ?_
    refine (congrFun (if_neg hcomma) _).trans ?_
    refine (congrFun (skipLead_eq frame frames) _).trans ?_
    exact Reader.bind_of_ok hlead _
  refine (skipFrom_of_round hround ?_).trans (hvalue.trans (hpassTail frames rest))
  simp only [List.length_append, List.length_cons] at hlength ⊢
  omega

/-- Every part of a value is passed over. -/
theorem Passed.passedOver {part : Part} {text : List Char} (h : Passed part text) :
    PassedOver part text := by
  induction h with
  | word h => exact passedOver_word h
  | number h => exact passedOver_number h
  | string h => exact passedOver_string h
  | empty frame h => exact passedOver_empty frame h
  | filled h hitem htail ihitem ihtail => exact passedOver_filled h hitem htail ihitem ihtail
  | element h ih =>
    intro frames spaces rest hspaces hrest
    exact ⟨_, Nat.le_refl _, rfl, ih _ spaces rest hspaces hrest⟩
  | @member name spaces spaces' text hname h h' hvalue ih =>
    intro frames spaces'' rest hspaces'' hrest
    refine ⟨spaces' ++ (text ++ rest), ?_, ?_, ih _ spaces' rest h' hrest⟩
    · simp only [List.length_append, List.length_cons]
      omega
    · have hskip : skipName (spaces'' ++ (('"' :: (name ++ (spaces ++ [':']))) ++
          (spaces' ++ (text ++ rest)))) = .ok ((), spaces' ++ (text ++ rest)) :=
        skipName_name hspaces'' (.parts hname h)
      rw [skipLead]
      simpa using hskip
  | close h => exact passedOver_close h
  | more h h' hitem htail ihitem ihtail => exact passedOver_more h h' htail ihitem ihtail

/-- The reader that passes over a value does so with exactly the texts of values. -/
theorem skipValue_recognizes : Recognizes skipValue fun text _ => Passed .value text where
  sound := by
    intro cs u rest h
    obtain ⟨_, rfl, spaces, text, tails, rfl, hspaces, htext, htails⟩ := of_skipRounds h
    cases htails with
    | nil => exact ⟨spaces, text, by simp, hspaces, htext⟩
  complete := by
    intro spaces text u rest hspaces htext hrest
    exact (htext.passedOver [] spaces rest hspaces hrest).trans (Reader.iterate_of_inr rfl)
  starts := fun htext => htext.starts nofun

end Primacy.Json
