/-
  Primacy.Proofs.Json.Records

  The readers of objects and of records accept exactly their texts, if the readers of their values
  do.  An object is read as its members in order, a record as what its fields do to it.
-/
import Primacy.Proofs.Json.Passing

namespace Primacy.Json

open Text (Reader)

variable {cs rest : List Char}

/-! ## Names of members -/

/-- A member's name, behind what stands between it and the member in front of it. -/
def nameToken : Reader Fault (Option String) := do
  match ← token with
  | none => Reader.fail .eof
  | some '"' => Reader.skip 1; return some (← stringBody)
  | some _ => Reader.fail .malformed

theorem of_nameToken {o : Option String} (h : nameToken cs = .ok (o, rest)) :
    ∃ spaces text name, cs = spaces ++ (text ++ rest) ∧ Spaces spaces ∧ QuotedText text name ∧
      o = some name := by
  have hname : ∃ spaces mid, cs = spaces ++ mid ∧ Spaces spaces ∧
      ∃ text name, mid = text ++ rest ∧ QuotedText text name ∧ o = some name := by
    apply of_token h
    intro o
    split
    · exact takes_fail _ _
    · intro cs o rest h hhead
      obtain ⟨cs, rfl⟩ := List.head?_eq_some_iff.mp hhead
      have hread : (do return some (← stringBody) : Reader Fault (Option String)) cs =
        .ok (o, rest) := h
      obtain ⟨name, mid, hbody, hpure⟩ := Reader.bind_eq_ok_iff.mp hread
      cases hpure
      obtain ⟨text, rfl, htext⟩ := stringBody_eq_ok_iff.mp hbody
      exact ⟨'"' :: text, name, rfl, .quotes htext, rfl⟩
    · exact takes_fail _ _
  obtain ⟨spaces, mid, rfl, hspaces, text, name, rfl, hname, ho⟩ := hname
  exact ⟨spaces, text, name, rfl, hspaces, hname, ho⟩

theorem nameToken_name {spaces text : List Char} {name : String} (hspaces : Spaces spaces)
    (htext : QuotedText text name) (rest : List Char) :
    nameToken (spaces ++ (text ++ rest)) = .ok (some name, rest) := by
  cases htext with
  | @quotes body _ hbody =>
    refine (Reader.bind_of_ok (token_of_spaces spaces hspaces rfl) _).trans ?_
    have hread : stringBody (body ++ rest) = .ok (name, rest) :=
      stringBody_eq_ok_iff.mpr ⟨body, rfl, hbody⟩
    exact Reader.bind_of_ok hread _

/-- A member's name is read behind its comma, or the closing brace in its place. -/
theorem of_memberName {first : Bool} {o : Option String} (h : memberName first cs = .ok (o, rest)) :
    (∃ spaces, cs = spaces ++ '\x7d' :: rest ∧ Spaces spaces ∧ o = none) ∨
    ∃ spaces spaces' text name, cs = spaces ++ (comma first ++ (spaces' ++ (text ++ rest))) ∧
      Spaces spaces ∧ Spaces spaces' ∧ QuotedText text name ∧ o = some name := by
  have hname : ∃ spaces mid, cs = spaces ++ mid ∧ Spaces spaces ∧
      ((mid = '\x7d' :: rest ∧ o = none) ∨
        ∃ spaces' text name, mid = comma first ++ (spaces' ++ (text ++ rest)) ∧ Spaces spaces' ∧
          QuotedText text name ∧ o = some name) := by
    apply of_token h
    intro o
    split
    · exact takes_fail _ _
    · intro cs o rest h hhead
      obtain ⟨cs, rfl⟩ := List.head?_eq_some_iff.mp hhead
      cases h
      exact .inl ⟨rfl, rfl⟩
    · next c _ =>
      intro cs o rest h hhead
      obtain ⟨cs, rfl⟩ := List.head?_eq_some_iff.mp hhead
      cases first with
      | true =>
        have hread : nameToken (c :: cs) = .ok (o, rest) := h
        obtain ⟨spaces', text, name, hcs, hname⟩ := of_nameToken hread
        exact .inr ⟨spaces', text, name, hcs, hname⟩
      | false =>
        have hcomma : (if c = ',' then do Reader.skip 1; nameToken
            else do Reader.fail .malformed; nameToken : Reader Fault (Option String)) (c :: cs) =
          .ok (o, rest) := h
        split at hcomma
        · next hc =>
          have hread : nameToken cs = .ok (o, rest) := hcomma
          obtain ⟨spaces', text, name, rfl, hname⟩ := of_nameToken hread
          exact .inr ⟨spaces', text, name, by rw [hc]; rfl, hname⟩
        · cases hcomma
  obtain ⟨spaces, mid, rfl, hspaces, ⟨rfl, ho⟩ | ⟨spaces', text, name, rfl, hname⟩⟩ := hname
  · exact .inl ⟨spaces, rfl, hspaces, ho⟩
  · exact .inr ⟨spaces, spaces', text, name, rfl, hspaces, hname⟩

theorem memberName_brace {spaces : List Char} (h : Spaces spaces) (first : Bool)
    (rest : List Char) : memberName first (spaces ++ '\x7d' :: rest) = .ok (none, rest) :=
  Reader.bind_of_ok (token_of_spaces spaces h rfl) _

theorem memberName_name {spaces spaces' text : List Char} {name : String} (h : Spaces spaces)
    (h' : Spaces spaces') (htext : QuotedText text name) (first : Bool) (rest : List Char) :
    memberName first (spaces ++ (comma first ++ (spaces' ++ (text ++ rest)))) =
      .ok (some name, rest) := by
  cases first with
  | true =>
    have hname : nameToken ([] ++ (text ++ rest)) = .ok (some name, rest) :=
      nameToken_name spaces_nil htext rest
    cases htext with
    | @quotes body _ hbody =>
      have htoken : token (spaces ++ (spaces' ++ '"' :: (body ++ rest))) =
          .ok (some '"', '"' :: (body ++ rest)) := by
        rw [← List.append_assoc]
        exact token_of_spaces _ (h.append h') rfl
      exact (Reader.bind_of_ok htoken _).trans hname
  | false =>
    refine (Reader.bind_of_ok (token_of_spaces spaces h rfl) _).trans ?_
    exact nameToken_name h' htext rest

/-! ## Loops over items -/

/-- A round of the loop closes the bracket, or reads one more item, which takes it from `s` to
`step s m`. -/
structure ItemLoop {σ μ α : Type} (close : Char) (M : List Char → μ → Prop)
    (round : σ → Reader Fault (σ ⊕ α)) (first : σ → Bool) (step : σ → μ → Option σ)
    (done : σ → α) : Prop where
  sound {s cs x rest} (h : round s cs = .ok (x, rest)) :
    (∃ spaces, cs = spaces ++ close :: rest ∧ Spaces spaces ∧ x = .inr (done s)) ∨
    ∃ spaces spaces' text m s', cs = spaces ++ (comma (first s) ++ (spaces' ++ (text ++ rest))) ∧
      Spaces spaces ∧ Spaces spaces' ∧ M text m ∧ step s m = some s' ∧ x = .inl s'
  closes {s spaces} (h : Spaces spaces) (rest : List Char) :
    round s (spaces ++ close :: rest) = .ok (.inr (done s), rest)
  item {s spaces spaces' text m s' rest} (h : Spaces spaces) (h' : Spaces spaces')
    (hm : M text m) (hstep : step s m = some s') (hrest : Ends rest) :
    round s (spaces ++ (comma (first s) ++ (spaces' ++ (text ++ rest)))) = .ok (.inl s', rest)
  next {s m s'} (h : step s m = some s') : first s' = false
  filled {text m} (h : M text m) : text ≠ []

theorem ends_items {μ : Type} {close : Char} {M : List Char → μ → Prop} {text : List Char}
    {ms : List μ} (hclose : ∀ cs, Ends (close :: cs)) (h : ItemsText close M false text ms)
    (rest : List Char) : Ends (text ++ rest) := by
  generalize hfirst : false = first at h
  cases h with
  | close hspaces =>
    rw [List.append_assoc]
    exact ends_spaces hspaces (hclose _)
  | item hspaces hspaces' hm htail =>
    subst hfirst
    rw [List.append_assoc]
    exact ends_spaces hspaces (ends_cons (by decide) _)

namespace ItemLoop

variable {σ μ α : Type} {close : Char} {M : List Char → μ → Prop}
  {round : σ → Reader Fault (σ ⊕ α)} {first : σ → Bool} {step : σ → μ → Option σ} {done : σ → α}
  (loop : ItemLoop close M round first step done)
include loop

theorem of_iterate {s : σ} {a : α} (h : Reader.iterate .malformed round s cs = .ok (a, rest)) :
    ∃ text ms s', cs = text ++ rest ∧ ItemsText close M (first s) text ms ∧
      ms.foldlM step s = some s' ∧ a = done s' := by
  -- on the rounds
  fun_induction Reader.iterate .malformed round s cs with
  | case1 s cs e hround => cases h
  | case2 s cs a rest' hround =>
    cases h
    rcases loop.sound hround with
      ⟨spaces, rfl, hspaces, hx⟩ | ⟨_, _, _, _, _, -, -, -, -, -, hx⟩
    · cases hx
      exact ⟨spaces ++ [close], [], s, by simp, .close hspaces, rfl, rfl⟩
    · cases hx
  | case3 s cs s' rest' hround hlt ih =>
    obtain ⟨tail, ms, s'', rfl, htail, hfold, ha⟩ := ih h
    rcases loop.sound hround with
      ⟨_, -, -, hx⟩ | ⟨spaces, spaces', text, m, _, rfl, hspaces, hspaces', hm, hstep, hx⟩
    · cases hx
    · cases hx
      rw [loop.next hstep] at htail
      refine ⟨_, m :: ms, s'', ?_, .item hspaces hspaces' hm htail, ?_, ha⟩
      · simp
      · rw [List.foldlM_cons, hstep]
        exact hfold
  | case4 s cs s' rest' hround hlt => cases h

theorem iterate_items (hclose : ∀ cs, Ends (close :: cs)) {ms : List μ} {s s' : σ}
    {text : List Char} (htext : ItemsText close M (first s) text ms)
    (hfold : ms.foldlM step s = some s') (rest : List Char) :
    Reader.iterate .malformed round s (text ++ rest) = .ok (done s', rest) := by
  -- on the items, one round for each
  induction ms generalizing s text with
  | nil =>
    cases hfold
    cases htext with
    | close hspaces =>
      rw [List.append_assoc]
      exact Reader.iterate_of_inr (loop.closes hspaces rest)
  | cons m ms ih =>
    rw [List.foldlM_cons] at hfold
    obtain ⟨s₁, hstep, hfold⟩ := Option.bind_eq_some_iff.mp hfold
    generalize hf : first s = f at htext
    cases htext with
    | @item _ spaces spaces' text tail _ _ hspaces hspaces' hm htail =>
      subst hf
      have hround := loop.item hspaces hspaces' hm hstep (ends_items hclose htail rest)
      rw [← loop.next hstep] at htail
      have happend : spaces ++ (comma (first s) ++ (spaces' ++ (text ++ tail))) ++ rest =
          spaces ++ (comma (first s) ++ (spaces' ++ (text ++ (tail ++ rest)))) := by
        simp only [List.append_assoc]
      rw [happend, Reader.iterate_of_inl hround]
      · exact ih htail hfold
      · have hpos := List.length_pos_iff.mpr (loop.filled hm)
        simp only [List.length_append]
        omega

end ItemLoop

/-! ## Objects -/

section Members

variable {α : Type} {r : Reader Fault α} {V : List Char → α → Prop}

theorem of_colon_value (hr : Recognizes r V) {mid : List Char} {u : Unit} {a : α}
    (hcolon : colon cs = .ok (u, mid)) (hread : r mid = .ok (a, rest)) :
    ∃ spaces spaces' text, cs = spaces ++ ':' :: (spaces' ++ (text ++ rest)) ∧ Spaces spaces ∧
      Spaces spaces' ∧ V text a := by
  obtain ⟨spaces, rfl, hspaces⟩ := colon_eq_ok_iff.mp hcolon
  obtain ⟨spaces', text, rfl, hspaces', htext⟩ := hr.sound hread
  exact ⟨spaces, spaces', text, rfl, hspaces, hspaces', htext⟩

theorem colon_of_spaces {spaces : List Char} (h : Spaces spaces) (rest : List Char) :
    colon (spaces ++ ':' :: rest) = .ok ((), rest) := colon_eq_ok_iff.mpr ⟨spaces, rfl, h⟩

theorem MemberText.ne_nil {V : String → List Char → α → Prop} {text : List Char} {m : String × α}
    (h : MemberText V text m) : text ≠ [] := by
  cases h with
  | parts hname h h' hvalue =>
    cases hname with
    | quotes hbody => exact nofun

/-- One round of `members`. -/
def pairRound (r : Reader Fault α) (before : List (String × α)) :
    Reader Fault (List (String × α) ⊕ List (String × α)) := do
  match ← memberName before.isEmpty with
  | none => pure (.inr before.reverse)
  | some name =>
    colon
    return .inl ((name, ← r) :: before)

theorem pairLoop (hr : Recognizes r V) :
    ItemLoop '\x7d' (MemberText fun _ => V) (pairRound r) List.isEmpty
      (fun before m => some (m :: before)) List.reverse where
  sound := by
    intro before cs x rest h
    obtain ⟨o, mid, hread, h⟩ := Reader.bind_eq_ok_iff.mp h
    rcases of_memberName hread with
      ⟨spaces, rfl, hspaces, rfl⟩ | ⟨spaces, spaces', _, name, rfl, hspaces, hspaces', hname, rfl⟩
    · cases h
      exact .inl ⟨spaces, rfl, hspaces, rfl⟩
    · obtain ⟨_, mid', hcolon, h⟩ := Reader.bind_eq_ok_iff.mp h
      obtain ⟨a, mid'', hvalue, hpure⟩ := Reader.bind_eq_ok_iff.mp h
      cases hpure
      obtain ⟨inner, inner', text, rfl, hinner, hinner', htext⟩ := of_colon_value hr hcolon hvalue
      refine .inr ⟨spaces, spaces', _, (name, a), _, ?_, hspaces, hspaces',
        .parts hname hinner hinner' htext, rfl, rfl⟩
      simp
  closes := fun h rest => Reader.bind_of_ok (memberName_brace h _ rest) _
  item := by
    rintro before spaces spaces' _ _ _ rest h h' ⟨hname, hinner, hinner', htext⟩ ⟨⟩ hrest
    simp only [List.append_assoc, List.cons_append]
    refine (Reader.bind_of_ok (memberName_name h h' hname _ _) _).trans ?_
    refine (Reader.bind_of_ok (colon_of_spaces hinner _) _).trans ?_
    exact Reader.bind_of_ok (hr.complete hinner' htext hrest) _
  next := by
    rintro before m _ ⟨⟩
    rfl
  filled := MemberText.ne_nil

theorem foldlM_pairs (before ms : List (String × α)) :
    ms.foldlM (fun before m => some (m :: before)) before = some (ms.reverse ++ before) := by
  induction ms generalizing before with
  | nil => rfl
  | cons m ms ih =>
    rw [List.foldlM_cons, List.reverse_cons, List.append_assoc]
    exact ih (m :: before)

theorem ends_brace (cs : List Char) : Ends ('\x7d' :: cs) := ends_cons (by decide) cs

/-- Objects are read as their members, if their values are read. -/
theorem members_recognizes (hr : Recognizes r V) :
    Recognizes (members r) (ObjectText (MemberText fun _ => V)) where
  sound := by
    intro cs ms rest h
    have hobject : ∃ spaces mid, cs = spaces ++ mid ∧ Spaces spaces ∧
        ∃ text, mid = text ++ rest ∧ ObjectText (MemberText fun _ => V) text ms := by
      apply of_token h
      intro o
      split
      · intro cs ms rest h hhead
        obtain ⟨cs, rfl⟩ := List.head?_eq_some_iff.mp hhead
        have hloop : Reader.iterate .malformed (pairRound r) [] cs = .ok (ms, rest) := h
        obtain ⟨text, pairs, _, rfl, htext, hfold, rfl⟩ := (pairLoop hr).of_iterate hloop
        rw [foldlM_pairs, List.append_nil, Option.some.injEq] at hfold
        rw [← hfold, List.reverse_reverse]
        exact ⟨'\x7b' :: text, rfl, .braces htext⟩
      · exact takes_wrongKind _
    obtain ⟨spaces, mid, rfl, hspaces, text, rfl, htext⟩ := hobject
    exact ⟨spaces, text, rfl, hspaces, htext⟩
  complete := by
    rintro spaces _ ms rest hspaces @⟨text, _, htext⟩ -
    refine (Reader.bind_of_ok (token_of_spaces spaces hspaces rfl) _).trans ?_
    have hfirst :
        ItemsText '\x7d' (MemberText fun _ => V) ([] : List (String × α)).isEmpty text ms := htext
    have hloop := (pairLoop hr).iterate_items ends_brace hfirst (foldlM_pairs [] ms) rest
    rw [List.append_nil, List.reverse_reverse] at hloop
    exact hloop
  starts := by
    rintro _ ms ⟨htext⟩
    exact ⟨'\x7b', _, rfl, by decide, by decide, by decide⟩

end Members

/-! ## Records -/

section Records

variable {σ : Type} {fields : List (Field σ)} {V : String → List Char → (σ → σ) → Prop}

/-- What the values of fields do to a record, one after the other. -/
def setAll (init : σ) (values : List (String × (σ → σ))) : σ :=
  values.foldl (fun s v => v.2 s) init

/-- A record with one more of its members; a field occurs only once. -/
def Record.Partial.take (p : Record.Partial σ) (m : String × Option (σ → σ)) :
    Option (Record.Partial σ) :=
  match m.2 with
  | none => some p
  | some set => if p.seen.contains m.1 then none else some ⟨m.1 :: p.seen, set p.value⟩

/-- One round of `fromObject`. -/
def recordRound (fields : List (Field σ)) (s : Bool × Record.Partial σ) :
    Reader Fault ((Bool × Record.Partial σ) ⊕ Record.Partial σ) := do
  match ← Record.memberRound fields s.1 s.2 with
  | .inl p => pure (.inl (false, p))
  | .inr p => pure (.inr p)

theorem find?_eq_none_iff {name : String} :
    fields.find? (·.name == name) = none ↔ name ∉ fields.map (·.name) := by
  simp [List.find?_eq_none]

theorem exists_find? {name : String} (h : name ∈ fields.map (·.name)) :
    ∃ field ∈ fields, fields.find? (·.name == name) = some field ∧ field.name = name := by
  cases hfind : fields.find? (·.name == name) with
  | none => exact absurd h (find?_eq_none_iff.mp hfind)
  | some field =>
    have hname : field.name = name := by simpa using List.find?_some hfind
    exact ⟨field, List.mem_of_find?_eq_some hfind, rfl, hname⟩

variable (hfields : ∀ field ∈ fields, Recognizes field.read (V field.name))
include hfields

theorem of_memberRound {first : Bool} {p : Record.Partial σ}
    {x : Record.Partial σ ⊕ Record.Partial σ}
    (h : Record.memberRound fields first p cs = .ok (x, rest)) :
    (∃ spaces, cs = spaces ++ '\x7d' :: rest ∧ Spaces spaces ∧ x = .inr p) ∨
    ∃ spaces spaces' text m p', cs = spaces ++ (comma first ++ (spaces' ++ (text ++ rest))) ∧
      Spaces spaces ∧ Spaces spaces' ∧
      MemberText (FieldValue (fields.map (·.name)) V) text m ∧ p.take m = some p' ∧
      x = .inl p' := by
  obtain ⟨o, mid, hread, h⟩ := Reader.bind_eq_ok_iff.mp h
  rcases of_memberName hread with
    ⟨spaces, rfl, hspaces, rfl⟩ | ⟨spaces, spaces', _, name, rfl, hspaces, hspaces', hname, rfl⟩
  · cases h
    exact .inl ⟨spaces, rfl, hspaces, rfl⟩
  right
  by_cases hknown : name ∈ fields.map (·.name)
  · obtain ⟨field, hfield, hfind, rfl⟩ := exists_find? hknown
    simp only [hfind] at h
    split at h
    · cases h
    next hnew =>
    obtain ⟨_, mid', hcolon, h⟩ := Reader.bind_eq_ok_iff.mp h
    obtain ⟨set, mid'', hvalue, hpure⟩ := Reader.bind_eq_ok_iff.mp h
    cases hpure
    obtain ⟨inner, inner', text, rfl, hinner, hinner', htext⟩ :=
      of_colon_value (hfields field hfield) hcolon hvalue
    refine ⟨spaces, spaces', _, (field.name, some set), _, ?_, hspaces, hspaces',
      .parts hname hinner hinner' (.known hknown htext), if_neg hnew, rfl⟩
    simp
  · simp only [find?_eq_none_iff.mpr hknown] at h
    obtain ⟨_, mid', hcolon, h⟩ := Reader.bind_eq_ok_iff.mp h
    obtain ⟨_, mid'', hvalue, hpure⟩ := Reader.bind_eq_ok_iff.mp h
    cases hpure
    obtain ⟨inner, inner', text, rfl, hinner, hinner', htext⟩ :=
      of_colon_value skipValue_recognizes hcolon hvalue
    refine ⟨spaces, spaces', _, (name, none), p, ?_, hspaces, hspaces',
      .parts hname hinner hinner' (.unknown hknown htext), rfl, rfl⟩
    simp

theorem memberRound_member {first : Bool} {p p' : Record.Partial σ}
    {spaces spaces' text : List Char} {m : String × Option (σ → σ)} (h : Spaces spaces)
    (h' : Spaces spaces') (hm : MemberText (FieldValue (fields.map (·.name)) V) text m)
    (htake : p.take m = some p') (hrest : Ends rest) :
    Record.memberRound fields first p
      (spaces ++ (comma first ++ (spaces' ++ (text ++ rest)))) = .ok (.inl p', rest) := by
  cases hm with
  | parts hname hinner hinner' hvalue =>
    simp only [List.append_assoc, List.cons_append]
    refine (Reader.bind_of_ok (memberName_name h h' hname _ _) _).trans ?_
    cases hvalue with
    | known hknown htext =>
      obtain ⟨field, hfield, hfind, rfl⟩ := exists_find? hknown
      obtain ⟨hnew, rfl⟩ : ¬ p.seen.contains field.name = true ∧ _ = p' := by
        simpa [Record.Partial.take] using htake
      simp only [hfind]
      rw [if_neg hnew]
      refine (Reader.bind_of_ok (colon_of_spaces hinner _) _).trans ?_
      exact Reader.bind_of_ok ((hfields field hfield).complete hinner' htext hrest) _
    | unknown hunknown htext =>
      cases htake
      simp only [find?_eq_none_iff.mpr hunknown]
      refine (Reader.bind_of_ok (colon_of_spaces hinner _) _).trans ?_
      refine Reader.bind_of_ok (a := ()) ?_ _
      exact skipValue_recognizes.complete hinner' htext hrest

theorem recordLoop :
    ItemLoop '\x7d' (MemberText (FieldValue (fields.map (·.name)) V)) (recordRound fields)
      (·.1) (fun s m => (s.2.take m).map (false, ·)) (·.2) where
  sound := by
    intro s cs x rest h
    obtain ⟨y, mid, hround, hpure⟩ := Reader.bind_eq_ok_iff.mp h
    rcases of_memberRound hfields hround with ⟨spaces, rfl, hspaces, rfl⟩ |
      ⟨spaces, spaces', text, m, p', rfl, hspaces, hspaces', hm, htake, rfl⟩
    · cases hpure
      exact .inl ⟨spaces, rfl, hspaces, rfl⟩
    · cases hpure
      refine .inr ⟨spaces, spaces', text, m, (false, p'), rfl, hspaces, hspaces', hm, ?_, rfl⟩
      rw [htake]
      rfl
  closes := by
    intro s spaces h rest
    have hround : Record.memberRound fields s.1 s.2 (spaces ++ '\x7d' :: rest) =
        .ok (.inr s.2, rest) := Reader.bind_of_ok (memberName_brace h _ rest) _
    exact Reader.bind_of_ok hround _
  item := by
    intro s spaces spaces' text m s' rest h h' hm hstep hrest
    obtain ⟨p', htake, rfl⟩ := Option.map_eq_some_iff.mp hstep
    exact Reader.bind_of_ok (memberRound_member hfields h h' hm htake hrest) _
  next := by
    intro s m s' h
    obtain ⟨p', -, rfl⟩ := Option.map_eq_some_iff.mp h
    rfl
  filled := MemberText.ne_nil

omit hfields

/-- A record takes all members of an object exactly if none of its fields occurs twice. -/
theorem foldlM_take_iff {b : Bool} {p p' : Record.Partial σ}
    {ms : List (String × Option (σ → σ))} :
    (∃ b', ms.foldlM (fun s m => (s.2.take m).map (false, ·)) (b, p) = some (b', p')) ↔
      ((fieldsOf ms).map (·.1)).Nodup ∧ (∀ name ∈ p.seen, name ∉ (fieldsOf ms).map (·.1)) ∧
        p' = ⟨((fieldsOf ms).map (·.1)).reverse ++ p.seen, setAll p.value (fieldsOf ms)⟩ := by
  induction ms generalizing b p with
  | nil =>
    constructor
    · rintro ⟨b', h⟩
      cases h
      exact ⟨.nil, fun _ _ => List.not_mem_nil, rfl⟩
    · rintro ⟨-, -, rfl⟩
      exact ⟨b, rfl⟩
  | cons m ms ih =>
    obtain ⟨name, _ | set⟩ := m
    · exact ih
    by_cases hseen : name ∈ p.seen
    · -- a second field of the name ends the fold
      refine iff_of_false ?_ fun h => h.2.1 name hseen List.mem_cons_self
      rintro ⟨b', h⟩
      have htake : p.take (name, some set) = none := if_pos (List.contains_iff_mem.mpr hseen)
      rw [List.foldlM_cons, htake] at h
      cases h
    · have htake : p.take (name, some set) = some ⟨name :: p.seen, set p.value⟩ :=
        if_neg fun h => hseen (List.contains_iff_mem.mp h)
      have hfields : fieldsOf ((name, some set) :: ms) = (name, set) :: fieldsOf ms := rfl
      have hcons : ((name, some set) :: ms).foldlM (fun s m => (s.2.take m).map (false, ·)) (b, p) =
          ms.foldlM (fun s m => (s.2.take m).map (false, ·))
            (false, ⟨name :: p.seen, set p.value⟩) := by
        rw [List.foldlM_cons, htake]
        rfl
      rw [hcons, ih, hfields, List.map_cons, List.nodup_cons, List.reverse_cons, List.append_assoc]
      constructor
      · rintro ⟨hnodup, hnew, rfl⟩
        refine ⟨⟨hnew name List.mem_cons_self, hnodup⟩, fun other hother hmem => ?_, rfl⟩
        rcases List.mem_cons.mp hmem with rfl | hmem
        · exact hseen hother
        · exact hnew other (List.mem_cons_of_mem _ hother) hmem
      · rintro ⟨⟨hname, hnodup⟩, hnew, rfl⟩
        refine ⟨hnodup, fun other hother hmem => ?_, rfl⟩
        rcases List.mem_cons.mp hother with rfl | hother
        · exact hname hmem
        · exact hnew other hother (List.mem_cons_of_mem _ hmem)

/-! ### Arrays -/

theorem of_close {ε : Type} {a : ε} {x : ε} (h : (do
    match ← token with
    | none => Reader.fail .eof
    | some ']' => Reader.skip 1; pure a
    | some _ => Reader.fail .malformed : Reader Fault ε) cs = .ok (x, rest)) :
    ∃ spaces, cs = spaces ++ ']' :: rest ∧ Spaces spaces ∧ x = a := by
  have hclose : ∃ spaces mid, cs = spaces ++ mid ∧ Spaces spaces ∧ mid = ']' :: rest ∧ x = a := by
    apply of_token h
    intro o
    split
    · exact takes_fail _ _
    · intro cs x rest h hhead
      obtain ⟨cs, rfl⟩ := List.head?_eq_some_iff.mp hhead
      cases h
      exact ⟨rfl, rfl⟩
    · exact takes_fail _ _
  obtain ⟨spaces, mid, rfl, hspaces, rfl, hx⟩ := hclose
  exact ⟨spaces, rfl, hspaces, hx⟩

/-- An element, and what is behind it. -/
def elementThen (field : Field σ) (fields : List (Field σ)) (p : Record.Partial σ) :
    Reader Fault (Record.Partial σ) := do
  let set ← field.read
  Record.fromArray false ⟨field.name :: p.seen, set p.value⟩ fields

/-- What goes on behind the comma of an element. -/
def behindComma (field : Field σ) (fields : List (Field σ)) (p : Record.Partial σ) :
    Reader Fault (Record.Partial σ) := do
  match ← token with
  | none => do Reader.fail .eof; elementThen field fields p
  | some ']' => do Reader.fail .malformed; elementThen field fields p
  | some _ => elementThen field fields p

/-- An array goes on with its closing bracket, or with an element behind its comma. -/
theorem of_fromArray_cons {first : Bool} {p x : Record.Partial σ} {field : Field σ}
    {fields : List (Field σ)} (h : Record.fromArray first p (field :: fields) cs = .ok (x, rest)) :
    (∃ spaces, cs = spaces ++ ']' :: rest ∧ Spaces spaces ∧ x = p) ∨
    ∃ spaces spaces' mid, cs = spaces ++ (comma first ++ (spaces' ++ mid)) ∧ Spaces spaces ∧
      Spaces spaces' ∧ elementThen field fields p mid = .ok (x, rest) := by
  have hround : ∃ spaces mid, cs = spaces ++ mid ∧ Spaces spaces ∧
      ((mid = ']' :: rest ∧ x = p) ∨
        ∃ spaces' mid', mid = comma first ++ (spaces' ++ mid') ∧ Spaces spaces' ∧
          elementThen field fields p mid' = .ok (x, rest)) := by
    apply of_token h
    intro o
    split
    · exact takes_fail _ _
    · intro cs x rest h hhead
      obtain ⟨cs, rfl⟩ := List.head?_eq_some_iff.mp hhead
      cases h
      exact .inl ⟨rfl, rfl⟩
    · next c _ =>
      intro cs x rest h hhead
      obtain ⟨cs, rfl⟩ := List.head?_eq_some_iff.mp hhead
      -- the first element has no comma in front
      cases first with
      | true => exact .inr ⟨[], c :: cs, rfl, rfl, h⟩
      | false =>
        by_cases hc : c = ','
        · subst hc
          have hread : behindComma field fields p cs = .ok (x, rest) := h
          have helement : ∃ spaces mid, cs = spaces ++ mid ∧ Spaces spaces ∧
              elementThen field fields p mid = .ok (x, rest) := by
            apply of_token hread
            intro o
            split
            · intro cs x rest h
              cases h
            · intro cs x rest h
              cases h
            · exact fun cs x rest h _ => h
          obtain ⟨spaces', mid, rfl, hspaces', helement⟩ := helement
          exact .inr ⟨spaces', mid, rfl, hspaces', helement⟩
        · have hfail := (congrFun (if_neg hc) _).symm.trans h
          cases hfail
  obtain ⟨spaces, mid, rfl, hspaces, ⟨rfl, hx⟩ | ⟨spaces', mid', rfl, helement⟩⟩ := hround
  · exact .inl ⟨spaces, rfl, hspaces, hx⟩
  · exact .inr ⟨spaces, spaces', mid', rfl, hspaces, helement⟩

theorem fromArray_close {first : Bool} {p : Record.Partial σ} {spaces : List Char}
    (h : Spaces spaces) (fields : List (Field σ)) (rest : List Char) :
    Record.fromArray first p fields (spaces ++ ']' :: rest) = .ok (p, rest) := by
  cases fields with
  | nil => exact Reader.bind_of_ok (token_of_spaces spaces h rfl) _
  | cons field fields => exact Reader.bind_of_ok (token_of_spaces spaces h rfl) _

theorem fromArray_element {first : Bool} {p : Record.Partial σ} {field : Field σ}
    {fields : List (Field σ)} {spaces spaces' text : List Char} (h : Spaces spaces)
    (h' : Spaces spaces') (htext : Starts text) :
    Record.fromArray first p (field :: fields)
      (spaces ++ (comma first ++ (spaces' ++ text))) = elementThen field fields p text := by
  obtain ⟨c, tail, rfl, hspace, hbracket, -⟩ := htext
  cases first with
  | true =>
    have htoken : token (spaces ++ (spaces' ++ c :: tail)) = .ok (some c, c :: tail) := by
      rw [← List.append_assoc]
      exact token_of_spaces _ (h.append h') hspace
    refine (Reader.bind_of_ok htoken _).trans ?_
    refine congrFun (g := elementThen field fields p) ?_ (c :: tail)
    split
    · next heq => cases heq
    · next heq => exact absurd (Option.some.inj heq) hbracket
    · rfl
  | false =>
    have hcomma : behindComma field fields p (spaces' ++ c :: tail) =
        elementThen field fields p (c :: tail) := by
      refine (Reader.bind_of_ok (token_of_spaces spaces' h' hspace) _).trans ?_
      refine congrFun (g := elementThen field fields p) ?_ (c :: tail)
      split
      · next heq => cases heq
      · next heq => exact absurd (Option.some.inj heq) hbracket
      · rfl
    exact (Reader.bind_of_ok (token_of_spaces spaces h rfl) _).trans hcomma

theorem ends_elements {α : Type} {V : String → List Char → α → Prop} {names : List String}
    {text : List Char} {values : List (String × α)} (h : ElementsText V false names text values)
    (rest : List Char) : Ends (text ++ rest) := by
  generalize hfirst : false = first at h
  cases h with
  | close hspaces =>
    rw [List.append_assoc]
    exact ends_spaces hspaces (ends_cons (by decide) _)
  | element hspaces hspaces' hvalue htail =>
    subst hfirst
    rw [List.append_assoc]
    exact ends_spaces hspaces (ends_cons (by decide) _)

variable (hfields : ∀ field ∈ fields, Recognizes field.read (V field.name))
include hfields

theorem of_fromArray {first : Bool} {p x : Record.Partial σ}
    (h : Record.fromArray first p fields cs = .ok (x, rest)) :
    ∃ text values, cs = text ++ rest ∧ ElementsText V first (fields.map (·.name)) text values ∧
      x.value = setAll p.value values := by
  -- on the fields that are left
  induction fields generalizing first p cs with
  | nil =>
    obtain ⟨spaces, rfl, hspaces, rfl⟩ := of_close h
    exact ⟨spaces ++ [']'], [], by simp, .close hspaces, rfl⟩
  | cons field fields ih =>
    rcases of_fromArray_cons h with
      ⟨spaces, rfl, hspaces, rfl⟩ | ⟨spaces, spaces', mid, rfl, hspaces, hspaces', helement⟩
    · exact ⟨spaces ++ [']'], [], by simp, .close hspaces, rfl⟩
    · obtain ⟨set, mid', hread, hrest⟩ := Reader.bind_eq_ok_iff.mp helement
      obtain ⟨inner, text, rfl, hinner, htext⟩ := (hfields field List.mem_cons_self).sound hread
      obtain ⟨tail, values, rfl, htail, hvalue⟩ :=
        ih (fun f hf => hfields f (List.mem_cons_of_mem _ hf)) hrest
      refine ⟨_, (field.name, set) :: values, ?_,
        .element hspaces (hspaces'.append hinner) htext htail, hvalue⟩
      simp

theorem fromArray_elements {first : Bool} {p : Record.Partial σ} {text : List Char}
    {values : List (String × (σ → σ))}
    (htext : ElementsText V first (fields.map (·.name)) text values) (rest : List Char) :
    ∃ p', Record.fromArray first p fields (text ++ rest) = .ok (p', rest) ∧
      p'.value = setAll p.value values := by
  -- on the fields that are left
  induction fields generalizing first p text values with
  | nil =>
    cases htext with
    | close hspaces =>
      rw [List.append_assoc]
      exact ⟨p, fromArray_close hspaces _ rest, rfl⟩
  | cons field fields ih =>
    cases htext with
    | close hspaces =>
      rw [List.append_assoc]
      exact ⟨p, fromArray_close hspaces _ rest, rfl⟩
    | @element _ _ _ spaces spaces' text tail set values hspaces hspaces' hvalue htail =>
      have hfield := hfields field List.mem_cons_self
      obtain ⟨p', hrest, hp'⟩ := ih (p := ⟨field.name :: p.seen, set p.value⟩)
        (fun f hf => hfields f (List.mem_cons_of_mem _ hf)) htail
      refine ⟨p', ?_, hp'⟩
      have hread : field.read (text ++ (tail ++ rest)) = .ok (set, tail ++ rest) :=
        hfield.complete spaces_nil hvalue (ends_elements htail rest)
      obtain ⟨c, cs, rfl, hstarts⟩ := hfield.starts hvalue
      have hstart : Starts (c :: cs ++ (tail ++ rest)) := ⟨c, _, rfl, hstarts⟩
      have happend : spaces ++ (comma first ++ (spaces' ++ (c :: cs ++ tail))) ++ rest =
          spaces ++ (comma first ++ (spaces' ++ (c :: cs ++ (tail ++ rest)))) := by
        simp only [List.append_assoc]
      rw [happend, fromArray_element hspaces hspaces' hstart]
      exact (Reader.bind_of_ok hread _).trans hrest

/-! ### Both forms -/

/-- The members or elements of a record. -/
def recordBody (fields : List (Field σ)) (init : σ) : Reader Fault (Record.Partial σ) := do
  match ← token with
  | some '[' => Reader.skip 1; Record.fromArray true ⟨[], init⟩ fields
  | some '\x7b' => Reader.skip 1; Record.fromObject fields init
  | _ => wrongKind

omit hfields in
/-- A record without required fields is read as soon as its members are. -/
theorem record_eq_ok_iff (hoptional : ∀ field ∈ fields, field.required = false) {init s : σ} :
    record fields init cs = .ok (s, rest) ↔
      ∃ p, recordBody fields init cs = .ok (p, rest) ∧ s = p.value := by
  have hassoc : record fields init = (do
      let p ← recordBody fields init
      if fields.all fun f => !f.required || p.seen.contains f.name then pure p.value
      else Reader.fail .data) := by
    rw [record, recordBody, Reader.bind_assoc]
    refine congrArg (token >>= ·) (funext fun o => ?_)
    split
    · exact (Reader.bind_assoc ..).symm
    · exact (Reader.bind_assoc ..).symm
    · next hbracket hbrace =>
      -- no other character begins a record, so both sides take their last case
      grind
  have hall : ∀ p : Record.Partial σ,
      (fields.all fun f => !f.required || p.seen.contains f.name) = true := by
    intro p
    refine List.all_eq_true.mpr fun field hfield => ?_
    rw [hoptional field hfield]
    rfl
  rw [hassoc, Reader.bind_eq_ok_iff]
  constructor
  · rintro ⟨p, mid, hbody, hend⟩
    rw [if_pos (hall p)] at hend
    cases hend
    exact ⟨p, hbody, rfl⟩
  · rintro ⟨p, hbody, rfl⟩
    refine ⟨p, rest, hbody, ?_⟩
    rw [if_pos (hall p)]
    rfl

/-- Records are read as what their fields do, if these are read and none of them is required. -/
theorem record_recognizes (hoptional : ∀ field ∈ fields, field.required = false) (init : σ) :
    Recognizes (record fields init) fun text s =>
      ∃ values, RecordText (fields.map (·.name)) V text values ∧ s = setAll init values where
  sound := by
    intro cs s rest h
    obtain ⟨p, hread, rfl⟩ := (record_eq_ok_iff hoptional).mp h
    have hrecord : ∃ spaces mid, cs = spaces ++ mid ∧ Spaces spaces ∧
        ∃ text values, mid = text ++ rest ∧ RecordText (fields.map (·.name)) V text values ∧
          p.value = setAll init values := by
      apply of_token hread
      intro o
      split
      · intro cs p rest h hhead
        obtain ⟨cs, rfl⟩ := List.head?_eq_some_iff.mp hhead
        have harray : Record.fromArray true ⟨[], init⟩ fields cs = .ok (p, rest) := h
        obtain ⟨text, values, rfl, htext, hvalue⟩ := of_fromArray hfields harray
        exact ⟨'[' :: text, values, rfl, .array htext, hvalue⟩
      · intro cs p rest h hhead
        obtain ⟨cs, rfl⟩ := List.head?_eq_some_iff.mp hhead
        have hobject : Reader.iterate .malformed (recordRound fields) (true, ⟨[], init⟩) cs =
            .ok (p, rest) := h
        obtain ⟨text, ms, ⟨b', p'⟩, rfl, htext, hfold, rfl⟩ :=
          (recordLoop hfields).of_iterate hobject
        obtain ⟨hdistinct, -, rfl⟩ := foldlM_take_iff.mp ⟨b', hfold⟩
        exact ⟨'\x7b' :: text, fieldsOf ms, rfl, .object (.braces htext) hdistinct, rfl⟩
      · exact takes_wrongKind _
    obtain ⟨spaces, mid, rfl, hspaces, text, values, rfl, htext, hvalue⟩ := hrecord
    exact ⟨spaces, text, rfl, hspaces, values, htext, hvalue⟩
  complete := by
    rintro spaces text s rest hspaces ⟨values, htext, rfl⟩ -
    refine (record_eq_ok_iff hoptional).mpr ?_
    cases htext with
    | @object text ms hobject hdistinct =>
      cases hobject with
      | @braces text _ hitems =>
        have hnew : ∀ name ∈ (⟨[], init⟩ : Record.Partial σ).seen,
            name ∉ (fieldsOf ms).map (·.1) := fun _ h => absurd h List.not_mem_nil
        obtain ⟨b', hfold⟩ := foldlM_take_iff.mpr ⟨hdistinct, hnew, rfl⟩
        have hloop := (recordLoop hfields).iterate_items ends_brace hitems hfold rest
        exact ⟨_, (Reader.bind_of_ok (token_of_spaces spaces hspaces rfl) _).trans hloop, rfl⟩
    | @array text values helements =>
      obtain ⟨p, hread, hvalue⟩ := fromArray_elements hfields helements rest
      exact ⟨p, (Reader.bind_of_ok (token_of_spaces spaces hspaces rfl) _).trans hread, hvalue.symm⟩
  starts := by
    rintro text s ⟨values, htext, -⟩
    cases htext with
    | object hobject hdistinct =>
      cases hobject with
      | braces h => exact ⟨'\x7b', _, rfl, by decide, by decide, by decide⟩
    | array h => exact ⟨'[', _, rfl, by decide, by decide, by decide⟩

end Records

/-! ## Whole texts -/

/-- A text is read as one value exactly if there is white space around a text of it, and nothing
else. -/
theorem read_eq_ok_iff {α : Type} {r : Reader Fault α} {V : List Char → α → Prop}
    (hr : Recognizes r V) {s : String} {a : α} :
    Json.read r s = .ok a ↔ Surrounded V s.toList a := by
  constructor
  · intro h
    obtain ⟨⟨b, rest⟩, hread, hend⟩ := bind_eq_ok h
    obtain ⟨⟨_ | d, rest'⟩, htoken, hend⟩ := bind_eq_ok hend
    · cases hend
      obtain ⟨spaces, text, hs, hspaces, htext⟩ := hr.sound hread
      obtain ⟨spaces', rfl, hspaces', hnone, -⟩ := token_eq_ok_iff.mp htoken
      obtain rfl := List.head?_eq_none_iff.mp hnone.symm
      rw [List.append_nil] at hs
      exact ⟨spaces, text, spaces', hs, hspaces, hspaces', htext⟩
    · cases hend
  · rintro ⟨spaces, text, spaces', hs, hspaces, hspaces', htext⟩
    have hends : Ends spaces' := by
      rw [← List.append_nil spaces']
      exact ends_spaces hspaces' nofun
    have hread : r s.toList = .ok (a, spaces') := by
      rw [hs]
      exact hr.complete hspaces htext hends
    have htoken : token spaces' = .ok (none, []) :=
      token_eq_ok_iff.mpr ⟨spaces', (List.append_nil _).symm, hspaces', rfl, nofun⟩
    rw [Json.read, hread]
    show (token spaces' >>= fun _ => _) = .ok a
    rw [htoken]
    rfl

end Primacy.Json
