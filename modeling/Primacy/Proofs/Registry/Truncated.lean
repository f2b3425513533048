/-
  Primacy.Proofs.Registry.Truncated

  A registry document that is cut off is never read as one: whatever is left of it, unless that is
  nothing at all, is refused.  A cut may fall into a name, a value, or the white space between
  them; it may also fall into a character, and then the bytes are no text.
-/
import Primacy.Proofs.Json.Truncated
import Primacy.Proofs.Registry.Document

namespace Primacy

open Text (Reader prefix_append_cases)

namespace Json

variable {α : Type} {spaces p : List Char}

/-- What `memberName` goes on with in front of a name. -/
def nameReader : Reader Fault (Option String) := do
  match ← token with
  | none => Reader.fail .eof
  | some '"' => Reader.skip 1; return some (← stringBody)
  | some _ => Reader.fail .malformed

theorem nameReader_within (hspaces : spaces.all isSpace = true) (name : String) :
    FailsWithin nameReader (spaces ++ quoted name) := by
  have hblank : ∀ s : List Char, s.all isSpace = true → Fails nameReader s := fun s hs =>
    .bind_of_ok (token_of_all hs) ⟨_, rfl⟩
  refine failsWithin_spaces hspaces hblank fun p hp hne => ?_
  have hname : Fails (do return some (← stringBody) : Reader Fault (Option String)) p :=
    (stringBody_within name p hp hne).bind _
  exact .bind_of_ok (token_of_spaces spaces hspaces rfl) hname

theorem memberName_true {q : List Char} (h : token p = .ok (some '"', q)) :
    memberName true p = nameReader q :=
  Reader.bind_of_ok h _

theorem memberName_comma (p : List Char) : memberName false (',' :: p) = nameReader p := by
  have htoken : token (',' :: p) = .ok (some ',', ',' :: p) := token_of_spaces [] rfl rfl
  have hskip : Reader.skip 1 (',' :: p) = (.ok ((), p) : Except Fault _) := rfl
  refine (Reader.bind_of_ok htoken _).trans ?_
  exact Reader.bind_of_ok hskip _

/-- White space alone has no member and no end. -/
theorem memberName_blank (first : Bool) (h : p.all isSpace = true) : Fails (memberName first) p :=
  .bind_of_ok (token_of_all h) ⟨_, rfl⟩

/-- What is left of a member's name is not read. -/
theorem memberName_within (hspaces : spaces.all isSpace = true) (first : Bool) (name : String) :
    FailsWithin (memberName first) (separator first ++ (spaces ++ quoted name)) := by
  cases first with
  | true =>
    refine failsWithin_spaces hspaces (fun _ => memberName_blank true) fun p hp hne => ?_
    have hfirst : Fails nameReader ('"' :: p) :=
      @nameReader_within [] rfl name _ (List.cons_prefix_cons.mpr ⟨rfl, hp⟩) fun h =>
        hne (List.cons.inj h).2
    have htoken : token (spaces ++ '"' :: p) = .ok (some '"', '"' :: p) :=
      token_of_spaces spaces hspaces rfl
    exact hfirst.of_eq (memberName_true htoken)
  | false =>
    refine failsWithin_cons (memberName_blank false rfl) fun p hp hne => ?_
    exact (nameReader_within hspaces name p hp hne).of_eq (memberName_comma p)

/-- The end of an object that is cut off is not read. -/
theorem memberName_end_within (hspaces : spaces.all isSpace = true) (first : Bool) :
    FailsWithin (memberName first) (spaces ++ ['\x7d']) :=
  failsWithin_spaces hspaces (fun _ => memberName_blank first) fun _ hp hne =>
    absurd (List.prefix_nil.mp hp) hne

theorem colon_within : FailsWithin colon [':'] :=
  failsWithin_cons ⟨_, rfl⟩ fun _ hp hne => absurd (List.prefix_nil.mp hp) hne

/-- `r` fails on what is left of `text` behind a space, or it uses it up. -/
def Exhausts (r : Reader Fault α) (text : List Char) : Prop :=
  ∀ p, p <+: ' ' :: text → UsesUp r p

theorem Exhausts.return {β : Type} {r : Reader Fault α} {text : List Char} (h : Exhausts r text)
    (f : α → β) : Exhausts (do return f (← r)) text := fun p hp =>
  (h p hp).bind fun a => usesUp_pure_nil (f a)

end Json

/-! ## The lines of an object -/

namespace Registry.Content

open Json

variable {α β σ : Type} {indent : String} {p text : List Char}

/-- A line that is cut off has no name, or its name is read. -/
theorem line_cut (hindent : indent.toList.all isSpace = true) (first : Bool) (name : String)
    (hp : p <+: separator first ++ lineText indent (name, text)) :
    Fails (memberName first) p ∨
      ∃ p', p' <+: ':' :: ' ' :: text ∧ memberName first p = .ok (some name, p') := by
  have hspaces : ('\n' :: indent.toList ++ "  ".toList).all isSpace = true := by
    rw [List.all_append, List.all_cons, hindent]
    rfl
  have hfull : ∀ rest, memberName first (separator first ++
      ('\n' :: indent.toList ++ "  ".toList ++ quoted name) ++ rest) = .ok (some name, rest) := by
    intro rest
    rw [List.append_assoc, List.append_assoc ('\n' :: _ ++ _)]
    exact memberName_quoted hspaces first name rest
  have hline : separator first ++ lineText indent (name, text) = separator first ++
      ('\n' :: indent.toList ++ "  ".toList ++ quoted name) ++ ':' :: ' ' :: text := by
    rw [List.append_assoc, List.append_assoc ('\n' :: _ ++ _)]
    rfl
  exact (memberName_within hspaces first name).cut hfull (hline ▸ hp)

/-- Behind the name of a line that is cut off. -/
theorem colon_cut {r : Reader Fault α} (hr : Exhausts r text) (hp : p <+: ':' :: ' ' :: text)
    (f : α → σ) :
    AsksOn (do colon; return .inl (f (← r)) : Reader Fault (σ ⊕ β)) p := by
  rcases colon_within.cut colon_of_colon hp with h | ⟨p', hp', hcolon⟩
  · exact .inl (h.bind _)
  · rcases hr p' hp' with h | ⟨a, ha⟩
    · exact .inl (.bind_of_ok hcolon (h.bind _))
    · exact .inr ⟨f a, (Reader.bind_of_ok hcolon _).trans (Reader.bind_of_ok ha _)⟩

theorem endsNumber_of_part {ms : List (String × List Char)} (h : p <+: tailText indent ms)
    (hne : p ≠ []) : EndsNumber p := by
  cases ms with
  | nil =>
    obtain ⟨p', rfl, -⟩ := (List.prefix_cons_iff.mp h).resolve_left hne
    exact ⟨'\n', p', rfl, .inr rfl⟩
  | cons m ms =>
    obtain ⟨p', rfl, -⟩ := (List.prefix_cons_iff.mp h).resolve_left hne
    exact ⟨',', p', rfl, .inl rfl⟩

/-- Where a line is cut off, its round asks for another one; where it is not, the repetition goes
on with what is left behind it. -/
theorem iterate_line {round : σ → Reader Fault (σ ⊕ β)} {s s' : σ} {first : Bool}
    {m : String × List Char} {ms : List (String × List Char)}
    (hcut : ∀ p, p <+: separator first ++ lineText indent m → AsksOn (round s) p)
    (hfull : ∀ rest, EndsNumber rest →
      round s (separator first ++ (lineText indent m ++ rest)) = .ok (.inl s', rest))
    (hnil : ∀ s, Fails (round s) [])
    (hrest : FailsWithin (Reader.iterate .malformed round s') (tailText indent ms)) :
    FailsWithin (Reader.iterate .malformed round s)
      (separator first ++ (lineText indent m ++ tailText indent ms)) := by
  intro p hp hne
  rw [← List.append_assoc] at hp hne
  -- what is left ends with the line only if the cut falls right behind it
  rcases prefix_append_cases hp with ⟨hline, -⟩ | ⟨p', hp', rfl⟩
  · exact (hcut p hline).fails_iterate hnil
  · by_cases hp'' : p' = []
    · rw [hp'', List.append_nil]
      exact (hcut _ (List.prefix_refl _)).fails_iterate hnil
    · have hafter := hrest p' hp' fun h => hne (by rw [h])
      have hround := hfull p' (endsNumber_of_part hp' hp'')
      rw [List.append_assoc]
      exact hafter.of_eq (Reader.iterate_of_inl hround (length_lt_of_line first m p'))

/-! ## Objects -/

section Members

variable {r : Reader Fault α} {a : α}

theorem membersRound_cut (hindent : indent.toList.all isSpace = true) (hr : Exhausts r text)
    (before : List (String × α)) (name : String)
    (hp : p <+: separator before.isEmpty ++ lineText indent (name, text)) :
    AsksOn (membersRound r before) p := by
  rcases line_cut hindent before.isEmpty name hp with h | ⟨p', hp', hname⟩
  · exact .inl (h.bind _)
  · exact .bind_of_ok hname (colon_cut hr hp' fun a => (name, a) :: before)

theorem membersRound_nil (r : Reader Fault α) (before : List (String × α)) :
    Fails (membersRound r before) [] :=
  (memberName_blank before.isEmpty rfl).bind _

variable {shown : α → List Char}

theorem iterate_membersRound_line (hindent : indent.toList.all isSpace = true) {m : String × α}
    (hm : Reads r (shown m.2) m.2) (hcut : Exhausts r (shown m.2)) (before : List (String × α))
    {ms : List (String × List Char)}
    (hrest : FailsWithin (Reader.iterate .malformed (membersRound r) (m :: before))
      (tailText indent ms)) :
    FailsWithin (Reader.iterate .malformed (membersRound r) before)
      (separator before.isEmpty ++ (lineText indent (m.1, shown m.2) ++ tailText indent ms)) :=
  iterate_line (fun _ hp => membersRound_cut hindent hcut before m.1 hp)
    (fun _ hend => membersRound_line hindent hm before m.1 hend) (membersRound_nil r) hrest

/-- What is left of the other members of an object is not read. -/
theorem iterate_members_within (hindent : indent.toList.all isSpace = true)
    {ms : List (String × α)} (hms : ∀ m ∈ ms, Reads r (shown m.2) m.2)
    (hcut : ∀ m ∈ ms, Exhausts r (shown m.2)) {before : List (String × α)}
    (hbefore : before ≠ []) :
    FailsWithin (Reader.iterate .malformed (membersRound r) before)
      (tailText indent (ms.map fun m => (m.1, shown m.2))) := by
  -- on the members that are left: the cut falls into the first line, or behind it
  induction ms generalizing before with
  | nil =>
    have hspaces : ('\n' :: indent.toList).all isSpace = true := hindent
    have hround : FailsWithin (membersRound r before) (tailText indent []) := fun p hp hne =>
      (memberName_end_within hspaces before.isEmpty p hp hne).bind _
    exact hround.iterate .malformed
  | cons m ms ih =>
    have hfirst : before.isEmpty = false := List.isEmpty_eq_false_iff.mpr hbefore
    have hrest := ih (fun m hm => hms m (List.mem_cons_of_mem _ hm))
      (fun m hm => hcut m (List.mem_cons_of_mem _ hm)) (List.cons_ne_nil m before)
    have hline := iterate_membersRound_line hindent (hms m List.mem_cons_self)
      (hcut m List.mem_cons_self) before hrest
    rw [hfirst] at hline
    exact hline

theorem members_within (hindent : indent.toList.all isSpace = true) {ms : List (String × α)}
    (hms : ∀ m ∈ ms, Reads r (shown m.2) m.2) (hcut : ∀ m ∈ ms, Exhausts r (shown m.2)) :
    FailsWithin (members r) (' ' :: objectText indent (ms.map fun m => (m.1, shown m.2))) := by
  refine failsWithin_cons ⟨_, rfl⟩ fun p hp hne => ?_
  have htoken : ∀ cs, token (' ' :: '\x7b' :: cs) = .ok (some '\x7b', '\x7b' :: cs) := fun _ =>
    token_of_spaces [' '] rfl rfl
  cases ms with
  | nil =>
    rcases List.prefix_cons_iff.mp hp with rfl | ⟨p', rfl, hp'⟩
    · exact ⟨_, rfl⟩
    · have hround : FailsWithin (membersRound r []) ([] ++ ['\x7d']) := fun p hp hne =>
        (memberName_end_within rfl true p hp hne).bind _
      exact .bind_of_ok (htoken p') (hround.iterate .malformed p' hp' fun h => hne (by rw [h]; rfl))
  | cons m ms =>
    rw [List.map_cons, objectText_cons] at hp hne
    rcases List.prefix_cons_iff.mp hp with rfl | ⟨p', rfl, hp'⟩
    · exact ⟨_, rfl⟩
    · have hrest := iterate_members_within hindent (fun m hm => hms m (List.mem_cons_of_mem _ hm))
        (fun m hm => hcut m (List.mem_cons_of_mem _ hm)) (List.cons_ne_nil m [])
      have hlines := iterate_membersRound_line hindent (hms m List.mem_cons_self)
        (hcut m List.mem_cons_self) [] hrest
      exact .bind_of_ok (htoken p') (hlines p' hp' fun h => hne (congrArg ('\x7b' :: ·) h))

variable (indent shown) in
/-- An object that is cut off is not read; all of it is read. -/
theorem exhausts_members (hindent : indent.toList.all isSpace = true) {ms : List (String × α)}
    (hms : ∀ m ∈ ms, Reads r (shown m.2) m.2) (hcut : ∀ m ∈ ms, Exhausts r (shown m.2)) :
    Exhausts (members r) (objectText indent (ms.map fun m => (m.1, shown m.2))) := by
  intro p hp
  by_cases heq : p = ' ' :: objectText indent (ms.map fun m => (m.1, shown m.2))
  · have hwhole := members_objectText indent shown hindent hms []
    rw [List.append_nil, ← heq] at hwhole
    exact .inr ⟨ms, hwhole⟩
  · exact .inl (members_within hindent hms hcut p hp heq)

end Members

/-! ## Documents -/

section Fields

variable {fields : List (Json.Field σ)} {set : σ → σ}

theorem fieldRound_cut (hindent : indent.toList.all isSpace = true) (first : Bool)
    (field : Json.Field σ) {q : Record.Partial σ}
    (hfield : fields.find? (·.name == field.name) = some field)
    (hnew : q.seen.contains field.name = false) (hcut : Exhausts field.read text)
    (hp : p <+: separator first ++ lineText indent (field.name, text)) :
    AsksOn (fieldRound fields (first, q)) p := by
  have hround : AsksOn (Record.memberRound fields first q) p := by
    rcases line_cut hindent first field.name hp with h | ⟨p', hp', hname⟩
    · exact .inl (h.bind _)
    · refine .bind_of_ok hname ?_
      simp only [hfield, hnew, Bool.false_eq_true, if_false]
      exact colon_cut hcut hp' fun set : σ → σ =>
        (⟨field.name :: q.seen, set q.value⟩ : Record.Partial σ)
  rcases hround with h | ⟨s, hs⟩
  · exact .inl (h.bind _)
  · exact .inr ⟨(false, s), Reader.bind_of_ok hs _⟩

theorem fieldRound_end_within (hindent : indent.toList.all isSpace = true) (first : Bool)
    (q : Record.Partial σ) : FailsWithin (fieldRound fields (first, q)) (tailText indent []) := by
  intro p hp hne
  have hspaces : ('\n' :: indent.toList).all isSpace = true := hindent
  have hround : Fails (Record.memberRound fields first q) p :=
    (memberName_end_within hspaces first p hp hne).bind _
  exact hround.bind _

theorem fieldRound_nil (fields : List (Json.Field σ)) (s : Bool × Record.Partial σ) :
    Fails (fieldRound fields s) [] := by
  have hround : Fails (Record.memberRound fields s.1 s.2) [] := (memberName_blank s.1 rfl).bind _
  exact hround.bind _

end Fields

variable {c : Content}

theorem exhausts_entries (c : Content) :
    Exhausts (do
      let pairs ← members string
      return fun c' : Content => { c' with entries := Keyed.ofPairs pairs }) c.mapTexts.1 := by
  have hmembers : Exhausts (members string) c.mapTexts.1 :=
    exhausts_members "  " quoted rfl (fun m _ => reads_string m.2) fun m _ _ hp =>
      usesUp_string m.2 hp
  exact hmembers.return _

theorem exhausts_counters (hc : c.WellFormed) :
    Exhausts (do
      let pairs ← members (integer Text.int64Min Text.int64Max)
      return fun c' : Content => { c' with counters := Keyed.ofPairs pairs }) c.mapTexts.2 := by
  have hmembers : Exhausts (members (integer Text.int64Min Text.int64Max)) c.mapTexts.2 :=
    exhausts_members "  " (fun n : Int => (toString n).toList) rfl
      (fun m hm => reads_integer (hc.range m hm).1 (hc.range m hm).2)
      fun m _ _ hp => usesUp_integer _ _ m.2 hp
  exact hmembers.return _

/-- The fields of a document that is cut off are not read. -/
theorem fromObject_within (hc : c.WellFormed) :
    FailsWithin (Record.fromObject fields empty)
      (lineText "" ("entries", c.mapTexts.1) ++ tailText "" [("counters", c.mapTexts.2)]) := by
  have hend : FailsWithin
      (Reader.iterate .malformed (fieldRound fields) (false, ⟨["counters", "entries"], c⟩))
      (tailText "" []) :=
    (fieldRound_end_within rfl false _).iterate .malformed
  have hcounters : FailsWithin
      (Reader.iterate .malformed (fieldRound fields) (false, ⟨["entries"], ⟨c.entries, []⟩⟩))
      (separator false ++ (lineText "" ("counters", c.mapTexts.2) ++ tailText "" [])) :=
    iterate_line
      (fun _ hp => fieldRound_cut rfl false fields[1] rfl rfl (exhausts_counters hc) hp)
      (fun _ hrest => fieldRound_line rfl false fields[1] rfl rfl (reads_counters hc) hrest)
      (fieldRound_nil fields) hend
  have hentries : FailsWithin
      (Reader.iterate .malformed (fieldRound fields) (true, ⟨[], empty⟩))
      (separator true ++
        (lineText "" ("entries", c.mapTexts.1) ++ tailText "" [("counters", c.mapTexts.2)])) :=
    iterate_line
      (fun _ hp => fieldRound_cut rfl true fields[0] rfl rfl (exhausts_entries c) hp)
      (fun _ hrest => fieldRound_line rfl true fields[0] rfl rfl (reads_entries hc) hrest)
      (fieldRound_nil fields) hcounters
  exact hentries

/-- A document that is cut off is not read as one. -/
theorem record_within (hc : c.WellFormed) : FailsWithin (Json.record fields empty) c.document := by
  rw [document_eq]
  refine failsWithin_cons ⟨_, rfl⟩ fun p hp hne => ?_
  have htoken : token ('\x7b' :: p) = .ok (some '\x7b', '\x7b' :: p) := token_of_spaces [] rfl rfl
  have hfields : Fails (Record.fromObject fields empty) p := fromObject_within hc p hp hne
  exact .bind_of_ok htoken (hfields.bind _)

/-- A document that is cut off is corrupted, unless nothing is left of it. -/
theorem ofDocument_cut (hc : c.WellFormed) {p : List Char} (hp : p <+: c.document) (hnil : p ≠ [])
    (hne : p ≠ c.document) : ∃ fault, ofDocument (String.ofList p) = .error (.corrupted fault) := by
  have hvisible : Text.isBlankText (String.ofList p) = false := by
    rw [document_eq] at hp
    obtain ⟨p', rfl, -⟩ := (List.prefix_cons_iff.mp hp).resolve_left hnil
    rw [Text.isBlankText, String.toList_ofList]
    rfl
  -- it begins with a brace, so it does not count as blank
  obtain ⟨fault, hfault⟩ := record_within hc p hp hne
  have hread : Json.read (Json.record fields empty) (String.ofList p) = .error fault := by
    rw [Json.read, String.toList_ofList, hfault]
    rfl
  refine ⟨fault, ?_⟩
  rw [ofDocument, if_neg (by simp [hvisible]), hread]

/-- The bytes of a document, cut off behind the first `k`, are refused. -/
theorem ofBytes_take (hc : c.WellFormed) {k : Nat} (hpos : 0 < k) (hlt : k < c.bytes.length) :
    ofBytes (c.bytes.take k) = .error (.file .notText) ∨
      ∃ fault, ofBytes (c.bytes.take k) = .error (.corrupted fault) := by
  have hlength : (c.bytes.take k).length = k := List.length_take_of_le (Nat.le_of_lt hlt)
  -- the cut falls between two characters, or into one
  rcases Text.Utf8.decode?_cut (List.take_prefix k c.bytes) with ⟨q, hq, htake⟩ | hnone
  · right
    have hnil : q ≠ [] := by
      rintro rfl
      rw [htake, Text.Utf8.encode_ofList] at hlength
      exact absurd hlength (Nat.ne_of_lt hpos)
    have hne : q ≠ c.document := by
      rintro rfl
      rw [htake] at hlength
      exact absurd hlength (Nat.ne_of_gt hlt)
    obtain ⟨fault, hfault⟩ := ofDocument_cut hc hq hnil hne
    refine ⟨fault, ?_⟩
    rw [ofBytes, htake, Text.Utf8.decode?_encode]
    exact hfault
  · left
    rw [ofBytes, hnone]

end Registry.Content

end Primacy
