/-
  Primacy.Proofs.Registry.Document

  A registry document is read back as the content that it was written for.  Members of an object
  are read one by one, each value up to the comma or the line that follows it; the maps of a
  content are in the order of their keys, so that the pairs which were read make up the same maps.
-/
import Primacy.Proofs.Json.Literal
import Primacy.Proofs.Json.Typed
import Primacy.Proofs.Text.Utf8
import Primacy.Registry.Content

namespace Primacy

open Text (Reader)

/-! ## Members of an object -/

namespace Json

variable {α : Type} {r : Reader Fault α} {a : α}

/-- `r` reads `a` from `text` behind a colon, whatever goes on behind the value. -/
def Reads (r : Reader Fault α) (text : List Char) (a : α) : Prop :=
  ∀ rest, EndsNumber rest → r (' ' :: (text ++ rest)) = .ok (a, rest)

theorem reads_string (s : String) : Reads string (quoted s) s := fun rest _ =>
  string_quoted [' '] rfl s rest

theorem reads_integer {n : Int} (hlow : Text.int64Min ≤ n) (hhigh : n ≤ Text.int64Max) :
    Reads (integer Text.int64Min Text.int64Max) (toString n).toList n := fun _ hrest =>
  integer_toString [' '] rfl hlow hhigh hrest

/-- What stands in front of a member's line: nothing in front of the first one. -/
def separator (first : Bool) : List Char := if first then [] else [',']

variable {spaces rest : List Char} (hspaces : spaces.all isSpace = true)
include hspaces

theorem memberName_quoted (first : Bool) (name : String) (rest : List Char) :
    memberName first (separator first ++ (spaces ++ (quoted name ++ rest))) =
      .ok (some name, rest) := by
  have hname : token (spaces ++ (quoted name ++ rest)) = .ok (some '"', quoted name ++ rest) :=
    token_of_spaces _ hspaces rfl
  have hbody : stringBody (name.toList.flatMap escape ++ ['"'] ++ rest) = .ok (name, rest) := by
    rw [List.append_assoc]
    exact stringBody_escaped name rest
  cases first with
  | true =>
    refine (Reader.bind_of_ok hname _).trans ?_
    have hagain : token (quoted name ++ rest) = .ok (some '"', quoted name ++ rest) :=
      token_of_spaces [] rfl rfl
    refine (Reader.bind_of_ok hagain _).trans ?_
    exact Reader.bind_of_ok hbody _
  | false =>
    have hcomma : token (',' :: (spaces ++ (quoted name ++ rest))) =
        .ok (some ',', ',' :: (spaces ++ (quoted name ++ rest))) :=
      token_of_spaces [] rfl rfl
    have hskip : Reader.skip 1 (',' :: (spaces ++ (quoted name ++ rest))) =
        (.ok ((), spaces ++ (quoted name ++ rest)) : Except Fault _) := rfl
    refine (Reader.bind_of_ok hcomma _).trans ?_
    refine (Reader.bind_of_ok hskip _).trans ?_
    refine (Reader.bind_of_ok hname _).trans ?_
    exact Reader.bind_of_ok hbody _

theorem memberName_close (first : Bool) (rest : List Char) :
    memberName first (spaces ++ '\x7d' :: rest) = .ok (none, rest) :=
  Reader.bind_of_ok (token_of_spaces _ hspaces rfl) _

omit hspaces

theorem colon_of_colon (rest : List Char) : colon (':' :: rest) = .ok ((), rest) :=
  Reader.bind_of_ok (token_of_spaces [] rfl rfl) _

end Json

/-! ## The lines of an object -/

namespace Registry.Content

open Json

/-- The line of one member, from the line break in front of it. -/
def lineText (indent : String) (m : String × List Char) : List Char :=
  ('\n' :: indent.toList ++ "  ".toList) ++ (quoted m.1 ++ (':' :: ' ' :: m.2))

/-- What stands behind a member's line: the other members, and the closing brace. -/
def tailText (indent : String) : List (String × List Char) → List Char
  | [] => ('\n' :: indent.toList) ++ ['\x7d']
  | m :: ms => ',' :: (lineText indent m ++ tailText indent ms)

theorem objectText_cons (indent : String) (m : String × List Char)
    (ms : List (String × List Char)) :
    objectText indent (m :: ms) = '\x7b' :: (lineText indent m ++ tailText indent ms) := by
  -- the lines of `objectText` are separated by a comma and a line break
  have hlines : ∀ m, '\n' :: (List.intercalate [',', '\n'] ((m :: ms).map fun m =>
      indent.toList ++ "  ".toList ++ quoted m.1 ++ ": ".toList ++ m.2) ++
        '\n' :: indent.toList ++ ['\x7d']) = lineText indent m ++ tailText indent ms := by
    induction ms with
    | nil =>
      intro m
      simp [List.intercalate_singleton, lineText, tailText]
    | cons m' ms ih =>
      intro m
      have h := ih m'
      rw [List.map_cons] at h
      rw [List.map_cons, List.map_cons, List.intercalate_cons_cons, tailText, ← h, lineText]
      simp only [List.append_assoc, List.cons_append, List.nil_append]
      rfl
  exact congrArg ('\x7b' :: ·) (hlines m)

theorem tailText_cons_append (indent : String) (m : String × List Char)
    (ms : List (String × List Char)) (rest : List Char) :
    tailText indent (m :: ms) ++ rest =
      separator false ++ (lineText indent m ++ (tailText indent ms ++ rest)) := by
  rw [← List.append_assoc (lineText indent m)]
  rfl

theorem endsNumber_tailText (indent : String) (ms : List (String × List Char)) (rest : List Char) :
    EndsNumber (tailText indent ms ++ rest) := by
  cases ms with
  | nil => exact ⟨'\n', _, rfl, .inr rfl⟩
  | cons m ms => exact ⟨',', _, rfl, .inl rfl⟩

section Members

variable {α : Type} {r : Reader Fault α} {a : α} {indent : String}

theorem memberName_line (hindent : indent.toList.all isSpace = true) (first : Bool) (name : String)
    (text rest : List Char) :
    memberName first (separator first ++ (lineText indent (name, text) ++ rest)) =
      .ok (some name, ':' :: ' ' :: (text ++ rest)) := by
  have hspaces : ('\n' :: indent.toList ++ "  ".toList).all isSpace = true := by
    rw [List.all_append, List.all_cons, hindent]
    rfl
  show memberName first (separator first ++ (('\n' :: indent.toList ++ "  ".toList) ++
    (quoted name ++ (':' :: ' ' :: text)) ++ rest)) = _
  rw [List.append_assoc ('\n' :: _ ++ _), List.append_assoc (quoted name)]
  exact memberName_quoted hspaces first name _

theorem memberName_end (hindent : indent.toList.all isSpace = true) (first : Bool)
    (rest : List Char) :
    memberName first (tailText indent [] ++ rest) = .ok (none, rest) := by
  have hspaces : ('\n' :: indent.toList).all isSpace = true := hindent
  rw [tailText, List.append_assoc]
  exact memberName_close hspaces first rest

/-- One round of `members`. -/
def membersRound (r : Reader Fault α) (before : List (String × α)) :
    Reader Fault (List (String × α) ⊕ List (String × α)) := do
  match ← memberName before.isEmpty with
  | none => pure (.inr before.reverse)
  | some name =>
    colon
    return .inl ((name, ← r) :: before)

theorem membersRound_line (hindent : indent.toList.all isSpace = true) {text : List Char}
    (hr : Reads r text a) (before : List (String × α)) (name : String) {rest : List Char}
    (hrest : EndsNumber rest) :
    membersRound r before
      (separator before.isEmpty ++ (lineText indent (name, text) ++ rest)) =
      .ok (.inl ((name, a) :: before), rest) := by
  refine (Reader.bind_of_ok (memberName_line hindent before.isEmpty name text rest) _).trans ?_
  refine (Reader.bind_of_ok (colon_of_colon _) _).trans ?_
  exact Reader.bind_of_ok (hr rest hrest) _

theorem length_lt_of_line (first : Bool) (m : String × List Char) (rest : List Char) :
    rest.length < (separator first ++ (lineText indent m ++ rest)).length := by
  rw [List.length_append, List.length_append, lineText, List.append_assoc, List.cons_append,
    List.length_cons]
  omega

variable {text : α → List Char}

theorem iterate_members (hindent : indent.toList.all isSpace = true) {ms : List (String × α)}
    (hms : ∀ m ∈ ms, Reads r (text m.2) m.2) {before : List (String × α)} (hbefore : before ≠ [])
    (rest : List Char) :
    Reader.iterate .malformed (membersRound r) before
      (tailText indent (ms.map fun m => (m.1, text m.2)) ++ rest) =
      .ok (before.reverse ++ ms, rest) := by
  -- on the members that are left, one round for each
  induction ms generalizing before with
  | nil =>
    rw [List.append_nil]
    refine Reader.iterate_of_inr ?_
    exact Reader.bind_of_ok (memberName_end hindent before.isEmpty rest) _
  | cons m ms ih =>
    have hfirst : before.isEmpty = false := List.isEmpty_eq_false_iff.mpr hbefore
    have hround := membersRound_line hindent (hms m List.mem_cons_self) before m.1
      (endsNumber_tailText indent (ms.map fun m => (m.1, text m.2)) rest)
    rw [hfirst] at hround
    rw [List.map_cons, tailText_cons_append,
      Reader.iterate_of_inl hround (length_lt_of_line _ _ _),
      ih (fun m hm => hms m (List.mem_cons_of_mem _ hm)) (List.cons_ne_nil _ _),
      List.reverse_cons, List.append_assoc]
    rfl

variable (indent text) in
/-- An object is read back as its members, in order. -/
theorem members_objectText (hindent : indent.toList.all isSpace = true) {ms : List (String × α)}
    (hms : ∀ m ∈ ms, Reads r (text m.2) m.2) (rest : List Char) :
    members r (' ' :: (objectText indent (ms.map fun m => (m.1, text m.2)) ++ rest)) =
      .ok (ms, rest) := by
  have htoken : ∀ cs, token (' ' :: '\x7b' :: cs) = .ok (some '\x7b', '\x7b' :: cs) := fun _ =>
    token_of_spaces [' '] rfl rfl
  cases ms with
  | nil =>
    have hclose : memberName true ([] ++ '\x7d' :: rest) = .ok (none, rest) :=
      memberName_close rfl true rest
    refine (Reader.bind_of_ok (htoken _) _).trans ?_
    exact Reader.iterate_of_inr (Reader.bind_of_ok hclose _)
  | cons m ms =>
    have hround := membersRound_line hindent (hms m List.mem_cons_self) [] m.1
      (endsNumber_tailText indent (ms.map fun m => (m.1, text m.2)) rest)
    have hrest := iterate_members hindent (fun m hm => hms m (List.mem_cons_of_mem _ hm))
      (List.cons_ne_nil (m.1, m.2) []) rest
    rw [List.map_cons, objectText_cons, List.cons_append, List.append_assoc]
    refine (Reader.bind_of_ok (htoken _) _).trans ?_
    refine (Reader.iterate_of_inl hround (length_lt_of_line true _ _)).trans ?_
    exact hrest

variable (indent text) in
theorem reads_members (hindent : indent.toList.all isSpace = true) {ms : List (String × α)}
    (hms : ∀ m ∈ ms, Reads r (text m.2) m.2) :
    Reads (members r) (objectText indent (ms.map fun m => (m.1, text m.2))) ms := fun rest _ =>
  members_objectText indent text hindent hms rest

end Members

/-! ## The fields of a content -/

section Fields

variable {σ : Type} {fields : List (Json.Field σ)} {set : σ → σ} {text : List Char}

/-- One round of `Record.fromObject`. -/
def fieldRound (fields : List (Json.Field σ)) (s : Bool × Record.Partial σ) :
    Reader Fault ((Bool × Record.Partial σ) ⊕ Record.Partial σ) := do
  match ← Record.memberRound fields s.1 s.2 with
  | .inl p => pure (.inl (false, p))
  | .inr p => pure (.inr p)

variable {indent : String} (hindent : indent.toList.all isSpace = true)
include hindent

theorem fieldRound_line (first : Bool) (field : Json.Field σ) {p : Record.Partial σ}
    (hfield : fields.find? (·.name == field.name) = some field)
    (hnew : p.seen.contains field.name = false) (hread : Reads field.read text set)
    {rest : List Char} (hrest : EndsNumber rest) :
    fieldRound fields (first, p)
      (separator first ++ (lineText indent (field.name, text) ++ rest)) =
      .ok (.inl (false, ⟨field.name :: p.seen, set p.value⟩), rest) := by
  have hround : Record.memberRound fields first p
      (separator first ++ (lineText indent (field.name, text) ++ rest)) =
      .ok (.inl ⟨field.name :: p.seen, set p.value⟩, rest) := by
    refine (Reader.bind_of_ok (memberName_line hindent first field.name text rest) _).trans ?_
    simp only [hfield, hnew]
    refine (Reader.bind_of_ok (colon_of_colon _) _).trans ?_
    exact Reader.bind_of_ok (hread rest hrest) _
  exact Reader.bind_of_ok hround _

theorem fieldRound_end (first : Bool) (p : Record.Partial σ) (rest : List Char) :
    fieldRound fields (first, p) (tailText indent [] ++ rest) = .ok (.inr p, rest) := by
  have hround : Record.memberRound fields first p (tailText indent [] ++ rest) =
      .ok (.inr p, rest) :=
    Reader.bind_of_ok (memberName_end hindent first rest) _
  exact Reader.bind_of_ok hround _

end Fields

/-- The maps are in the order of their keys, and the counters are 64-bit numbers. -/
structure WellFormed (c : Content) : Prop where
  entries : c.entries.Ordered
  counters : c.counters.Ordered
  range : ∀ m ∈ c.counters, Text.int64Min ≤ m.2 ∧ m.2 ≤ Text.int64Max

variable {c c' : Content}

theorem reads_entries (hc : c.WellFormed) :
    Reads (do
      let pairs ← members string
      return fun c' : Content => { c' with entries := Keyed.ofPairs pairs })
      (objectText "  " (c.entries.map fun e => (e.1, quoted e.2)))
      (fun c' => { c' with entries := c.entries }) := by
  intro rest hrest
  have hmembers := reads_members "  " quoted rfl fun m (_ : m ∈ c.entries) => reads_string m.2
  refine (Reader.bind_of_ok (hmembers rest hrest) _).trans ?_
  rw [Keyed.ofPairs_of_ordered hc.entries]
  rfl

theorem reads_counters (hc : c.WellFormed) :
    Reads (do
      let pairs ← members (integer Text.int64Min Text.int64Max)
      return fun c' : Content => { c' with counters := Keyed.ofPairs pairs })
      (objectText "  " (c.counters.map fun e => (e.1, (toString e.2).toList)))
      (fun c' => { c' with counters := c.counters }) := by
  intro rest hrest
  have hmembers := reads_members "  " (fun n : Int => (toString n).toList) rfl fun m hm =>
    reads_integer (hc.range m hm).1 (hc.range m hm).2
  refine (Reader.bind_of_ok (hmembers rest hrest) _).trans ?_
  rw [Keyed.ofPairs_of_ordered hc.counters]
  rfl

/-- The text of the two maps. -/
def mapTexts (c : Content) : List Char × List Char :=
  (objectText "  " (c.entries.map fun e => (e.1, quoted e.2)),
   objectText "  " (c.counters.map fun e => (e.1, (toString e.2).toList)))

theorem document_eq (c : Content) : c.document = '\x7b' ::
    (lineText "" ("entries", c.mapTexts.1) ++ tailText "" [("counters", c.mapTexts.2)]) :=
  objectText_cons ..

theorem fromObject_document (hc : c.WellFormed) :
    Record.fromObject fields empty
      (lineText "" ("entries", c.mapTexts.1) ++ (tailText "" [("counters", c.mapTexts.2)] ++ [])) =
      .ok (⟨["counters", "entries"], c⟩, []) := by
  -- a round for each map, and one for the closing brace
  have hentries : fieldRound fields (true, ⟨[], empty⟩)
      (lineText "" ("entries", c.mapTexts.1) ++ (tailText "" [("counters", c.mapTexts.2)] ++ [])) =
      .ok (.inl (false, ⟨["entries"], ⟨c.entries, []⟩⟩),
        tailText "" [("counters", c.mapTexts.2)] ++ []) :=
    fieldRound_line rfl true fields[0] rfl rfl (reads_entries hc) (endsNumber_tailText _ _ _)
  have hcounters : fieldRound fields (false, ⟨["entries"], ⟨c.entries, []⟩⟩)
      (separator false ++ (lineText "" ("counters", c.mapTexts.2) ++ (tailText "" [] ++ []))) =
      .ok (.inl (false, ⟨["counters", "entries"], c⟩), tailText "" [] ++ []) :=
    fieldRound_line rfl false fields[1] rfl rfl (reads_counters hc) (endsNumber_tailText _ _ _)
  have hend : fieldRound fields (false, ⟨["counters", "entries"], c⟩) (tailText "" [] ++ []) =
      .ok (.inr ⟨["counters", "entries"], c⟩, []) :=
    fieldRound_end rfl false _ []
  calc
    _ = Reader.iterate .malformed (fieldRound fields) (false, ⟨["entries"], ⟨c.entries, []⟩⟩)
          (tailText "" [("counters", c.mapTexts.2)] ++ []) :=
      Reader.iterate_of_inl hentries (length_lt_of_line true _ _)
    _ = Reader.iterate .malformed (fieldRound fields) (false, ⟨["counters", "entries"], c⟩)
          (tailText "" [] ++ []) := by
      rw [tailText_cons_append]
      exact Reader.iterate_of_inl hcounters (length_lt_of_line false _ _)
    _ = .ok (⟨["counters", "entries"], c⟩, []) := Reader.iterate_of_inr hend

/-- A document is read back as the content that it was written for. -/
theorem read_document (hc : c.WellFormed) :
    Json.read (Json.record fields empty) (String.ofList c.document) = .ok c := by
  have hrecord : Json.record fields empty c.document = .ok (c, []) := by
    rw [document_eq, ← List.append_nil (tailText "" _)]
    refine (Reader.bind_of_ok (token_of_spaces [] rfl rfl) _).trans ?_
    exact Reader.bind_of_ok (fromObject_document hc) _
  rw [Json.read, String.toList_ofList, hrecord]
  rfl

/-- The bytes of a registry file are read back as the content that they were written for. -/
theorem ofBytes_bytes (hc : c.WellFormed) : ofBytes c.bytes = .ok c := by
  have hvisible : Text.isBlankText (String.ofList c.document) = false := by
    rw [Text.isBlankText, String.toList_ofList, document_eq]
    rfl
  rw [ofBytes, bytes, Text.Utf8.decode?_encode]
  show ofDocument (String.ofList c.document) = .ok c
  rw [ofDocument, if_neg (by simp [hvisible]), read_document hc]

/-- A file of blanks holds nothing. -/
theorem ofBytes_of_blank {file : Text.Utf8.Bytes} {text : String}
    (htext : Text.Utf8.decode? file = some text) (hblank : Text.isBlankText text = true) :
    ofBytes file = .ok empty := by
  rw [ofBytes, htext]
  exact if_pos hblank

/-- A file that holds nothing counts as the document of an empty registry. -/
theorem ofBytes_nil : ofBytes [] = .ok empty := by
  have htext := Text.Utf8.decode?_encode []
  rw [Text.Utf8.encode_ofList] at htext
  exact ofBytes_of_blank htext rfl

/-! ## Contents that have a document -/

theorem wellFormed_empty : empty.WellFormed where
  entries := List.Pairwise.nil
  counters := List.Pairwise.nil
  range := nofun

theorem WellFormed.insert_counter (hc : c.WellFormed) (name : String) {n : Int}
    (hlow : Text.int64Min ≤ n) (hhigh : n ≤ Text.int64Max) :
    (Content.mk c.entries (c.counters.insert name n)).WellFormed where
  entries := hc.entries
  counters := hc.counters.insert name n
  range m hm := by
    rcases Keyed.mem_insert hm with rfl | hm
    · exact ⟨hlow, hhigh⟩
    · exact hc.range m hm

theorem WellFormed.counter_ge (hc : c.WellFormed) (name : String) :
    Text.int64Min ≤ c.counter name := by
  rw [counter]
  cases hget : c.counters.get? name with
  | none => decide
  | some n => exact (hc.range _ (Keyed.mem_of_get? hget)).1

theorem WellFormed.counter_le (hc : c.WellFormed) (name : String) :
    c.counter name ≤ Text.int64Max := by
  rw [counter]
  cases hget : c.counters.get? name with
  | none => decide
  | some n => exact (hc.range _ (Keyed.mem_of_get? hget)).2

/-- Requests leave a content one that has a document. -/
theorem WellFormed.answer (hc : c.WellFormed) {q : Request} {a : q.Answer}
    (h : c.answer q = .ok (a, c')) : c'.WellFormed := by
  cases q with
  | put key value =>
    cases h
    exact ⟨hc.entries.insert key value, hc.counters, hc.range⟩
  | get key =>
    cases h
    exact hc
  | increment name =>
    have hlow := hc.counter_ge name
    simp only [Content.answer] at h
    split at h
    · next hlt =>
      cases h
      exact hc.insert_counter name (by omega) (by omega)
    · exact nomatch h
  | zero name =>
    cases h
    exact hc.insert_counter name (by decide) (by decide)

open Json in
/-- What a reader gives is well-formed: the maps are made by setting keys, and the counters are
read as 64-bit numbers. -/
theorem yields_wellFormed : Yields (Json.record fields empty) WellFormed := by
  refine yields_record (fun field hfield => ?_) wellFormed_empty
  rcases List.mem_cons.mp hfield with rfl | hfield
  · refine yields_bind fun pairs => yields_pure fun c hc => ?_
    exact ⟨Keyed.ordered_ofPairs pairs, hc.counters, hc.range⟩
  · rw [List.mem_singleton.mp hfield]
    refine (yields_members (yields_integer _ _)).bind fun pairs hpairs => yields_pure fun c hc => ?_
    exact ⟨hc.entries, Keyed.ordered_ofPairs pairs, fun m hm => hpairs m (Keyed.mem_ofPairs hm)⟩

theorem wellFormed_of_ofBytes {file : Text.Utf8.Bytes} (h : ofBytes file = .ok c) : c.WellFormed := by
  rw [ofBytes] at h
  split at h
  · cases h
  · rw [ofDocument] at h
    split at h
    · cases h
      exact wellFormed_empty
    · split at h
      · next hread =>
        cases h
        exact yields_wellFormed.read hread
      · cases h

end Registry.Content

end Primacy
