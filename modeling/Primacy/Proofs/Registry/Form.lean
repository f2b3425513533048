/-
  Primacy.Proofs.Registry.Form

  What registry files look like.  A file holds a content if its bytes are those of a text that is
  blank, for the empty content, or those of a registry document: a record of two fields in any of
  the forms of such, with white space around it.  Reading a file finds the content that it holds,
  and finds none only where it holds none.
-/
import Primacy.Proofs.Json.Records
import Primacy.Proofs.Text.Decoding
import Primacy.Registry.Content

namespace Primacy.Registry

open Json
open Text.Utf8 (Bytes)

namespace Content

/-- The value of a counter. -/
def CounterText (text : List Char) (n : Int) : Prop :=
  IntegerText text n ∧ Text.int64Min ≤ n ∧ n ≤ Text.int64Max

/-- The value of a field, with what it sets.  Of two settings for one name the later one wins. -/
inductive FieldText : String → List Char → (Content → Content) → Prop where
  | entries {text : List Char} {pairs : List (String × String)}
      (h : ObjectText (MemberText fun _ => QuotedText) text pairs) :
      FieldText "entries" text fun c => { c with entries := Keyed.ofPairs pairs }
  | counters {text : List Char} {pairs : List (String × Int)}
      (h : ObjectText (MemberText fun _ => CounterText) text pairs) :
      FieldText "counters" text fun c => { c with counters := Keyed.ofPairs pairs }

/-- A registry document without the white space around it.  What it does not set is empty. -/
def DocumentText (text : List Char) (c : Content) : Prop :=
  ∃ values, RecordText ["entries", "counters"] FieldText text values ∧ c = setAll empty values

/-- A registry document. -/
def IsDocument (text : String) (c : Content) : Prop := Surrounded DocumentText text.toList c

/-- A registry file that holds a content. -/
def Holds (file : Bytes) (c : Content) : Prop :=
  ∃ text, Text.Utf8.encode text = file ∧
    ((Text.isBlankText text = true ∧ c = empty) ∨
      (Text.isBlankText text = false ∧ IsDocument text c))

/-! ## Reading -/

theorem field_recognizes {α : Type} {r : Text.Reader Fault α} {V : List Char → α → Prop}
    (hr : Recognizes r V) (set : α → Content → Content) :
    Recognizes (do return set (← r)) fun text f => ∃ a, V text a ∧ f = set a where
  sound := by
    intro cs f rest h
    obtain ⟨a, mid, hread, hpure⟩ := Text.Reader.bind_eq_ok_iff.mp h
    cases hpure
    obtain ⟨spaces, text, hcs, hspaces, htext⟩ := hr.sound hread
    exact ⟨spaces, text, hcs, hspaces, a, htext, rfl⟩
  complete := by
    rintro spaces text f rest hspaces ⟨a, htext, rfl⟩ hrest
    exact Text.Reader.bind_of_ok (hr.complete hspaces htext hrest) _
  starts := by
    rintro text f ⟨a, htext, -⟩
    exact hr.starts htext

theorem recognizes_of_iff {α : Type} {r : Text.Reader Fault α} {V W : List Char → α → Prop}
    (hr : Recognizes r V) (h : ∀ text a, V text a ↔ W text a) : Recognizes r W := by
  have hVW : V = W := funext fun text => funext fun a => propext (h text a)
  exact hVW ▸ hr

theorem fields_recognize :
    ∀ field ∈ fields, Recognizes field.read (FieldText field.name) := by
  intro field hfield
  rcases List.mem_cons.mp hfield with rfl | hfield
  · have hread := field_recognizes (members_recognizes string_recognizes)
      fun pairs c => { c with entries := Keyed.ofPairs pairs }
    refine recognizes_of_iff hread fun text set => ⟨?_, ?_⟩
    · rintro ⟨pairs, h, rfl⟩
      exact .entries h
    · intro h
      generalize hname : "entries" = name at h
      cases h with
      | entries h => exact ⟨_, h, rfl⟩
      | counters h => exact absurd hname (by decide)
  · obtain rfl := List.mem_singleton.mp hfield
    have hread := field_recognizes (members_recognizes integer_recognizes)
      fun pairs c => { c with counters := Keyed.ofPairs pairs }
    refine recognizes_of_iff hread fun text set => ⟨?_, ?_⟩
    · rintro ⟨pairs, h, rfl⟩
      exact .counters h
    · intro h
      generalize hname : "counters" = name at h
      cases h with
      | entries h => exact absurd hname (by decide)
      | counters h => exact ⟨_, h, rfl⟩

/-- A registry document is read as what it stands for, and nothing else is read. -/
theorem read_eq_ok_iff {text : String} {c : Content} :
    Json.read (Json.record fields empty) text = .ok c ↔ IsDocument text c :=
  Json.read_eq_ok_iff (record_recognizes fields_recognize (by decide) empty)

/-- A file is read as what it holds. -/
theorem ofBytes_eq_ok_iff {file : Bytes} {c : Content} :
    ofBytes file = .ok c ↔ Holds file c := by
  have hdocument : ∀ text, ofDocument text = .ok c ↔
      (Text.isBlankText text = true ∧ c = empty) ∨
        (Text.isBlankText text = false ∧ IsDocument text c) := by
    intro text
    rw [ofDocument]
    cases hblank : Text.isBlankText text with
    | true => simp [eq_comm]
    | false =>
      rw [← read_eq_ok_iff]
      cases hread : Json.read (Json.record fields empty) text <;> simp
  rw [ofBytes]
  cases hdecode : Text.Utf8.decode? file with
  | none =>
    refine iff_of_false nofun ?_
    rintro ⟨text, htext, -⟩
    rw [Text.Utf8.decode?_eq_some_iff.mpr htext] at hdecode
    cases hdecode
  | some text =>
    refine (hdocument text).trans ⟨fun h => ⟨text, Text.Utf8.decode?_eq_some_iff.mp hdecode, h⟩, ?_⟩
    rintro ⟨text', htext', h⟩
    rw [Text.Utf8.decode?_eq_some_iff.mpr htext', Option.some.injEq] at hdecode
    exact hdecode ▸ h

/-- A file holds one content at most. -/
theorem Holds.unique {file : Bytes} {c c' : Content} (h : Holds file c) (h' : Holds file c') :
    c = c' :=
  Except.ok.inj ((ofBytes_eq_ok_iff.mpr h).symm.trans (ofBytes_eq_ok_iff.mpr h'))

/-- Whoever refuses a text as corrupted has read it in vain. -/
theorem ofDocument_eq_error_iff {text : String} {e : RegistryError} :
    ofDocument text = .error e ↔ Text.isBlankText text = false ∧
      ∃ fault, Json.read (Json.record fields empty) text = .error fault ∧ e = .corrupted fault := by
  rw [ofDocument]
  cases Text.isBlankText text with
  | true => exact iff_of_false nofun fun h => nomatch h.1
  | false => cases Json.read (Json.record fields empty) text <;> simp [eq_comm]

/-- A file is refused as no text exactly if it is none. -/
theorem ofBytes_eq_notText_iff {file : Bytes} :
    ofBytes file = .error (.file .notText) ↔ ∀ text, Text.Utf8.encode text ≠ file := by
  rw [ofBytes]
  cases hdecode : Text.Utf8.decode? file with
  | none =>
    refine iff_of_true rfl fun text htext => ?_
    rw [Text.Utf8.decode?_eq_some_iff.mpr htext] at hdecode
    cases hdecode
  | some text =>
    refine iff_of_false (fun h => ?_) fun h => h text (Text.Utf8.decode?_eq_some_iff.mp hdecode)
    obtain ⟨-, fault, -, heq⟩ := ofDocument_eq_error_iff.mp h
    cases heq

/-- A file is refused as corrupted exactly if it is a text that is neither blank nor a document. -/
theorem ofBytes_eq_corrupted_iff {file : Bytes} :
    (∃ fault, ofBytes file = .error (.corrupted fault)) ↔
      ∃ text, Text.Utf8.encode text = file ∧ Text.isBlankText text = false ∧
        ∀ c, ¬ IsDocument text c := by
  have hfile : ∀ {text : String}, Text.Utf8.encode text = file →
      ofBytes file = ofDocument text := by
    intro text htext
    rw [ofBytes, Text.Utf8.decode?_eq_some_iff.mpr htext]
  constructor
  · rintro ⟨fault, h⟩
    cases hdecode : Text.Utf8.decode? file with
    | none =>
      rw [ofBytes, hdecode] at h
      cases h
    | some text =>
      have htext := Text.Utf8.decode?_eq_some_iff.mp hdecode
      rw [hfile htext] at h
      obtain ⟨hblank, _, hread, -⟩ := ofDocument_eq_error_iff.mp h
      refine ⟨text, htext, hblank, fun c hc => ?_⟩
      cases (read_eq_ok_iff.mpr hc).symm.trans hread
  · rintro ⟨text, htext, hblank, hnone⟩
    rw [hfile htext]
    cases hread : Json.read (Json.record fields empty) text with
    | ok c => exact absurd (read_eq_ok_iff.mp hread) (hnone c)
    | error fault => exact ⟨fault, ofDocument_eq_error_iff.mpr ⟨hblank, fault, hread, rfl⟩⟩

/-- Whatever is refused is no text, or corrupted. -/
theorem ofBytes_error {file : Bytes} {e : RegistryError} (h : ofBytes file = .error e) :
    e = .file .notText ∨ ∃ fault, e = .corrupted fault := by
  rw [ofBytes] at h
  split at h
  · cases h
    exact .inl rfl
  · obtain ⟨-, fault, -, rfl⟩ := ofDocument_eq_error_iff.mp h
    exact .inr ⟨fault, rfl⟩

end Content

end Primacy.Registry
