/-
  Primacy.Proofs.Files.Search

  Finding a text in a file.  No text of one line is found across two of them, so a file of lines
  holds one of some texts if one of its lines does; and a text that stands in a file is found, in
  whatever case, whatever bytes stand around it.  A promotion marker that is found stays so when
  bytes are added, be they UTF-8 or not.
-/
import Primacy.Election.Event
import Primacy.Files.Search
import Primacy.Proofs.Text.Lossy
import Primacy.Proofs.Text.Lowercase

namespace Primacy.Files

open Text
open Text.Utf8 (Bytes encode decodeLossy)

variable {bytes : Bytes} {needles : List String}

theorem containsAny_iff : containsAny bytes needles = true ↔
    ∃ needle ∈ needles, lowercase needle.toList <:+: lowercase (decodeLossy bytes) := by
  rw [containsAny, List.any_eq_true]
  simp only [hasInfix_iff]

/-! ## Lines -/

/-- All of `needles` are texts of one line. -/
def OneLine (needles : List String) : Prop :=
  ∀ needle ∈ needles, '\n' ∉ lowercase needle.toList

theorem decodeLossy_lines (line rest : Bytes) :
    decodeLossy (line ++ 0x0A :: rest) = decodeLossy line ++ '\n' :: decodeLossy rest := by
  have hascii : (0x0A : UInt8) < 0x80 := by decide
  rw [Utf8.decodeLossy_append_ascii hascii, Utf8.decodeLossy_ascii hascii]
  rfl

/-- What is found in a file is found in its first line or behind it. -/
theorem containsAny_lines (plain : OneLine needles) (line rest : Bytes) :
    containsAny (line ++ 0x0A :: rest) needles =
      (containsAny line needles || containsAny rest needles) := by
  rw [Bool.eq_iff_iff, Bool.or_eq_true, containsAny_iff, containsAny_iff, containsAny_iff,
    decodeLossy_lines, lowercase_lines, ← exists_or]
  refine exists_congr fun needle => ?_
  rw [← and_or_left]
  exact and_congr_right fun hn => infix_append_cons (plain needle hn)

/-- Nothing but an empty text is found in an empty file. -/
theorem containsAny_nil (h : ∀ needle ∈ needles, lowercase needle.toList ≠ []) :
    containsAny [] needles = false := by
  rw [← Bool.not_eq_true, containsAny_iff]
  rintro ⟨needle, hn, hinfix⟩
  rw [decodeLossy, Utf8.scan] at hinfix
  exact h needle hn (List.infix_nil.mp hinfix)

/-- The bytes end with the end of a line. -/
def Ended (bytes : Bytes) : Prop := ∃ text, bytes = text ++ [0x0A]

/-- What is found in a file of lines is found in one of them. -/
theorem containsAny_flatten (plain : OneLine needles)
    (nonempty : ∀ needle ∈ needles, lowercase needle.toList ≠ []) {lines : List Bytes}
    (ended : ∀ line ∈ lines, Ended line) :
    containsAny lines.flatten needles = lines.any (containsAny · needles) := by
  induction lines with
  | nil => exact containsAny_nil nonempty
  | cons line lines ih =>
    obtain ⟨⟨text, rfl⟩, hlines⟩ := List.forall_mem_cons.mp ended
    -- the end of a line adds nothing that could be found
    have hline : containsAny (text ++ [0x0A]) needles = containsAny text needles := by
      rw [containsAny_lines plain, containsAny_nil nonempty, Bool.or_false]
    rw [List.flatten_cons, List.append_assoc, List.singleton_append, containsAny_lines plain,
      ih hlines, List.any_cons, hline]

/-! ## Texts -/

/-- An ASCII text that is one of `needles` but for its case is found wherever it stands. -/
theorem containsAny_around {needle text : String} (hn : needle ∈ needles)
    (hascii : ∀ c ∈ text.toList, c.toNat < 0x80)
    (hcase : lowercase text.toList = lowercase needle.toList) (front back : Bytes) :
    containsAny (front ++ encode text ++ back) needles = true := by
  refine containsAny_iff.mpr ⟨needle, hn, ?_⟩
  rw [← hcase]
  obtain ⟨cs, rfl⟩ : ∃ cs, text = String.ofList cs := ⟨_, String.ofList_toList.symm⟩
  rw [String.toList_ofList] at hascii ⊢
  cases cs with
  | nil => exact List.nil_infix
  | cons c cs =>
    rw [Utf8.decodeLossy_around (hascii c List.mem_cons_self)]
    exact lowercase_around hascii _ _

/-! ## Bytes that are added -/

/-- In none of `needles` is there a sigma, which looks at what follows, or the character that is
shown for ill-formed bytes. -/
def Steady (needles : List String) : Prop :=
  ∀ needle ∈ needles, '\u03C3' ∉ lowercase needle.toList ∧ '\u03C2' ∉ lowercase needle.toList ∧
    '\uFFFD' ∉ lowercase needle.toList

/-- What is found in a file is found in it when more bytes are added. -/
theorem containsAny_append (steady : Steady needles) (h : containsAny bytes needles = true)
    (later : Bytes) : containsAny (bytes ++ later) needles = true := by
  obtain ⟨needle, hn, hfound⟩ := containsAny_iff.mp h
  obtain ⟨hsmall, hfinal, hreplacement⟩ := steady needle hn
  obtain ⟨whole, torn, hbytes, hend, rest, hlater⟩ :=
    Utf8.exists_decodeLossy_append bytes later
  have hwhole : lowercase needle.toList <:+: lowercase whole := by
    rw [hbytes] at hfound
    rcases hend with rfl | rfl
    · rwa [List.append_nil] at hfound
    · exact infix_lowercase_of_concat Lowercase.form_replacement hreplacement hsmall hfinal hfound
  refine containsAny_iff.mpr ⟨needle, hn, ?_⟩
  rw [← hlater]
  exact infix_lowercase_append hsmall hfinal hwhole rest

end Primacy.Files

namespace Primacy.Election

open Text
open Text.Utf8 (Bytes encode)

/-! ## Promotion markers -/

theorem ascii_promotionMarkers :
    ∀ marker ∈ promotionMarkers, ∀ c ∈ marker.toList, c.toNat < 0x80 := by
  have hall : promotionMarkers.all (fun marker => marker.toList.all (·.toNat < 0x80)) = true := by
    decide
  intro marker hm c hc
  exact of_decide_eq_true (List.all_eq_true.mp (List.all_eq_true.mp hall marker hm) c hc)

theorem oneLine_promotionMarkers : Files.OneLine promotionMarkers := by
  intro marker hm
  rw [lowercase_ascii (ascii_promotionMarkers marker hm)]
  revert marker
  decide

theorem nonempty_promotionMarkers : ∀ marker ∈ promotionMarkers, lowercase marker.toList ≠ [] := by
  intro marker hm
  rw [lowercase_ascii (ascii_promotionMarkers marker hm)]
  revert marker
  decide

theorem steady_promotionMarkers : Files.Steady promotionMarkers := by
  intro marker hm
  rw [lowercase_ascii (ascii_promotionMarkers marker hm)]
  revert marker
  decide

/-- A marker is found in whatever case it stands, whatever stands around it. -/
theorem containsAny_of_sameButCase {marker text : String} (hm : marker ∈ promotionMarkers)
    (same : SameButCase text marker) (front back : Bytes) :
    Files.containsAny (front ++ encode text ++ back) promotionMarkers = true := by
  have hascii := ascii_promotionMarkers marker hm
  exact Files.containsAny_around hm (same.ascii hascii) (same.lowercase_eq hascii) front back

/-- A line that begins with a marker holds one, whatever is written around it. -/
theorem containsAny_of_marker {marker : String} (hm : marker ∈ promotionMarkers) (rest : String)
    (front back : Bytes) :
    Files.containsAny (front ++ encode (marker ++ rest) ++ back) promotionMarkers = true := by
  rw [Utf8.encode_append, ← List.append_assoc, List.append_assoc]
  exact containsAny_of_sameButCase hm rfl front _

/-- The log line of an event that announces a promotion begins with a marker. -/
theorem exists_marker_of_isMarker {i : Identity} {e : Event} {severity : Severity} {text : String}
    (marks : e.isMarker = true) (line : e.line? i = some (severity, text)) :
    ∃ marker ∈ promotionMarkers, ∃ rest, text = marker ++ rest := by
  cases e with
  | acquired =>
    obtain ⟨-, rfl⟩ := Prod.mk.inj (Option.some.inj line)
    have hdot : acquiredMarker = "Primary lock acquired" ++ "." := by decide
    refine ⟨"Primary lock acquired", by decide, "." ++ (" (" ++ (i.text ++ ")")), ?_⟩
    show acquiredMarker ++ " (" ++ i.text ++ ")" = _
    simp only [hdot, String.append_assoc]
  | resumed =>
    obtain ⟨-, rfl⟩ := Prod.mk.inj (Option.some.inj line)
    refine ⟨resumedMarker, by decide, " (" ++ (i.text ++ ")"), ?_⟩
    show resumedMarker ++ " (" ++ i.text ++ ")" = _
    simp only [String.append_assoc]
  | _ => cases marks

/-- A file in which such a line was written holds a marker, whatever else was. -/
theorem containsAny_of_isMarker {i : Identity} {e : Event} {severity : Severity} {text : String}
    (marks : e.isMarker = true) (line : e.line? i = some (severity, text)) (front back : Bytes) :
    Files.containsAny (front ++ encode text ++ back) promotionMarkers = true := by
  obtain ⟨marker, hm, rest, rfl⟩ := exists_marker_of_isMarker marks line
  exact containsAny_of_marker hm rest front back

end Primacy.Election
