/-
  Primacy.Proofs.Registry.Outcome

  What a call on a registry file comes to, whatever bytes the file has, if none of its accesses to
  the file fails.  It is refused if the file holds nothing, or if it increments a counter that is at
  its greatest value; then the file stays as it is.  Otherwise it does what it is asked for, and
  what it does not ask for stays.
-/
import Primacy.Proofs.Registry.FileCall
import Primacy.Proofs.Registry.Form

namespace Primacy.Registry

open Text.Utf8 (Bytes)

/-! ## What is written -/

namespace Content

variable {c : Content}

/-- What is written for a content is a document of it. -/
theorem WellFormed.isDocument (hc : c.WellFormed) :
    ∃ text, Text.Utf8.encode text = c.bytes ∧ Text.isBlankText text = false ∧
      IsDocument text c := by
  refine ⟨String.ofList c.document, rfl, ?_, read_eq_ok_iff.mp (read_document hc)⟩
  rw [Text.isBlankText, String.toList_ofList, document_eq]
  rfl

end Content

/-! ## Calls without failing accesses -/

namespace FileCall

variable {q : Request} {old file file' : Bytes} {p p' : FileCall q} {c : Content}

/-- Where a call may stand, and what the file may be then, if it was `old` when the call got its
lock and no access fails. -/
inductive Run (q : Request) (old : Bytes) : FileCall q → Bytes → Prop where
  | start : Run q old .reading old
  | work {p p' : FileCall q} {file file' : Bytes} (run : Run q old p file) (n : Nat)
      (step : p.work? n file = some (p', file')) : Run q old p' file'

/-- How far the file of a call that works on `c` is rewritten. -/
def Stands (c : Content) (old file : Bytes) : FileCall q → Prop
  | reading => file = old
  | emptying .. => file = old ∧ q.changes = true
  | rewinding .. | writing .. | syncing _ => q.changes = true
  | unlocking r => (file = old ∧ (q.changes = false ∨ ∃ e, r = .error e)) ∨
      (file = (c.after q).bytes ∧ q.changes = true ∧ ∃ a, r = .ok a)
  | _ => False

theorem stands_ofRead (h : Content.ofBytes old = .ok c) : (ofRead q old).Stands c old old := by
  rw [ofRead, Content.answerFile_of_ofBytes h]
  cases c.answer q with
  | error e => exact .inl ⟨rfl, .inr ⟨e, rfl⟩⟩
  | ok x =>
    cases hq : q.changes with
    | false => exact .inl ⟨rfl, .inl hq⟩
    | true => exact ⟨rfl, hq⟩

theorem Stands.work (h : p.Stands c old file) (hfits : p.Fits c file) {n : Nat}
    (hwork : p.work? n file = some (p', file')) : p'.Stands c old file' := by
  cases p with
  | opening => exact h.elim
  | locking => exact h.elim
  | reading =>
    cases hwork
    obtain rfl : file = old := h
    exact stands_ofRead hfits
  | emptying a document offset =>
    cases hwork
    exact h.2
  | rewinding a document offset =>
    cases hwork
    exact h
  | writing a rest offset =>
    cases rest with
    | nil =>
      cases hwork
      exact h
    | cons b rest =>
      cases hwork
      exact h
  | syncing a =>
    cases hwork
    exact .inr ⟨hfits.2, h, a, rfl⟩
  | unlocking r => cases hwork
  | done r => cases hwork

theorem Run.stands (hold : Content.ofBytes old = .ok c) (run : Run q old p file) :
    p.Fits c file ∧ p.Stands c old file := by
  induction run with
  | start => exact ⟨hold, rfl⟩
  | work run n step ih =>
    exact ⟨ih.1.work (Content.wellFormed_of_ofBytes hold) step, ih.2.work ih.1 step⟩

/-- A call that finds nothing gives up, and leaves the file as it is. -/
theorem Run.refused {e : RegistryError} (hold : Content.ofBytes old = .error e)
    (run : Run q old p file) : file = old ∧ (p = .reading ∨ p = .unlocking (.error e)) := by
  induction run with
  | start => exact ⟨rfl, .inl rfl⟩
  | work run n step ih =>
    obtain ⟨rfl, rfl | rfl⟩ := ih
    · cases step
      refine ⟨rfl, .inr ?_⟩
      rw [ofRead, Content.answerFile, hold]
      rfl
    · cases step

/-- A call that has the lock makes another access, or it is over. -/
theorem work_or_unlocking (h : p.isInside = true) (n : Nat) (file : Bytes) :
    (∃ r, p = .unlocking r) ∨
      ∃ p' file', p.work? n file = some (p', file') ∧ p'.isInside = true := by
  cases p with
  | opening => cases h
  | locking => cases h
  | reading =>
    refine .inr ⟨_, _, rfl, ?_⟩
    rw [ofRead]
    split <;> rfl
  | emptying a document offset => exact .inr ⟨_, _, rfl, rfl⟩
  | rewinding a document offset => exact .inr ⟨_, _, rfl, rfl⟩
  | writing a rest offset => cases rest <;> exact .inr ⟨_, _, rfl, rfl⟩
  | syncing a => exact .inr ⟨_, _, rfl, rfl⟩
  | unlocking r => exact .inl ⟨r, rfl⟩
  | done r => cases h

theorem Run.isInside (run : Run q old p file) : p.isInside = true := by
  induction run with
  | start => rfl
  | work run n step ih =>
    rcases work_or_unlocking ih n _ with ⟨r, rfl⟩ | ⟨_, _, hwork, hinside⟩
    · cases step
    · cases hwork.symm.trans step
      exact hinside

/-- A call makes finitely many accesses. -/
theorem acc_work (x : FileCall q × Bytes) :
    Acc (fun y x : FileCall q × Bytes => ∃ n, x.1.work? n x.2 = some y) x := by
  have hwf : WellFounded fun y x : FileCall q × Bytes => y.1.distance < x.1.distance :=
    InvImage.wf (fun x : FileCall q × Bytes => x.1.distance) wellFounded_lt
  refine Subrelation.accessible ?_ (hwf.apply x)
  rintro y x ⟨n, hwork⟩
  exact distance_lt_of_work hwork

/-- Every call comes to its end. -/
theorem exists_run (q : Request) (old : Bytes) : ∃ r file, Run q old (.unlocking r) file := by
  have hend : ∀ x : FileCall q × Bytes, Run q old x.1 x.2 →
      ∃ r file, Run q old (.unlocking r) file := by
    intro x
    -- on the accesses that are left
    induction acc_work x with
    | intro x _ ih =>
      intro run
      rcases work_or_unlocking run.isInside 0 x.2 with ⟨r, hr⟩ | ⟨p', file', hwork, -⟩
      · exact ⟨r, x.2, hr ▸ run⟩
      · exact ih (p', file') ⟨0, hwork⟩ (.work run 0 hwork)
  exact hend (.reading, old) .start

/-- A call on a registry file, none of whose accesses to the file fails, makes finitely many of
them, and it makes another one until it is over.  It is refused because the file is no text exactly
if its bytes are those of no text, because it is corrupted exactly if it is a text that is neither
blank nor a registry document, and breaks off exactly if it increments a counter that is at its
greatest value; there is no other failure, and a call that fails leaves the file as it is.  A call
that succeeds does to what the file held what it is asked for, and nothing else; if that changes
nothing the file stays as it is, and otherwise it is a registry document of what it is to hold. -/
theorem comes_to (q : Request) (old : Bytes) :
    Acc (fun y x : FileCall q × Bytes => ∃ n, x.1.work? n x.2 = some y) (.reading, old) ∧
    (∀ p file n, Run q old p file → p.work? n file = none → ∃ r, p = .unlocking r) ∧
    ∀ r file, Run q old (.unlocking r) file →
      (r = .error (.file .notText) ↔ ∀ text, Text.Utf8.encode text ≠ old) ∧
      ((∃ fault, r = .error (.corrupted fault)) ↔
        ∃ text, Text.Utf8.encode text = old ∧ Text.isBlankText text = false ∧
          ∀ c, ¬ Content.IsDocument text c) ∧
      (r = .error .brokenOff ↔ ∃ c name, Content.Holds old c ∧ q = .increment name ∧
        c.counter name = Text.int64Max) ∧
      (∀ e, r = .error e → file = old ∧
        (e = .file .notText ∨ (∃ fault, e = .corrupted fault) ∨ e = .brokenOff)) ∧
      (∀ a, r = .ok a → ∃ c c', Content.Holds old c ∧ c.Does q a c' ∧
        (q.changes = false → file = old) ∧
        (q.changes = true → ∃ text, Text.Utf8.encode text = file ∧
          Text.isBlankText text = false ∧ Content.IsDocument text c')) := by
  refine ⟨acc_work _, fun p file n run hnone => ?_, fun r file run => ?_⟩
  · rcases work_or_unlocking run.isInside n file with hr | ⟨_, _, hwork, -⟩
    · exact hr
    · cases hnone.symm.trans hwork
  rw [← Content.ofBytes_eq_notText_iff, ← Content.ofBytes_eq_corrupted_iff]
  cases hold : Content.ofBytes old with
  | error e =>
    -- the call gives up as soon as it has read the file
    obtain ⟨rfl, hr⟩ := run.refused hold
    obtain rfl : r = .error e := by
      rcases hr with hr | hr
      · cases hr
      · cases hr
        rfl
    refine ⟨by simp, by simp, ?_, ?_, nofun⟩
    · refine iff_of_false (fun h => ?_) ?_
      · cases h
        rcases Content.ofBytes_error hold with h | ⟨_, h⟩ <;> cases h
      · rintro ⟨c, -, hc, -⟩
        cases hold.symm.trans (Content.ofBytes_eq_ok_iff.mpr hc)
    · rintro _ ⟨⟩
      exact ⟨rfl, (Content.ofBytes_error hold).imp_right .inl⟩
  | ok c =>
    have hc := Content.wellFormed_of_ofBytes hold
    have hholds := Content.ofBytes_eq_ok_iff.mp hold
    obtain ⟨⟨rfl, -⟩, hstands⟩ := run.stands hold
    have herror : ∀ {e}, c.reply q = .error e ↔
        e = .brokenOff ∧ ∃ name, q = .increment name ∧ c.counter name = Text.int64Max :=
      hc.reply_eq_error_iff
    refine ⟨iff_of_false (fun h => nomatch (herror.mp h).1) nofun,
      iff_of_false (fun ⟨_, h⟩ => nomatch (herror.mp h).1) nofun, ?_, fun e he => ?_,
      fun a ha => ?_⟩
    · rw [herror]
      constructor
      · rintro ⟨-, name, hq, hmax⟩
        exact ⟨c, name, hholds, hq, hmax⟩
      · rintro ⟨c', name, hc', hq, hmax⟩
        obtain rfl := hholds.unique hc'
        exact ⟨rfl, name, hq, hmax⟩
    · refine ⟨?_, .inr (.inr (herror.mp he).1)⟩
      rcases hstands with ⟨hfile, -⟩ | ⟨-, -, a, ha⟩
      · exact hfile
      · cases ha.symm.trans he
    · refine ⟨c, c.after q, hholds, Content.does_of_answer (Content.answer_of_reply ha), ?_, ?_⟩
      · intro hq
        rcases hstands with ⟨hfile, -⟩ | ⟨-, hchanges, -⟩
        · exact hfile
        · cases hq.symm.trans hchanges
      · intro hq
        rcases hstands with ⟨-, hq' | ⟨e, he⟩⟩ | ⟨rfl, -⟩
        · cases hq.symm.trans hq'
        · cases ha.symm.trans he
        · exact (hc.after q).isDocument

/-! ## A full counter in a document that is an array -/

/-- No entries, and a counter at its greatest value. -/
def fullCounter : String := "[\x7b\x7d,\x7b\"n\":9223372036854775807\x7d]"

open Json in
theorem holds_fullCounter :
    Content.Holds (Text.Utf8.encode fullCounter) ⟨[], [("n", Text.int64Max)]⟩ := by
  have hdigits : IntegerText "9223372036854775807".toList Text.int64Max :=
    .natural ⟨⟨by decide, List.all_eq_true.mp (by decide)⟩, by decide⟩
  have hcounter : MemberText (fun _ => Content.CounterText)
      ("\"n\"".toList ++ ([] ++ ':' :: ([] ++ "9223372036854775807".toList)))
      ("n", Text.int64Max) :=
    .parts (.quotes (.plain ⟨by decide, by decide, by decide⟩ .close)) spaces_nil spaces_nil
      ⟨hdigits, by decide, by decide⟩
  have hcounters := Content.FieldText.counters
    (.braces (.item spaces_nil spaces_nil hcounter (.close spaces_nil)))
  have hentries := Content.FieldText.entries (.braces (.close spaces_nil))
  have harray : ElementsText Content.FieldText true ["entries", "counters"] _ _ :=
    .element spaces_nil spaces_nil hentries
      (.element spaces_nil spaces_nil hcounters (.close spaces_nil))
  refine ⟨fullCounter, rfl,
    .inr ⟨rfl, [], _, [], ?_, spaces_nil, spaces_nil, _, .array harray, rfl⟩⟩
  rfl

/-- The call breaks off, and the file stays as it is. -/
theorem fullCounter_comes_to : ∃ r file,
    Run (.increment "n") (Text.Utf8.encode fullCounter) (.unlocking r) file ∧
      r = .error .brokenOff ∧ file = Text.Utf8.encode fullCounter := by
  obtain ⟨r, file, run⟩ := exists_run (.increment "n") (Text.Utf8.encode fullCounter)
  obtain ⟨-, -, hend⟩ := comes_to (.increment "n") (Text.Utf8.encode fullCounter)
  obtain ⟨-, -, hbroken, hfailed, -⟩ := hend r file run
  have hr : r = .error .brokenOff := hbroken.mpr ⟨_, "n", holds_fullCounter, rfl, by decide⟩
  exact ⟨r, file, run, hr, (hfailed _ hr).1⟩

end FileCall

end Primacy.Registry
