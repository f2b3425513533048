/-
  Primacy.Proofs.Registry.FileCall

  One call on a registry file, step by step: it opens the file, gets its lock, reads the document,
  empties the file, goes back to its beginning, writes the new document piece by piece, hands it to
  the disk and gives the lock up.  As long as nobody else touches the file, the call answers what a
  registry in memory answers, and leaves the document of what that one holds.
-/
import Mathlib.Data.Prod.Lex
import Primacy.Proofs.Registry.Document

namespace Primacy.Registry

open Text.Utf8 (Bytes)

/-! ## A registry in memory -/

namespace Content

/-- What a registry in memory answers. -/
def reply (c : Content) (q : Request) : q.Reply := (c.answer q).map (·.1)

/-- What a registry in memory holds after a request; one that fails changes nothing. -/
def after (c : Content) (q : Request) : Content :=
  match c.answer q with
  | .ok (_, c) => c
  | .error _ => c

/-- What a registry in memory holds after requests, the earliest first. -/
def replay (c : Content) (qs : List Request) : Content := qs.foldl after c

variable {c c' : Content} {q : Request}

theorem reply_after_of_ok {a : q.Answer} (h : c.answer q = .ok (a, c')) :
    c.reply q = .ok a ∧ c.after q = c' := by
  rw [reply, after, h]
  exact ⟨rfl, rfl⟩

theorem reply_after_of_error {e : RegistryError} (h : c.answer q = .error e) :
    c.reply q = .error e ∧ c.after q = c := by
  rw [reply, after, h]
  exact ⟨rfl, rfl⟩

theorem answer_of_reply {a : q.Answer} (h : c.reply q = .ok a) :
    c.answer q = .ok (a, c.after q) := by
  cases hanswer : c.answer q with
  | error e => cases (reply_after_of_error hanswer).1.symm.trans h
  | ok x =>
    obtain ⟨b, c'⟩ := x
    obtain ⟨hreply, hafter⟩ := reply_after_of_ok hanswer
    obtain rfl := Except.ok.inj (hreply.symm.trans h)
    rw [hafter]

theorem reply_eq_error_iff {e : RegistryError} : c.reply q = .error e ↔ c.answer q = .error e := by
  rw [reply]
  cases c.answer q with
  | error e' => simp [Except.map]
  | ok x => refine iff_of_false (fun h => ?_) fun h => ?_ <;> cases h

/-- Only a counter at its greatest value breaks a request off. -/
theorem WellFormed.reply_eq_error_iff (hc : c.WellFormed) {e : RegistryError} :
    c.reply q = .error e ↔
      e = .brokenOff ∧ ∃ name, q = .increment name ∧ c.counter name = Text.int64Max := by
  have hfull : ∀ name, ¬ c.counter name < Text.int64Max ↔ c.counter name = Text.int64Max := by
    intro name
    have hle := hc.counter_le name
    omega
  rw [Content.reply_eq_error_iff, answer_eq_error_iff]
  simp only [hfull]

/-- From `c` a request comes to `r` and leaves `c'`: it does what it asks for, or it breaks off at
a counter that is at its greatest value, and then nothing is changed. -/
structure Serves (c : Content) (q : Request) (r : q.Reply) (c' : Content) : Prop where
  does : ∀ a, r = .ok a → c.Does q a c'
  breaksOff : ∀ e, r = .error e ↔
    e = .brokenOff ∧ ∃ name, q = .increment name ∧ c.counter name = Text.int64Max
  keeps : ∀ e, r = .error e → c' = c

/-- So does a registry in memory. -/
theorem WellFormed.serves (hc : c.WellFormed) (q : Request) :
    c.Serves q (c.reply q) (c.after q) where
  does _ h := does_of_answer (answer_of_reply h)
  breaksOff _ := hc.reply_eq_error_iff
  keeps _ h := (reply_after_of_error (Content.reply_eq_error_iff.mp h)).2

/-- A request that changes nothing leaves the content as it is. -/
theorem after_of_not_changes (hq : q.changes = false) : c.after q = c := by
  cases q with
  | get key => rfl
  | _ => cases hq

theorem WellFormed.after (hc : c.WellFormed) (q : Request) : (c.after q).WellFormed := by
  cases h : c.answer q with
  | ok x => exact (reply_after_of_ok h).2 ▸ hc.answer h
  | error e =>
    rw [(reply_after_of_error h).2]
    exact hc

theorem WellFormed.replay (hc : c.WellFormed) (qs : List Request) : (c.replay qs).WellFormed := by
  induction qs generalizing c with
  | nil => exact hc
  | cons q qs ih => exact ih (hc.after q)

theorem replay_concat (c : Content) (qs : List Request) (q : Request) :
    c.replay (qs ++ [q]) = (c.replay qs).after q := by
  rw [replay, List.foldl_append]
  rfl

/-- A file that holds a content is answered from that content. -/
theorem answerFile_of_ofBytes {file : Bytes} (h : ofBytes file = .ok c) :
    answerFile file q =
      (c.answer q).map fun x => (x.1, if q.changes then some x.2.bytes else none) := by
  rw [answerFile, h]
  cases hanswer : c.answer q with
  | ok x => simp [hanswer, Except.map, bind, Except.bind, pure, Except.pure]
  | error e => simp [hanswer, Except.map, bind, Except.bind]

end Content

/-! ## One call -/

/-- Where a call on a registry file stands.  Offsets are where the next byte goes. -/
inductive FileCall (q : Request) where
  | opening
  | locking
  | reading
  | emptying (a : q.Answer) (document : Bytes) (offset : Nat)
  | rewinding (a : q.Answer) (document : Bytes) (offset : Nat)
  | writing (a : q.Answer) (rest : Bytes) (offset : Nat)
  | syncing (a : q.Answer)
  | unlocking (r : q.Reply)
  | done (r : q.Reply)

/-- The file after `piece` was written at `offset`; a gap before it is filled with zeros. -/
def written (file : Bytes) (offset : Nat) (piece : Bytes) : Bytes :=
  file.take offset ++ List.replicate (offset - file.length) 0 ++ piece ++
    file.drop (offset + piece.length)

theorem written_at_end (file piece : Bytes) :
    written file file.length piece = file ++ piece := by
  rw [written, List.take_length, Nat.sub_self, List.replicate_zero, List.append_nil,
    List.drop_eq_nil_of_le (Nat.le_add_right ..), List.append_nil]

namespace FileCall

variable {q : Request}

/-- The call has the lock of the file. -/
def isInside : FileCall q → Bool
  | opening | locking | done _ => false
  | _ => true

/-- The call has, or had, the lock of the file. -/
def hasEntered : FileCall q → Bool
  | opening | locking => false
  | _ => true

/-- The call has read `file`, from its beginning to its end. -/
def ofRead (q : Request) (file : Bytes) : FileCall q :=
  match Content.answerFile file q with
  | .error e => .unlocking (.error e)
  | .ok (a, none) => .unlocking (.ok a)
  | .ok (a, some document) => .emptying a document file.length

/-- The next step of a call that works on the file, which a piece of at most `n + 1` bytes is
written to. -/
def work? (n : Nat) (file : Bytes) : FileCall q → Option (FileCall q × Bytes)
  | reading => some (ofRead q file, file)
  | emptying a document offset => some (rewinding a document offset, [])
  | rewinding a document _ => some (writing a document 0, file)
  | writing a [] _ => some (syncing a, file)
  | writing a (b :: rest) offset =>
    let piece := (b :: rest).take (n + 1)
    some (writing a (rest.drop n) (offset + piece.length), written file offset piece)
  | syncing a => some (unlocking (.ok a), file)
  | _ => none

/-- A call that has the lock of the file stands where it may stand if the file held `c` when it
got the lock. -/
def Fits (c : Content) (file : Bytes) : FileCall q → Prop
  | reading => Content.ofBytes file = .ok c
  | emptying a document _ => c.reply q = .ok a ∧ document = (c.after q).bytes
  | rewinding a document _ => c.reply q = .ok a ∧ document = (c.after q).bytes ∧ file = []
  | writing a rest offset =>
    c.reply q = .ok a ∧ offset = file.length ∧ file ++ rest = (c.after q).bytes
  | syncing a => c.reply q = .ok a ∧ file = (c.after q).bytes
  | unlocking r => r = c.reply q ∧ Content.ofBytes file = .ok (c.after q)
  | _ => False

variable {c : Content} {file file' : Bytes} {p p' : FileCall q}

theorem isInside_of_fits (h : p.Fits c file) : p.isInside = true := by
  cases p with
  | opening => exact h.elim
  | locking => exact h.elim
  | done => exact h.elim
  | _ => rfl

theorem hasEntered_of_isInside (h : p.isInside = true) : p.hasEntered = true := by
  cases p with
  | opening => exact h
  | locking => exact h
  | _ => rfl

/-- Only a call that has the lock works on the file. -/
theorem isInside_of_work {n : Nat} (h : p.work? n file = some (p', file')) :
    p.isInside = true := by
  cases p with
  | opening => cases h
  | locking => cases h
  | done => cases h
  | _ => rfl

theorem fits_ofRead (h : Content.ofBytes file = .ok c) : (ofRead q file).Fits c file := by
  rw [ofRead, Content.answerFile_of_ofBytes h]
  cases hanswer : c.answer q with
  | error e =>
    obtain ⟨hreply, hafter⟩ := Content.reply_after_of_error hanswer
    refine ⟨hreply.symm, ?_⟩
    rw [hafter]
    exact h
  | ok x =>
    obtain ⟨hreply, hafter⟩ := Content.reply_after_of_ok hanswer
    cases hq : q.changes with
    | false => exact ⟨hreply.symm, Content.after_of_not_changes hq ▸ h⟩
    | true => exact ⟨hreply, hafter ▸ rfl⟩

/-- The next step leaves the call where it may stand. -/
theorem Fits.work (hc : c.WellFormed) (h : p.Fits c file) {n : Nat}
    (hwork : p.work? n file = some (p', file')) : p'.Fits c file' := by
  cases p with
  | opening => exact h.elim
  | locking => exact h.elim
  | reading =>
    cases hwork
    exact fits_ofRead h
  | emptying a document offset =>
    cases hwork
    exact ⟨h.1, h.2, rfl⟩
  | rewinding a document offset =>
    cases hwork
    obtain ⟨hreply, hdocument, rfl⟩ := h
    exact ⟨hreply, rfl, hdocument⟩
  | writing a rest offset =>
    -- what is written so far ends where the next piece goes
    obtain ⟨hreply, rfl, hrest⟩ := h
    cases rest with
    | nil =>
      cases hwork
      exact ⟨hreply, (List.append_nil file).symm.trans hrest⟩
    | cons b rest =>
      cases hwork
      refine ⟨hreply, ?_, ?_⟩
      · rw [written_at_end, List.length_append]
      · rw [written_at_end, List.append_assoc, ← hrest]
        exact congrArg (file ++ ·) (List.take_append_drop (n + 1) (b :: rest))
  | syncing a =>
    cases hwork
    refine ⟨h.1.symm, ?_⟩
    rw [h.2]
    exact Content.ofBytes_bytes (hc.after q)
  | unlocking r => cases hwork
  | done r => cases hwork

/-! ## How far a call is from its end -/

/-- How many steps are in front of a call, those of writing taken for one. -/
def stage : FileCall q → Nat
  | opening => 8
  | locking => 7
  | reading => 6
  | emptying .. => 5
  | rewinding .. => 4
  | writing .. => 3
  | syncing _ => 2
  | unlocking _ => 1
  | done _ => 0

/-- How many bytes are still to be written. -/
def unwritten : FileCall q → Nat
  | writing _ rest _ => rest.length
  | _ => 0

/-- How far a call is from its end. -/
def distance (p : FileCall q) : Nat ×ₗ Nat := toLex (p.stage, p.unwritten)

theorem distance_lt_of_stage (h : p'.stage < p.stage) : p'.distance < p.distance :=
  Prod.Lex.toLex_lt_toLex.mpr (.inl h)

theorem distance_lt_of_work {n : Nat} (h : p.work? n file = some (p', file')) :
    p'.distance < p.distance := by
  cases p with
  | opening => cases h
  | locking => cases h
  | reading =>
    cases h
    refine distance_lt_of_stage ?_
    rw [ofRead]
    split
    · show 1 < 6
      decide
    · show 1 < 6
      decide
    · exact Nat.lt_add_one _
  | emptying =>
    cases h
    exact distance_lt_of_stage (Nat.lt_add_one _)
  | rewinding =>
    cases h
    exact distance_lt_of_stage (Nat.lt_add_one _)
  | writing a rest offset =>
    cases rest with
    | nil =>
      cases h
      exact distance_lt_of_stage (Nat.lt_add_one _)
    | cons b rest =>
      cases h
      refine Prod.Lex.toLex_lt_toLex.mpr (.inr ⟨rfl, ?_⟩)
      show (rest.drop n).length < (b :: rest).length
      rw [List.length_drop, List.length_cons]
      omega
  | syncing =>
    cases h
    exact distance_lt_of_stage (Nat.lt_add_one _)
  | unlocking => cases h
  | done => cases h

end FileCall

end Primacy.Registry
