/-
  Primacy.Proofs.Registry.Cut

  A call on a registry file that is cut off: its process dies, or one of its accesses to the file
  fails.  The file is rewritten in place, so what is left of it depends on how far the call got.
  Before the file is emptied it holds the old document, and from the end of writing on the new one;
  in between it holds as much of the new document as was written, which is an empty registry if
  that is nothing, and no registry if it is not all of it.
-/
import Primacy.Proofs.Registry.FileCall
import Primacy.Proofs.Registry.Truncated

namespace Primacy.Registry

open Text.Utf8 (Bytes)

/-! ## A call that may fail -/

/-- How far a call has got with the rewriting of the file. -/
inductive Phase where
  /-- The file was not emptied, or there is nothing to be written. -/
  | untouched
  /-- The file was emptied, and writing it is not over. -/
  | rewriting
  | rewritten
  deriving DecidableEq

/-- The phase behind a step that a call at the given point takes. -/
def Phase.next {q : Request} : FileCall q → Phase → Phase
  | .emptying .., _ => .rewriting
  | .writing _ [] _, _ => .rewritten
  | _, phase => phase

/-- A call that has the lock of the file. -/
structure Attempt (q : Request) where
  point : FileCall q
  file : Bytes
  phase : Phase

namespace Attempt

variable {q : Request}

/-- The call has just got the lock. -/
def start (q : Request) (file : Bytes) : Attempt q := ⟨.reading, file, .untouched⟩

/-- The next access to the file, of which a piece of at most `n + 1` bytes is written. -/
def work? (t : Attempt q) (n : Nat) : Option (Attempt q) :=
  (t.point.work? n t.file).map fun x => ⟨x.1, x.2, t.phase.next t.point⟩

/-- The next access to the file fails: the file stays as it is, and the call gives the lock up. -/
def fail? (t : Attempt q) (fault : Files.Fault) : Option (Attempt q) :=
  (t.point.work? 0 t.file).map fun _ => { t with point := .unlocking (.error (.file fault)) }

/-- The states of a call on a file that holds `file` when it gets the lock.  The process of the
call may die in each of them: the file stays as it is, and the lock is given up all the same. -/
inductive Reachable (q : Request) (file : Bytes) : Attempt q → Prop where
  | start : Reachable q file (.start q file)
  | work {t t' : Attempt q} (reachable : Reachable q file t) (n : Nat)
      (step : t.work? n = some t') : Reachable q file t'
  | fail {t t' : Attempt q} (reachable : Reachable q file t) (fault : Files.Fault)
      (step : t.fail? fault = some t') : Reachable q file t'

/-! ## What a step keeps -/

/-- What is left of a file that held `c` and was `old`. -/
def Left (c : Content) (q : Request) (old file : Bytes) : Phase → Prop
  | .untouched => file = old
  | .rewriting => ∃ k ≤ (c.after q).bytes.length, file = (c.after q).bytes.take k
  | .rewritten => file = (c.after q).bytes

/-- The phase in which a call stands at the given point, unless an access failed. -/
def InPhase : FileCall q → Phase → Prop
  | .reading, phase => phase = .untouched
  | .emptying .., phase => phase = .untouched ∧ q.changes = true
  | .rewinding .., phase => phase = .rewriting
  | .writing .., phase => phase = .rewriting
  | .syncing _, phase => phase = .rewritten
  | .unlocking _, phase => phase ≠ .rewriting
  | _, _ => False

/-- The file is what its phase says, and is rewritten only for a request that changes it and
succeeds; the call stands where it may stand, or gives up. -/
structure Sound (c : Content) (old : Bytes) (t : Attempt q) : Prop where
  left : Left c q old t.file t.phase
  changes : t.phase ≠ .untouched → q.changes = true ∧ ∃ a, c.reply q = .ok a
  course : t.point.Fits c t.file ∧ InPhase t.point t.phase ∨
    ∃ fault, t.point = .unlocking (.error (.file fault))

variable {c : Content} {old : Bytes} {t t' : Attempt q}

theorem sound_start (h : Content.ofBytes old = .ok c) : (start q old).Sound c old where
  left := rfl
  changes := fun h => absurd rfl h
  course := .inl ⟨h, rfl⟩

theorem inPhase_ofRead (q : Request) (hold : Content.ofBytes old = .ok c) :
    InPhase (FileCall.ofRead q old) .untouched := by
  have hne : Phase.untouched ≠ Phase.rewriting := by decide
  rw [FileCall.ofRead, Content.answerFile_of_ofBytes hold]
  cases c.answer q with
  | error e => exact hne
  | ok x =>
    cases hq : q.changes with
    | false => exact hne
    | true => exact ⟨rfl, hq⟩

/-- An access that fails leaves the file as it is. -/
theorem Sound.fail (ht : t.Sound c old) {fault : Files.Fault} (h : t.fail? fault = some t') :
    t'.Sound c old := by
  obtain ⟨_, -, rfl⟩ := Option.map_eq_some_iff.mp h
  exact ⟨ht.left, ht.changes, .inr ⟨fault, rfl⟩⟩

/-- What was written is the beginning of the new document. -/
theorem left_of_append {file rest : Bytes} (h : file ++ rest = (c.after q).bytes) :
    Left c q old file .rewriting := by
  refine ⟨file.length, ?_, ?_⟩
  · rw [← h, List.length_append]
    exact Nat.le_add_right ..
  · rw [← h, List.take_left]

/-- An access to the file. -/
theorem Sound.work (hc : c.WellFormed) (ht : t.Sound c old) {n : Nat}
    (h : t.work? n = some t') : t'.Sound c old := by
  obtain ⟨⟨p, file⟩, hwork, rfl⟩ := Option.map_eq_some_iff.mp h
  obtain ⟨point, before, phase⟩ := t
  obtain ⟨hleft, hchanges, ⟨hfits, hphase⟩ | ⟨fault, hfault⟩⟩ := ht
  · have hfits' : p.Fits c file := hfits.work hc hwork
    cases point with
    | reading =>
      cases hwork
      obtain rfl := hphase
      exact ⟨hleft, hchanges, .inl ⟨hfits', inPhase_ofRead q hfits⟩⟩
    | emptying a document offset =>
      cases hwork
      exact ⟨⟨0, Nat.zero_le _, rfl⟩, fun _ => ⟨hphase.2, a, hfits.1⟩, .inl ⟨hfits', rfl⟩⟩
    | rewinding a document offset =>
      cases hwork
      exact ⟨hleft, hchanges, .inl ⟨hfits', hphase⟩⟩
    | writing a rest offset =>
      -- the end of writing makes the file the new document
      obtain rfl := hphase
      have hrewriting := hchanges nofun
      cases rest with
      | nil =>
        cases hwork
        exact ⟨hfits'.2, fun _ => hrewriting, .inl ⟨hfits', rfl⟩⟩
      | cons b rest =>
        cases hwork
        exact ⟨left_of_append hfits'.2.2, fun _ => hrewriting, .inl ⟨hfits', rfl⟩⟩
    | syncing a =>
      cases hwork
      obtain rfl := hphase
      exact ⟨hleft, hchanges, .inl ⟨hfits', nofun⟩⟩
    | _ => cases hwork
  · -- a call that gives up makes no access
    cases hfault
    cases hwork

theorem Reachable.sound (hold : Content.ofBytes old = .ok c) (h : Reachable q old t) :
    t.Sound c old := by
  induction h with
  | start => exact sound_start hold
  | work reachable n step ih => exact ih.work (Content.wellFormed_of_ofBytes hold) step
  | fail reachable fault step ih => exact ih.fail step

/-! ## Every cut -/

theorem ofRead_of_reply {a : q.Answer} (hold : Content.ofBytes old = .ok c)
    (hreply : c.reply q = .ok a) (hq : q.changes = true) :
    FileCall.ofRead q old = .emptying a (c.after q).bytes old.length := by
  rw [FileCall.ofRead, Content.answerFile_of_ofBytes hold]
  cases hanswer : c.answer q with
  | error e =>
    rw [(Content.reply_after_of_error hanswer).1] at hreply
    cases hreply
  | ok x =>
    obtain ⟨b, c'⟩ := x
    obtain ⟨hb, rfl⟩ := Content.reply_after_of_ok hanswer
    obtain rfl := Except.ok.inj (hb.symm.trans hreply)
    simp only [Except.map, hq, if_true]

/-- Writing may stop behind any byte of the new document. -/
theorem exists_rewriting {a : q.Answer} (hold : Content.ofBytes old = .ok c)
    (hreply : c.reply q = .ok a) (hq : q.changes = true) {k : Nat}
    (hk : k ≤ (c.after q).bytes.length) :
    ∃ t, Reachable q old t ∧ t.phase = .rewriting ∧ t.file = (c.after q).bytes.take k := by
  -- three steps lead to the point where the first byte is written
  have hread : (start q old).work? 0 =
      some ⟨.emptying a (c.after q).bytes old.length, old, .untouched⟩ := by
    show some (Attempt.mk (FileCall.ofRead q old) old .untouched) = _
    rw [ofRead_of_reply hold hreply hq]
  have hemptying : Reachable q old ⟨.emptying a (c.after q).bytes old.length, old, .untouched⟩ :=
    .work .start 0 hread
  have hrewinding : Reachable q old ⟨.rewinding a (c.after q).bytes old.length, [], .rewriting⟩ :=
    .work hemptying 0 rfl
  have hwriting : Reachable q old ⟨.writing a (c.after q).bytes 0, [], .rewriting⟩ :=
    .work hrewinding 0 rfl
  cases k with
  | zero => exact ⟨_, hwriting, rfl, rfl⟩
  | succ k =>
    -- one piece of `k + 1` bytes
    cases hdocument : (c.after q).bytes with
    | nil =>
      rw [hdocument] at hk
      exact absurd hk (Nat.not_succ_le_zero k)
    | cons b rest =>
      rw [hdocument] at hwriting
      refine ⟨_, .work hwriting k rfl, rfl, ?_⟩
      exact written_at_end [] ((b :: rest).take (k + 1))

/-- Every operation on `file` fails with `e`, and leaves the file as it is. -/
def Refused (file : Bytes) (e : RegistryError) : Prop :=
  ∀ (q : Request) (n : Nat), (start q file).work? n =
    some ⟨.unlocking (.error e), file, .untouched⟩

theorem refused_of_ofBytes {file : Bytes} {e : RegistryError}
    (h : Content.ofBytes file = .error e) : Refused file e := by
  intro q n
  show some (Attempt.mk (FileCall.ofRead q file) file .untouched) = _
  rw [FileCall.ofRead, Content.answerFile, h]
  rfl

/-- Part of the new document is an empty registry if it is nothing, and no registry at all if it is
not all of it. -/
theorem read_take (hc : c.WellFormed) {k : Nat} (hk : k ≤ c.bytes.length) :
    (k = 0 ∧ Content.ofBytes (c.bytes.take k) = .ok .empty) ∨
    (0 < k ∧ k < c.bytes.length ∧ ∃ e, Refused (c.bytes.take k) e ∧
      (e = .file .notText ∨ ∃ fault, e = .corrupted fault)) ∨
    (k = c.bytes.length ∧ Content.ofBytes (c.bytes.take k) = .ok c) := by
  rcases Nat.eq_zero_or_pos k with rfl | hpos
  · exact .inl ⟨rfl, Content.ofBytes_nil⟩
  rcases Nat.lt_or_eq_of_le hk with hlt | rfl
  · refine .inr (.inl ⟨hpos, hlt, ?_⟩)
    rcases Content.ofBytes_take hc hpos hlt with h | ⟨fault, h⟩
    · exact ⟨_, refused_of_ofBytes h, .inl rfl⟩
    · exact ⟨_, refused_of_ofBytes h, .inr ⟨fault, rfl⟩⟩
  · refine .inr (.inr ⟨rfl, ?_⟩)
    rw [List.take_length]
    exact Content.ofBytes_bytes hc

/-- A call on a registry file that holds `c` is cut off wherever it got to.  If it had not emptied
the file, which it only does for a request that changes the content and succeeds, the file is as
it was; from the end of writing on, and whenever the call succeeded, it is read as what a registry
in memory holds after the call.  In between it holds the first bytes of the new document: none of
them is an empty registry, and some of them, but not all, are refused by every operation from then
on.  Writing may be cut off behind any byte. -/
theorem remains (hold : Content.ofBytes old = .ok c) (h : Reachable q old t) :
    (t.phase ≠ .untouched → q.changes = true ∧ ∃ a, c.reply q = .ok a) ∧
    (t.phase = .untouched → t.file = old ∧ Content.ofBytes t.file = .ok c) ∧
    (t.phase = .rewriting → ∃ k, t.file = (c.after q).bytes.take k ∧
      ((k = 0 ∧ Content.ofBytes t.file = .ok .empty) ∨
       (0 < k ∧ k < (c.after q).bytes.length ∧ ∃ e, Refused t.file e ∧
        (e = .file .notText ∨ ∃ fault, e = .corrupted fault)) ∨
       (k = (c.after q).bytes.length ∧ Content.ofBytes t.file = .ok (c.after q)))) ∧
    (t.phase = .rewritten →
      t.file = (c.after q).bytes ∧ Content.ofBytes t.file = .ok (c.after q)) ∧
    (∀ a, t.point = .unlocking (.ok a) →
      c.reply q = .ok a ∧ Content.ofBytes t.file = .ok (c.after q)) ∧
    (∀ a, c.reply q = .ok a → q.changes = true → ∀ k ≤ (c.after q).bytes.length,
      ∃ t', Reachable q old t' ∧ t'.phase = .rewriting ∧
        t'.file = (c.after q).bytes.take k) := by
  have hc : (c.after q).WellFormed := (Content.wellFormed_of_ofBytes hold).after q
  obtain ⟨hleft, hchanges, hcourse⟩ := h.sound hold
  refine ⟨hchanges, fun hphase => ?_, fun hphase => ?_, fun hphase => ?_, fun a ha => ?_,
    fun a ha hq k hk => exists_rewriting hold ha hq hk⟩
  · rw [hphase] at hleft
    exact ⟨hleft, hleft ▸ hold⟩
  · rw [hphase] at hleft
    obtain ⟨k, hk, hfile⟩ := hleft
    refine ⟨k, hfile, ?_⟩
    rw [hfile]
    exact read_take hc hk
  · rw [hphase] at hleft
    refine ⟨hleft, ?_⟩
    rw [hleft]
    exact Content.ofBytes_bytes hc
  · rcases hcourse with ⟨hfits, -⟩ | ⟨fault, hfault⟩
    · rw [ha] at hfits
      exact ⟨hfits.1.symm, hfits.2⟩
    · cases ha.symm.trans hfault

/-- An entry, and a counter that was used once. -/
def used : Content := ⟨[("a", "1")], [("serversStarted", 1)]⟩

theorem wellFormed_used : used.WellFormed where
  entries := List.pairwise_singleton _ _
  counters := List.pairwise_singleton _ _
  range := by decide

/-- A document is longer than its opening brace. -/
theorem one_lt_length_bytes (c : Content) : 1 < c.bytes.length := by
  have hdocument : ∃ cs, c.document = '\x7b' :: '\n' :: cs := ⟨_, Content.document_eq c⟩
  obtain ⟨cs, hcs⟩ := hdocument
  have hbrace : String.utf8EncodeChar '\x7b' = [0x7B] := by decide
  have hbreak : String.utf8EncodeChar '\n' = [0x0A] := by decide
  rw [Content.bytes, Text.Utf8.encode_ofList, hcs, List.flatMap_cons, List.flatMap_cons, hbrace,
    hbreak, List.singleton_append, List.singleton_append, List.length_cons, List.length_cons]
  omega

/-- One byte of the new document was written when the process died. -/
theorem torn_remains :
    Content.ofBytes used.bytes = .ok used ∧
    ∃ t, Reachable (.put "b" "2") used.bytes t ∧ t.phase = .rewriting ∧
      t.file = (used.after (.put "b" "2")).bytes.take 1 ∧ ∃ e, Refused t.file e := by
  have hold : Content.ofBytes used.bytes = .ok used := Content.ofBytes_bytes wellFormed_used
  have hlength := one_lt_length_bytes (used.after (.put "b" "2"))
  obtain ⟨-, -, -, -, -, hcuts⟩ := remains hold (.start : Reachable (.put "b" "2") used.bytes _)
  obtain ⟨t, ht, hphase, hfile⟩ := hcuts () rfl rfl 1 (Nat.le_of_lt hlength)
  obtain ⟨-, -, hrewriting, -⟩ := remains hold ht
  obtain ⟨k, hk, hread⟩ := hrewriting hphase
  have hone : k = 1 ∨ (used.after (.put "b" "2")).bytes.length ≤ 1 := by
    have htake := congrArg List.length (hk.symm.trans hfile)
    rw [List.length_take, List.length_take] at htake
    omega
  obtain rfl := hone.resolve_right (Nat.not_le_of_lt hlength)
  refine ⟨hold, t, ht, hphase, hfile, ?_⟩
  rcases hread with ⟨hzero, -⟩ | ⟨-, -, e, he, -⟩ | ⟨hwhole, -⟩
  · cases hzero
  · exact ⟨e, he⟩
  · exact absurd hwhole (Nat.ne_of_lt hlength)

/-- The process died right after it had emptied the file: the next operation finds neither the old
document nor the new one. -/
theorem emptied_neither_old_nor_new :
    ¬ ∀ (q : Request) (old : Bytes) (c : Content) (t : Attempt q),
      Content.ofBytes old = .ok c → Reachable q old t →
        Content.ofBytes t.file = .ok c ∨ Content.ofBytes t.file = .ok (c.after q) := by
  intro h
  have hold : Content.ofBytes used.bytes = .ok used := Content.ofBytes_bytes wellFormed_used
  obtain ⟨t, ht, -, hfile⟩ := exists_rewriting (q := .put "b" "2") hold rfl rfl (Nat.zero_le _)
  have hempty : Content.ofBytes t.file = .ok .empty := by
    rw [hfile]
    exact Content.ofBytes_nil
  rcases h _ _ _ t hold ht with hc | hc
  · cases hempty.symm.trans hc
  · cases hempty.symm.trans hc

end Attempt

end Primacy.Registry
