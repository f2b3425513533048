/-
  Primacy.Proofs.Failover.Journal

  Logs as the nodes write them, line after line.  A log with the marker of an old term keeps it, so
  the node that is found is the one that wrote to such a log last, be it any line.  That is the node
  of the latest promotion unless another one that was promoted before has gone on writing.
-/
import Primacy.Proofs.Failover.Observation
import Primacy.Proofs.Files.Search

namespace Primacy.Failover

open Election (Event)
open Text.Utf8 (Bytes encode)

/-! ## Writing to logs -/

/-- A line that a node adds to a file in its directory. -/
structure LogLine where
  node : Member
  file : String
  bytes : Bytes
  time : Int

/-- The files in each directory, with their bytes and the time of their last change. -/
abbrev Shelf : Type := String → Keyed (Bytes × Int)

namespace LogLine

/-- The line goes to the file `name` in `dir`. -/
def goesTo (e : LogLine) (dir name : String) : Bool := e.node.nodeDir == dir && e.file == name

/-- The files once the line was added; a file that was not there holds nothing else. -/
def addTo (e : LogLine) (files : Shelf) : Shelf := fun dir =>
  if dir = e.node.nodeDir then
    let before := (files dir).get? e.file
    (files dir).insert e.file ((before.elim [] (·.1)) ++ e.bytes, e.time)
  else files dir

/-- The line announces a promotion: it holds a marker, and its file is a log. -/
def Promotes (e : LogLine) : Prop :=
  Path.extensionOf? e.file = some "log" ∧
    Files.containsAny e.bytes Election.promotionMarkers = true

end LogLine

/-- The files that come of lines, the earliest line first. -/
def shelved (js : List LogLine) : Shelf := js.foldl (fun files e => e.addTo files) fun _ => []

/-- The lines that went to one file. -/
def linesTo (js : List LogLine) (dir name : String) : List LogLine :=
  js.filter (·.goesTo dir name)

/-- In a list without a last one of a kind there is none. -/
theorem none_or_exists_last {α : Type} (P : α → Prop) (l : List α) :
    (∀ x ∈ l, ¬ P x) ∨ ∃ before x after, l = before ++ x :: after ∧ P x ∧ ∀ y ∈ after, ¬ P y := by
  induction l with
  | nil => exact .inl nofun
  | cons x l ih =>
    rcases ih with hnone | ⟨before, y, after, rfl, hy, hafter⟩
    · by_cases hx : P x
      · exact .inr ⟨[], x, l, rfl, hx, hnone⟩
      · exact .inl (List.forall_mem_cons.mpr ⟨hx, hnone⟩)
    · exact .inr ⟨x :: before, y, after, rfl, hy, hafter⟩

variable {js : List LogLine} {dir name : String} {e : LogLine} {t : Int}

/-- What one line changes. -/
theorem LogLine.get?_addTo (e : LogLine) (files : Shelf) (dir name : String) :
    (e.addTo files dir).get? name =
      if e.goesTo dir name then
        some ((((files dir).get? name).elim [] (·.1)) ++ e.bytes, e.time)
      else (files dir).get? name := by
  simp only [goesTo, addTo, Bool.and_eq_true, beq_iff_eq]
  by_cases hdir : dir = e.node.nodeDir
  · subst hdir
    rw [if_pos rfl, Keyed.get?_insert]
    by_cases hname : name = e.file
    · subst hname
      rw [if_pos rfl, if_pos ⟨rfl, rfl⟩]
    · rw [if_neg hname, if_neg fun h => hname h.2.symm]
  · rw [if_neg hdir, if_neg fun h => hdir h.1.symm]

theorem shelved_concat (js : List LogLine) (e : LogLine) :
    shelved (js ++ [e]) = e.addTo (shelved js) := by
  rw [shelved, List.foldl_append]
  rfl

theorem linesTo_concat (js : List LogLine) (e : LogLine) (dir name : String) :
    linesTo (js ++ [e]) dir name =
      linesTo js dir name ++ if e.goesTo dir name then [e] else [] := by
  unfold linesTo
  rw [List.filter_append, List.filter_cons, List.filter_nil]

/-- A file holds the lines that went to it, and was changed with the last of them. -/
theorem get?_shelved (js : List LogLine) (dir name : String) :
    (shelved js dir).get? name = (linesTo js dir name).getLast?.map fun e =>
      ((linesTo js dir name).flatMap (·.bytes), e.time) := by
  -- on the lines from the last one on
  induction js using List.reverseRecOn with
  | nil => rfl
  | append_singleton js e ih =>
    rw [shelved_concat, LogLine.get?_addTo, ih, linesTo_concat]
    by_cases hgoes : e.goesTo dir name = true
    · rw [if_pos hgoes, if_pos hgoes, List.getLast?_concat, List.flatMap_append,
        List.flatMap_singleton, Option.map_some]
      cases hlast : (linesTo js dir name).getLast? with
      | none =>
        rw [List.getLast?_eq_none_iff.mp hlast]
        rfl
      | some last => rfl
    · rw [if_neg hgoes, if_neg hgoes, List.append_nil]

/-! ## Marks -/

/-- The file that the line went to is a log in which a promotion was announced, by that line, before
it or since. -/
def OnRecord (js : List LogLine) (e : LogLine) : Prop :=
  ∃ x ∈ js, x.Promotes ∧ x.node.nodeDir = e.node.nodeDir ∧ x.file = e.file

theorem LogLine.Promotes.onRecord (h : e.Promotes) (he : e ∈ js) : OnRecord js e :=
  ⟨e, he, h, rfl, rfl⟩

theorem mem_linesTo : e ∈ linesTo js dir name ↔ e ∈ js ∧ e.node.nodeDir = dir ∧ e.file = name := by
  simp only [linesTo, List.mem_filter, LogLine.goesTo, Bool.and_eq_true, beq_iff_eq]

/-! ## Histories -/

/-- A history of lines that `members` wrote, each to files in a directory of its own, and each later
than those before it. -/
structure History (members : List Member) (js : List LogLine) : Prop where
  written : ∀ e ∈ js, e.node ∈ members
  apart : ∀ m ∈ members, ∀ m' ∈ members, m.nodeDir = m'.nodeDir → m = m'
  ended : ∀ e ∈ js, Files.Ended e.bytes
  later : js.Pairwise (·.time < ·.time)

/-- The logs of `members` are on the disk as they come of the lines, and can be read. -/
structure Disk.Bears (k : Disk) (members : List Member) (js : List LogLine) : Prop where
  readable : k.Readable members
  holds : ∀ m ∈ members, ∀ path bytes written, k.Holds m.nodeDir path bytes written ↔
    ∃ name, Path.extensionOf? name = some "log" ∧ path = Path.join m.nodeDir name ∧
      (shelved js m.nodeDir).get? name = some (bytes, written)

section

variable {k : Disk} {members : List Member} {m : Member} {before after : List LogLine}

/-- A file holds a marker if and only if one of its lines does. -/
theorem History.containsAny_iff (h : History members js) (dir name : String) :
    Files.containsAny ((linesTo js dir name).flatMap (·.bytes)) Election.promotionMarkers = true ↔
      ∃ x ∈ linesTo js dir name, Files.containsAny x.bytes Election.promotionMarkers = true := by
  have hended : ∀ bytes ∈ (linesTo js dir name).map (·.bytes), Files.Ended bytes := by
    rw [List.forall_mem_map]
    exact fun e he => h.ended e (mem_linesTo.mp he).1
  rw [List.flatMap_def, Files.containsAny_flatten Election.oneLine_promotionMarkers
    Election.nonempty_promotionMarkers hended, List.any_map, List.any_eq_true]
  rfl

/-- The logs with a marker are the files with a promotion on record, and the time of the last line
to such a file is that of its last change. -/
theorem History.marked_iff (h : History members js) (bears : k.Bears members js)
    (hm : m ∈ members) : k.Marked m.nodeDir t ↔
      ∃ e, (linesTo js m.nodeDir e.file).getLast? = some e ∧ OnRecord js e ∧ e.time = t := by
  -- a file is what its lines make it: the marker is in one of them, the time is the last one's
  constructor
  · rintro ⟨path, bytes, holds, hmarked⟩
    obtain ⟨name, hlog, -, hget⟩ := (bears.holds m hm _ _ _).mp holds
    rw [get?_shelved] at hget
    obtain ⟨e, hlast, heq⟩ := Option.map_eq_some_iff.mp hget
    obtain ⟨rfl, rfl⟩ := Prod.mk.inj heq
    obtain ⟨x, hx, hpromotes⟩ := (h.containsAny_iff _ _).mp hmarked
    obtain ⟨-, hdir, rfl⟩ := mem_linesTo.mp (List.mem_of_getLast? hlast)
    obtain ⟨hxjs, hxdir, hxfile⟩ := mem_linesTo.mp hx
    exact ⟨e, hlast, ⟨x, hxjs, ⟨hxfile ▸ hlog, hpromotes⟩, hxdir.trans hdir.symm, hxfile⟩, rfl⟩
  · rintro ⟨e, hlast, ⟨x, hxjs, ⟨hlog, hpromotes⟩, hxdir, hxfile⟩, rfl⟩
    obtain ⟨-, hdir, -⟩ := mem_linesTo.mp (List.mem_of_getLast? hlast)
    have hget := get?_shelved js m.nodeDir e.file
    rw [hlast] at hget
    refine ⟨_, _, (bears.holds m hm _ _ _).mpr ⟨e.file, hxfile ▸ hlog, rfl, hget⟩, ?_⟩
    exact (h.containsAny_iff _ _).mpr
      ⟨x, mem_linesTo.mpr ⟨hxjs, hxdir.trans hdir, hxfile⟩, hpromotes⟩

/-- A mark is made by a line to a file with a promotion on record. -/
theorem History.of_marked (h : History members js) (bears : k.Bears members js) (hm : m ∈ members)
    (mark : k.Marked m.nodeDir t) : ∃ x ∈ js, x.node = m ∧ OnRecord js x ∧ x.time = t := by
  obtain ⟨x, hlast, record, hx⟩ := (h.marked_iff bears hm).mp mark
  obtain ⟨hmem, hdir, -⟩ := mem_linesTo.mp (List.mem_of_getLast? hlast)
  exact ⟨x, hmem, h.apart _ (h.written x hmem) m hm hdir, record, hx⟩

/-- No mark of a node is earlier than all its lines to files with a promotion on record. -/
theorem History.exists_marked (h : History members js) (bears : k.Bears members js) (he : e ∈ js)
    (record : OnRecord js e) : ∃ t, k.Marked e.node.nodeDir t ∧ e.time ≤ t := by
  have hmem : e ∈ linesTo js e.node.nodeDir e.file := mem_linesTo.mpr ⟨he, rfl, rfl⟩
  obtain ⟨front, last, hlines⟩ : ∃ front last, linesTo js e.node.nodeDir e.file = front ++ [last] :=
    ⟨_, _, (List.dropLast_append_getLast (List.ne_nil_of_mem hmem)).symm⟩
  have hlast : (linesTo js e.node.nodeDir e.file).getLast? = some last := by
    rw [hlines, List.getLast?_concat]
  obtain ⟨-, hdir, hfile⟩ := mem_linesTo.mp (List.mem_of_getLast? hlast)
  obtain ⟨x, hx, hpromotes, hxdir, hxfile⟩ := record
  refine ⟨last.time, (h.marked_iff bears (h.written e he)).mpr ⟨last, ?_, ?_, rfl⟩, ?_⟩
  · rw [hfile, hlast]
  · exact ⟨x, hx, hpromotes, hxdir.trans hdir.symm, hxfile.trans hfile.symm⟩
  · have hsorted : (linesTo js e.node.nodeDir e.file).Pairwise (·.time < ·.time) :=
      h.later.sublist List.filter_sublist
    rw [hlines] at hsorted hmem
    rcases List.mem_append.mp hmem with hfront | hback
    · exact ((List.pairwise_append.mp hsorted).2.2 e hfront last List.mem_cons_self).le
    · rw [List.mem_singleton.mp hback]

/-! ## Who is found -/

/-- Every line is earlier than one further on. -/
theorem History.time_lt (h : History members js) (split : js = before ++ e :: after) :
    ∀ x ∈ before, x.time < e.time := by
  have hsorted := h.later
  rw [split] at hsorted
  exact fun x hx => (List.pairwise_append.mp hsorted).2.2 x hx e List.mem_cons_self

/-- The node that wrote the last line to a file with a promotion on record has the latest mark. -/
theorem History.promotedLast (h : History members js) (bears : k.Bears members js)
    (split : js = before ++ e :: after) (record : OnRecord js e)
    (last : ∀ x ∈ after, ¬ OnRecord js x) : k.PromotedLast members e.node := by
  have he : e ∈ js := by simp [split]
  have hlast : ∀ x ∈ js, OnRecord js x → x = e ∨ x.time < e.time := by
    intro x hx hrecord
    rw [split, List.mem_append, List.mem_cons] at hx
    rcases hx with hin | rfl | hin
    · exact .inr (h.time_lt split x hin)
    · exact .inl rfl
    · exact absurd hrecord (last x hin)
  have hle : ∀ m ∈ members, ∀ t, k.Marked m.nodeDir t → t ≤ e.time := by
    intro m hm t mark
    obtain ⟨x, hx, -, hrecord, rfl⟩ := h.of_marked bears hm mark
    rcases hlast x hx hrecord with rfl | hlt
    · exact le_rfl
    · exact hlt.le
  -- a roster may list the node more than once, and the first of its entries counts
  obtain ⟨front, back, hmembers, hfirst⟩ := List.eq_append_cons_of_mem (h.written e he)
  obtain ⟨t, mark, het⟩ := h.exists_marked bears he record
  obtain rfl : t = e.time := le_antisymm (hle _ (h.written e he) t mark) het
  refine ⟨front, back, e.time, hmembers, mark, hle _ (h.written e he), fun m hm t' mark' => ?_,
    fun m hm => hle m (by simp [hmembers, hm])⟩
  -- a mark as late as that of `e` would be a mark of its node
  obtain ⟨x, hx, rfl, hrecord, rfl⟩ := h.of_marked bears (m := m) (by simp [hmembers, hm]) mark'
  rcases hlast x hx hrecord with rfl | hlt
  · exact absurd hm hfirst
  · exact hlt

/-- The last line on record is by `m` if and only if each of them is followed by one of `m`, or is
one itself. -/
theorem lastWord_iff (earlier : ∀ x ∈ before, x.time < e.time) (record : OnRecord js e)
    (last : ∀ x ∈ after, ¬ OnRecord js x) : e.node = m ↔ ∀ x ∈ before ++ e :: after,
      OnRecord js x → ∃ y ∈ before ++ e :: after, x.time ≤ y.time ∧ OnRecord js y ∧ y.node = m := by
  constructor
  · intro hnode x hx hrecord
    refine ⟨e, by simp, ?_, record, hnode⟩
    rcases List.mem_append.mp hx with hin | hin
    · exact (earlier x hin).le
    · rcases List.mem_cons.mp hin with rfl | hin
      · exact le_rfl
      · exact absurd hrecord (last x hin)
  · intro hword
    obtain ⟨y, hy, hle, hrecord, hnode⟩ := hword e (by simp) record
    rcases List.mem_append.mp hy with hin | hin
    · exact absurd (earlier y hin) (Int.not_lt.mpr hle)
    · rcases List.mem_cons.mp hin with rfl | hin
      · exact hnode
      · exact absurd hrecord (last y hin)

variable {s : Scene} {roster : List Member} {role : String}

/-- A search of the logs comes to an answer: the node with the last line on record, or nobody. -/
theorem History.exists_run? (h : History (ofRole roster role) js)
    (bears : k.Bears (ofRole roster role) js) (logs : s.logs = k.logs) :
    ∃ past answer, s.run? (primaryFromLogs roster role) = some (past, .ok answer, s) ∧
      (∀ {before e after}, js = before ++ e :: after → OnRecord js e →
        (∀ x ∈ after, ¬ OnRecord js x) → answer = some e.node) ∧
      ((∀ e ∈ js, ¬ OnRecord js e) → answer = none) := by
  obtain ⟨looked, r, -, hr, hrun⟩ := k.searched logs (ofRole roster role)
  have hlast : ∀ {before e after}, js = before ++ e :: after → OnRecord js e →
      (∀ x ∈ after, ¬ OnRecord js x) → r = .ok (some e.node) := fun split record last =>
    (hr.answer.1 _).mpr ⟨bears.readable, h.promotedLast bears split record last⟩
  have hnobody : (∀ e ∈ js, ¬ OnRecord js e) → r = .ok none := by
    refine fun bare => hr.answer.2.1.mpr ⟨bears.readable, fun m hm t mark => ?_⟩
    obtain ⟨x, hx, -, record, -⟩ := h.of_marked bears hm mark
    exact bare x hx record
  -- the search has not failed, since there is a last line on record or none at all
  obtain ⟨answer, rfl⟩ : ∃ answer, r = .ok answer := by
    rcases none_or_exists_last (OnRecord js) js with bare | ⟨before, e, after, split, record, last⟩
    · exact ⟨_, hnobody bare⟩
    · exact ⟨_, hlast split record last⟩
  exact ⟨_, answer, hrun, fun split record last => Except.ok.inj (hlast split record last),
    fun bare => Except.ok.inj (hnobody bare)⟩

/-- What the logs tell of a history, whatever was written in it.  Nobody is found if and only if
there was no promotion.  Otherwise the node is found that wrote the last line to a log with a
promotion on record.  So a node that was promoted, last or earlier, is found if and only if it had
the last word in such logs since then. -/
theorem primaryFromLogs_history (h : History (ofRole roster role) js)
    (bears : k.Bears (ofRole roster role) js) (logs : s.logs = k.logs) :
    ∃ past answer, s.run? (primaryFromLogs roster role) = some (past, .ok answer, s) ∧
      (answer = none ↔ ∀ e ∈ js, ¬ e.Promotes) ∧
      (∀ m, answer = some m ↔ ∃ before e after, js = before ++ e :: after ∧ OnRecord js e ∧
        (∀ x ∈ after, ¬ OnRecord js x) ∧ e.node = m) ∧
      ∀ before e after, js = before ++ e :: after → e.Promotes →
        (answer = some e.node ↔ ∀ x ∈ after, OnRecord js x →
          ∃ y ∈ after, x.time ≤ y.time ∧ OnRecord js y ∧ y.node = e.node) := by
  obtain ⟨past, answer, hrun, hlast, hnobody⟩ := h.exists_run? bears logs
  refine ⟨past, answer, hrun, ⟨fun hnone e he hpromotes => ?_, fun bare => hnobody ?_⟩,
    fun m => ⟨fun hm => ?_, ?_⟩, fun before e after split hpromotes => ?_⟩
  · rcases none_or_exists_last (OnRecord js) js with hbare | ⟨before, x, after, split, record, last⟩
    · exact hbare e he (hpromotes.onRecord he)
    · exact nomatch hnone.symm.trans (hlast split record last)
  · rintro e - ⟨x, hx, hpromotes, -⟩
    exact bare x hx hpromotes
  · rcases none_or_exists_last (OnRecord js) js with hbare | ⟨before, x, after, split, record, last⟩
    · exact nomatch hm.symm.trans (hnobody hbare)
    · exact ⟨before, x, after, split, record, last,
        Option.some.inj ((hlast split record last).symm.trans hm)⟩
  · rintro ⟨before, e, after, split, record, last, rfl⟩
    exact hlast split record last
  · rcases none_or_exists_last (OnRecord js) after with hbare | ⟨front, y, back, rfl, record, last⟩
    · -- the promotion itself is the last line on record
      rw [hlast split (hpromotes.onRecord (by simp [split])) hbare]
      exact ⟨fun _ x hx hrecord => absurd hrecord (hbare x hx), fun _ => rfl⟩
    · have hsplit : js = (before ++ e :: front) ++ y :: back := by simp [split]
      rw [hlast hsplit record last, Option.some.injEq]
      exact lastWord_iff (fun x hx => h.time_lt hsplit x (by simp [hx])) record last

end

/-! ## A lead that was promoted before -/

/-- The line that tells of an event in the log of a node. -/
def LogLine.ofEvent (m : Member) (e : Event) (time : Int) : LogLine where
  node := m
  file := "lead.log"
  bytes := encode ((e.line? m.identity).elim "" (·.2)) ++ [0x0A]
  time := time

theorem LogLine.promotes_ofEvent {m : Member} {e : Event} {time : Int} (marks : e.isMarker = true) :
    (LogLine.ofEvent m e time).Promotes := by
  have hlog : Path.extensionOf? "lead.log" = some "log" := by decide
  obtain ⟨line, hline⟩ : ∃ line, e.line? m.identity = some line := by
    cases e with
    | acquired => exact ⟨_, rfl⟩
    | resumed => exact ⟨_, rfl⟩
    | _ => cases marks
  refine ⟨hlog, ?_⟩
  rw [LogLine.ofEvent, hline]
  exact Election.containsAny_of_isMarker marks hline [] [0x0A]

def firstLead : Member := .ofIdentity ⟨"10.0.0.1", 1001, "lead", "lead1"⟩ "lead1" 8091

def secondLead : Member := .ofIdentity ⟨"10.0.0.2", 1002, "lead", "lead2"⟩ "lead2" 8092

def firstPromoted : LogLine := .ofEvent firstLead .acquired 1

def secondPromoted : LogLine := .ofEvent secondLead .resumed 2

/-- The first lead is back, as a standby. -/
def firstWaiting : LogLine := .ofEvent firstLead .waitingForLock 3

def takenOver : List LogLine := [firstPromoted, secondPromoted, firstWaiting]

/-- The disk on which the two have written, each to a log in its directory. -/
def takenOverDisk : Disk where
  tree := ⟨#[.directory 0 [("lead1", 1), ("lead2", 2)], .directory 0 [("lead.log", 3)],
    .directory 0 [("lead.log", 4)], .file (firstPromoted.bytes ++ firstWaiting.bytes) 3,
    .file secondPromoted.bytes 2], 0, 4⟩
  fault? := fun _ => none

def takenOverScene : Scene where
  registry := .empty
  logs := takenOverDisk.logs
  chance := fun _ => 0

theorem not_promotes_firstWaiting : ¬ firstWaiting.Promotes := by
  have h : Files.containsAny
      (encode "lead1[lead] 10.0.0.1:1001 waiting for the primary lock" ++ [0x0A])
      Election.promotionMarkers = false := by decide +kernel
  rintro ⟨-, hmarker⟩
  exact nomatch h.symm.trans hmarker

theorem history_takenOver : History (ofRole [firstLead, secondLead] "lead") takenOver where
  written := by decide
  apart := by decide
  ended := by
    intro e he
    simp only [takenOver, List.mem_cons, List.not_mem_nil, or_false] at he
    rcases he with rfl | rfl | rfl
    · exact ⟨_, rfl⟩
    · exact ⟨_, rfl⟩
    · exact ⟨_, rfl⟩
  later := by decide

theorem takenOverDisk_home : takenOverDisk.tree.node takenOverDisk.tree.home =
    .directory 0 [("lead1", 1), ("lead2", 2)] := rfl

theorem takenOverDisk_list_first : takenOverDisk.list "lead1" = .ok [("lead.log", 3)] :=
  Disk.list_of_name rfl (by decide) takenOverDisk_home rfl rfl

theorem takenOverDisk_list_second : takenOverDisk.list "lead2" = .ok [("lead.log", 4)] :=
  Disk.list_of_name rfl (by decide) takenOverDisk_home rfl rfl

theorem bears_takenOver :
    takenOverDisk.Bears (ofRole [firstLead, secondLead] "lead") takenOver := by
  have hlog : Path.extensionOf? "lead.log" = some "log" := by decide
  have hmembers : ofRole [firstLead, secondLead] "lead" = [firstLead, secondLead] := by decide
  rw [hmembers]
  constructor
  · refine List.forall_mem_cons.mpr ⟨?_, List.forall_mem_singleton.mpr ?_⟩
    · exact Disk.not_fails (fun _ => rfl) fun _ unlisted =>
        nomatch unlisted.symm.trans takenOverDisk_list_first
    · exact Disk.not_fails (fun _ => rfl) fun _ unlisted =>
        nomatch unlisted.symm.trans takenOverDisk_list_second
  · refine List.forall_mem_cons.mpr ⟨?_, List.forall_mem_singleton.mpr ?_⟩
    · exact Disk.holds_iff_of_single takenOverDisk_list_first hlog rfl
    · exact Disk.holds_iff_of_single takenOverDisk_list_second hlog rfl

theorem onRecord_firstWaiting : OnRecord takenOver firstWaiting :=
  ⟨firstPromoted, List.mem_cons_self, LogLine.promotes_ofEvent rfl, rfl, rfl⟩

/-- The promotion of the second lead is the latest one, and yet the first lead is found. -/
theorem latest_promotion_passed_over :
    History (ofRole [firstLead, secondLead] "lead") takenOver ∧
      takenOverDisk.Bears (ofRole [firstLead, secondLead] "lead") takenOver ∧
      takenOver = [firstPromoted] ++ secondPromoted :: [firstWaiting] ∧
      secondPromoted.Promotes ∧ ¬ firstWaiting.Promotes ∧
      secondPromoted.node = secondLead ∧ firstLead ≠ secondLead ∧
      ∃ past, takenOverScene.run? (primaryFromLogs [firstLead, secondLead] "lead") =
        some (past, .ok (some firstLead), takenOverScene) := by
  obtain ⟨past, answer, hrun, hlast, -⟩ :=
    history_takenOver.exists_run? bears_takenOver (s := takenOverScene) rfl
  have hsplit : takenOver = [firstPromoted, secondPromoted] ++ firstWaiting :: [] := rfl
  obtain rfl := hlast hsplit onRecord_firstWaiting nofun
  exact ⟨history_takenOver, bears_takenOver, rfl, LogLine.promotes_ofEvent rfl,
    not_promotes_firstWaiting, rfl, by decide, past, hrun⟩

/-- The first lead had the last word in its log. -/
theorem primaryFromLogs_history_takenOver :
    History (ofRole [firstLead, secondLead] "lead") takenOver ∧
      takenOverDisk.Bears (ofRole [firstLead, secondLead] "lead") takenOver ∧
      ∃ past answer, takenOverScene.run? (primaryFromLogs [firstLead, secondLead] "lead") =
        some (past, .ok answer, takenOverScene) ∧ answer ≠ none ∧ answer = some firstLead := by
  obtain ⟨past, answer, hrun, hnone, hlast, -⟩ :=
    primaryFromLogs_history history_takenOver bears_takenOver (s := takenOverScene) rfl
  have hfirst : answer = some firstLead := (hlast firstLead).mpr
    ⟨[firstPromoted, secondPromoted], firstWaiting, [], rfl, onRecord_firstWaiting, nofun, rfl⟩
  refine ⟨history_takenOver, bears_takenOver, past, answer, hrun, fun hnobody => ?_, hfirst⟩
  exact hnone.mp hnobody firstPromoted List.mem_cons_self (LogLine.promotes_ofEvent rfl)

end Primacy.Failover
