/-
  Primacy.Proofs.Failover.Inspection

  The logs of a node as they are found on a disk, and what is learned from them.  The last time that
  a log with a promotion marker was written is known if everything could be read; the first access
  that fails is told instead.
-/
import Primacy.Failover.Observation
import Primacy.Proofs.Files.Growth
import Primacy.Scenario.Work

namespace Primacy.Failover

open Files (Fault NodeId)
open Text.Utf8 (Bytes)

/-! ## Log files -/

/-- The time of the last change of a log that holds a promotion marker. -/
def LogFile.mark? (f : LogFile) : Option Int :=
  match f.content with
  | .ok (bytes, written) =>
    if Files.containsAny bytes Election.promotionMarkers then some written else none
  | .error _ => none

variable {files : List LogFile}

theorem foldl_later (ts : List Int) (t : Int) :
    ts.foldl later (some t) = some (ts.foldl max t) := by
  induction ts generalizing t with
  | nil => rfl
  | cons t' ts ih =>
    have hlater : later (some t) t' = some (max t t') := by
      show some (if t < t' then t' else t) = _
      congr 1
      omega
    rw [List.foldl_cons, hlater, ih, List.foldl_cons]

/-- The latest of some times. -/
theorem foldl_later_none (ts : List Int) : ts.foldl later none = ts.max? := by
  cases ts with
  | nil => rfl
  | cons t ts => exact (foldl_later ts t).trans List.max?_cons'.symm

/-- Of files that can be read, the marked ones count. -/
theorem lastMarkedIn_of_readable (seen : Option Int)
    (readable : ∀ f ∈ files, ∀ fault, f.content ≠ .error fault) :
    lastMarkedIn files seen = .ok ((files.filterMap LogFile.mark?).foldl later seen) := by
  induction files generalizing seen with
  | nil => rfl
  | cons f files ih =>
    obtain ⟨hf, hfiles⟩ := List.forall_mem_cons.mp readable
    cases hcontent : f.content with
    | error fault => exact absurd hcontent (hf fault)
    | ok x =>
      rw [lastMarkedIn, hcontent]
      dsimp only
      rw [ih _ hfiles]
      by_cases hmarked : Files.containsAny x.1 Election.promotionMarkers = true
      · have hmark : f.mark? = some x.2 := by simp only [LogFile.mark?, hcontent, if_pos hmarked]
        rw [if_pos hmarked, List.filterMap_cons_some hmark, List.foldl_cons]
      · have hmark : f.mark? = none := by simp only [LogFile.mark?, hcontent, if_neg hmarked]
        rw [if_neg hmarked, List.filterMap_cons_none hmark]

/-- A file that cannot be read makes the search fail, at this file or at an earlier one. -/
theorem lastMarkedIn_of_unreadable (seen : Option Int) {f : LogFile} {fault : Fault}
    (hf : f ∈ files) (unreadable : f.content = .error fault) :
    ∃ g ∈ files, ∃ fault', g.content = .error fault' ∧
      lastMarkedIn files seen = .error (.file g.path fault') := by
  induction files generalizing seen with
  | nil => cases hf
  | cons g files ih =>
    rw [lastMarkedIn]
    cases hcontent : g.content with
    | error fault' => exact ⟨g, List.mem_cons_self, fault', hcontent, rfl⟩
    | ok x =>
      rcases List.mem_cons.mp hf with rfl | hf
      · cases unreadable.symm.trans hcontent
      · obtain ⟨g', hg', fault', hfault', hsearch⟩ := ih _ hf
        exact ⟨g', List.mem_cons_of_mem g hg', fault', hfault', hsearch⟩

/-! ## Logs on a disk -/

/-- A file tree, and why accesses to it fail that what is in it would not make fail. -/
structure Disk where
  tree : Files.Tree
  fault? : String → Option Fault

namespace Disk

/-- The names in a directory, or why there is no telling. -/
def list (k : Disk) (dir : String) : Except Fault (Keyed NodeId) :=
  match k.fault? dir with
  | some fault => .error fault
  | none => k.tree.list dir

/-- The content of a file, or why it cannot be read. -/
def read (k : Disk) (path : String) (content : Bytes × Int) : Except Fault (Bytes × Int) :=
  match k.fault? path with
  | some fault => .error fault
  | none => .ok content

/-- The log files in a directory; one that does not exist holds none. -/
def logs (k : Disk) (dir : String) : NodeLogs :=
  match k.fault? dir with
  | some .notFound => .ok []
  | some fault => .error fault
  | none => (k.tree.withExtension dir "log").map fun found =>
    found.map fun f => { path := f.1, content := k.read f.1 (k.tree.content f.2) }

/-- Where no access fails for other reasons, the logs are those of the file tree. -/
theorem logs_eq_nodeLogs (w : Scenario.World) (dir : String) :
    (Disk.mk w.files fun _ => none).logs dir = w.nodeLogs dir := rfl

/-- Right in the directory there is a regular file with the extension of logs. -/
def Holds (k : Disk) (dir path : String) (bytes : Bytes) (written : Int) : Prop :=
  ∃ entries name id, k.list dir = .ok entries ∧ (name, id) ∈ entries ∧
    Path.extensionOf? name = some "log" ∧ path = Path.join dir name ∧
    k.tree.node id = .file bytes written

/-- Right in the directory there is a log with a promotion marker. -/
def Marked (k : Disk) (dir : String) (written : Int) : Prop :=
  ∃ path bytes, k.Holds dir path bytes written ∧
    Files.containsAny bytes Election.promotionMarkers = true

/-- An access fails that is needed to look through the logs in a directory: the directory is there
and cannot be listed, or a log in it cannot be read. -/
inductive Fails (k : Disk) (dir : String) : String → Fault → Prop where
  | directory {fault : Fault} (unlisted : k.list dir = .error fault)
      (present : fault ≠ .notFound) : Fails k dir dir fault
  | file {path : String} {bytes : Bytes} {written : Int} {fault : Fault}
      (holds : k.Holds dir path bytes written) (unread : k.fault? path = some fault) :
      Fails k dir path fault

/-- What may be learned of the logs in a directory. -/
inductive Surveyed (k : Disk) (dir : String) : Except FailoverError (Option Int) → Prop where
  | unmarked (fine : ∀ path fault, ¬ k.Fails dir path fault)
      (bare : ∀ t, ¬ k.Marked dir t) : Surveyed k dir (.ok none)
  | marked {t : Int} (fine : ∀ path fault, ¬ k.Fails dir path fault) (mark : k.Marked dir t)
      (last : ∀ t', k.Marked dir t' → t' ≤ t) : Surveyed k dir (.ok (some t))
  | failed {path : String} {fault : Fault} (fails : k.Fails dir path fault) :
      Surveyed k dir (.error (.file path fault))

variable {k : Disk} {dir path : String}

/-- Where no access fails of itself, a directory that is missing or can be listed is no trouble. -/
theorem not_fails (quiet : ∀ path, k.fault? path = none)
    (listed : ∀ fault, k.list dir = .error fault → fault = .notFound) (path : String)
    (fault : Fault) : ¬ k.Fails dir path fault := by
  rintro (⟨unlisted, present⟩ | ⟨-, unread⟩)
  · exact present (listed fault unlisted)
  · exact nomatch (quiet path).symm.trans unread

/-- A directory with one log. -/
theorem holds_iff_of_single {name : String} {id : NodeId} {bytes : Bytes} {written : Int}
    (listed : k.list dir = .ok [(name, id)])
    (log : Path.extensionOf? name = some "log") (file : k.tree.node id = .file bytes written)
    (path : String) (bytes' : Bytes) (written' : Int) : k.Holds dir path bytes' written' ↔
      ∃ name', Path.extensionOf? name' = some "log" ∧ path = Path.join dir name' ∧
        Keyed.get? [(name, (bytes, written))] name' = some (bytes', written') := by
  constructor
  · rintro ⟨entries, name', id', hlisted, hmem, hlog, hpath, hnode⟩
    obtain rfl := Except.ok.inj (hlisted.symm.trans listed)
    obtain ⟨rfl, rfl⟩ := Prod.mk.inj (List.mem_singleton.mp hmem)
    obtain ⟨rfl, rfl⟩ := Files.Node.file.inj (hnode.symm.trans file)
    exact ⟨name', hlog, hpath, by rw [Keyed.get?_cons, if_pos rfl]⟩
  · rintro ⟨name', hlog, hpath, hget⟩
    rw [Keyed.get?_cons] at hget
    split at hget
    · next heq =>
      subst heq
      obtain ⟨rfl, rfl⟩ := Prod.mk.inj (Option.some.inj hget)
      exact ⟨_, name, id, listed, List.mem_singleton.mpr rfl, hlog, hpath, file⟩
    · cases hget

/-- A directory that cannot be listed, and one that is missing. -/
theorem logs_of_error {fault : Fault} (unlisted : k.list dir = .error fault) :
    k.logs dir = if fault = .notFound then .ok [] else .error fault := by
  unfold list at unlisted
  unfold logs
  cases hfault : k.fault? dir with
  | some f =>
    rw [hfault] at unlisted
    obtain rfl := Except.error.inj unlisted
    cases f <;> rfl
  | none =>
    rw [hfault] at unlisted
    simp only [Files.Tree.withExtension, unlisted]
    cases fault <;> rfl

/-- The logs in a directory are the regular files in it that are named so. -/
theorem exists_logs {entries : Keyed NodeId} (listed : k.list dir = .ok entries) :
    ∃ files, k.logs dir = .ok files ∧ ∀ f, f ∈ files ↔
      ∃ bytes written, k.Holds dir f.path bytes written ∧
        f.content = k.read f.path (bytes, written) := by
  have hlist := listed
  unfold list at hlist
  cases hfault : k.fault? dir with
  | some f =>
    rw [hfault] at hlist
    cases hlist
  | none =>
    rw [hfault] at hlist
    refine ⟨_, by simp only [logs, hfault, Files.Tree.withExtension, hlist]; rfl, fun f => ?_⟩
    constructor
    · intro hf
      obtain ⟨found, hfound, rfl⟩ := List.mem_map.mp hf
      obtain ⟨e, he, rfl⟩ := List.mem_map.mp hfound
      obtain ⟨hmem, hlog⟩ := List.mem_filter.mp he
      split at hlog
      · next bytes written hnode =>
        refine ⟨bytes, written, ⟨entries, e.1, e.2, listed, hmem, ?_, rfl, hnode⟩, ?_⟩
        · exact eq_of_beq hlog
        · simp only [Files.Tree.content, hnode]
      · cases hlog
    · rintro ⟨bytes, written, ⟨entries', name, id, hlisted, hmem, hlog, hpath, hnode⟩, hcontent⟩
      obtain rfl := Except.ok.inj (listed.symm.trans hlisted)
      refine List.mem_map.mpr ⟨(f.path, id), List.mem_map.mpr ⟨(name, id), ?_, ?_⟩, ?_⟩
      · exact List.mem_filter.mpr ⟨hmem, by simp only [hnode, hlog, beq_self_eq_true]⟩
      · rw [hpath]
      · simp only [Files.Tree.content, hnode, ← hcontent]

variable {name : String} {parent : NodeId} {entries : Keyed NodeId}

/-- A directory right in the working directory, and one that is missing there. -/
theorem list_of_name (quiet : k.fault? name = none) (isName : Files.Tree.IsName name)
    (home : k.tree.node k.tree.home = .directory parent entries) {parent' child : NodeId}
    {below : Keyed NodeId} (hchild : entries.get? name = some child)
    (hnode : k.tree.node child = .directory parent' below) : k.list name = .ok below := by
  rw [list, quiet]
  exact Files.Tree.list_of_name isName home hchild hnode

theorem list_of_no_name (quiet : k.fault? name = none) (isName : Files.Tree.IsName name)
    (home : k.tree.node k.tree.home = .directory parent entries)
    (hfree : entries.get? name = none) : k.list name = .error .notFound := by
  have hfind := Files.Tree.find_of_no_name isName home hfree
  rw [list, quiet]
  show k.tree.list name = _
  rw [Files.Tree.list, hfind]
  rfl

/-! ## What is learned -/

variable {files : List LogFile}

/-- The marks of logs that can be read. -/
theorem mem_marks (readable : ∀ f ∈ files, ∀ fault, f.content ≠ .error fault)
    (hmem : ∀ f, f ∈ files ↔ ∃ bytes written, k.Holds dir f.path bytes written ∧
      f.content = k.read f.path (bytes, written)) (t : Int) :
    t ∈ files.filterMap LogFile.mark? ↔ k.Marked dir t := by
  rw [List.mem_filterMap]
  constructor
  · rintro ⟨f, hf, hmark⟩
    obtain ⟨bytes, written, holds, hcontent⟩ := (hmem f).mp hf
    cases hfault : k.fault? f.path with
    | some fault =>
      rw [read, hfault] at hcontent
      exact absurd hcontent (readable f hf fault)
    | none =>
      rw [read, hfault] at hcontent
      simp only [LogFile.mark?, hcontent] at hmark
      split at hmark
      · next hmarked =>
        obtain rfl := Option.some.inj hmark
        exact ⟨f.path, bytes, holds, hmarked⟩
      · cases hmark
  · -- no log was left unread, so every marked one counts
    rintro ⟨path, bytes, holds, hmarked⟩
    have hf : (⟨path, k.read path (bytes, t)⟩ : LogFile) ∈ files :=
      (hmem _).mpr ⟨bytes, t, holds, rfl⟩
    refine ⟨_, hf, ?_⟩
    cases hfault : k.fault? path with
    | some fault =>
      refine absurd ?_ (readable _ hf fault)
      simp only [read, hfault]
    | none => simp only [LogFile.mark?, read, hfault, if_pos hmarked]

/-- Looking through the logs in a directory tells when one with a marker was last written, or which
access failed. -/
theorem surveyed (k : Disk) (dir : String) : k.Surveyed dir (lastMarked dir (k.logs dir)) := by
  cases listed : k.list dir with
  | error fault =>
    have hbare : ∀ t, ¬ k.Marked dir t := by
      rintro t ⟨path, bytes, ⟨entries, name, id, hlisted, -⟩, -⟩
      exact nomatch listed.symm.trans hlisted
    rw [logs_of_error listed]
    split
    · next hmissing =>
      refine .unmarked ?_ hbare
      rintro path fault' (⟨hlisted, hpresent⟩ | ⟨⟨entries, name, id, hlisted, -⟩, -⟩)
      · exact hpresent ((Except.error.inj (hlisted.symm.trans listed)).trans hmissing)
      · exact nomatch listed.symm.trans hlisted
    · next hpresent => exact .failed (.directory listed hpresent)
  | ok entries =>
    obtain ⟨files, hlogs, hmem⟩ := exists_logs listed
    rw [hlogs, lastMarked]
    -- on whether all of them can be read, since one that cannot ends the search
    by_cases readable : ∀ f ∈ files, ∀ fault, f.content ≠ .error fault
    · have hfine : ∀ path fault, ¬ k.Fails dir path fault := by
        rintro path fault (⟨hlisted, -⟩ | @⟨_, bytes, written, _, holds, unread⟩)
        · exact nomatch listed.symm.trans hlisted
        · refine readable ⟨path, k.read path (bytes, written)⟩ ?_ fault ?_
          · exact (hmem _).mpr ⟨bytes, written, holds, rfl⟩
          · simp only [read, unread]
      have hmarks := mem_marks readable hmem
      rw [lastMarkedIn_of_readable none readable, foldl_later_none]
      cases hmax : (files.filterMap LogFile.mark?).max? with
      | none =>
        rw [List.max?_eq_none_iff] at hmax
        exact .unmarked hfine fun t ht => List.not_mem_nil (hmax ▸ (hmarks t).mpr ht)
      | some t =>
        obtain ⟨ht, hle⟩ := List.max?_eq_some_iff.mp hmax
        exact .marked hfine ((hmarks t).mp ht) fun t' ht' => hle t' ((hmarks t').mpr ht')
    · obtain ⟨f, hf, fault, unread⟩ : ∃ f ∈ files, ∃ fault, f.content = .error fault := by
        simpa using readable
      obtain ⟨g, hg, fault', hfault', hsearch⟩ := lastMarkedIn_of_unreadable none hf unread
      obtain ⟨bytes, written, holds, hcontent⟩ := (hmem g).mp hg
      rw [hsearch]
      refine .failed (.file holds ?_)
      rw [hfault', read] at hcontent
      split at hcontent
      · next hfault => rw [hfault, Except.error.inj hcontent]
      · cases hcontent

end Disk

end Primacy.Failover
