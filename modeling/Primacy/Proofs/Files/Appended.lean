/-
  Primacy.Proofs.Files.Appended

  Open files that are added to.  Every path leads where it led, and every file holds what it held
  and behind it what was added to it.  So a promotion marker that stands in a log is found in it
  from then on, whatever is added to this log and to others.
-/
import Primacy.Proofs.Files.Search
import Primacy.Proofs.Files.Written

namespace Primacy.Files.Tree

open Text
open Text.Utf8 (Bytes encode)

variable {t t' t'' : Tree} {id : NodeId} {path : String} {bytes : Bytes} {written : Int}
  {needles : List String} {additions : List (NodeId × Bytes)}

/-! ## Paths -/

/-- The trees are the same but for what is in their files. -/
structure SameShape (t t' : Tree) : Prop where
  home : t'.home = t.home
  node : ∀ id n, (∀ bytes written, n ≠ .file bytes written) → (t'.node id = n ↔ t.node id = n)

namespace SameShape

theorem refl (t : Tree) : t.SameShape t := ⟨rfl, fun _ _ _ => Iff.rfl⟩

theorem trans (h : t.SameShape t') (h' : t'.SameShape t'') : t.SameShape t'' where
  home := h'.home.trans h.home
  node id n hn := (h'.node id n hn).trans (h.node id n hn)

theorem walk (h : t.SameShape t') (follow : Bool) (links : Nat) (id : NodeId)
    (parts : List (List Char)) : t'.walk follow links id parts = t.walk follow links id parts := by
  have hdirectory : ∀ id parent entries,
      t'.node id = .directory parent entries ↔ t.node id = .directory parent entries :=
    fun id parent entries => h.node id _ nofun
  have hlink : ∀ id target, t'.node id = .link target ↔ t.node id = .link target :=
    fun id target => h.node id _ nofun
  -- a walk looks at directories and links only, so both trees take the same case each time
  fun_induction Tree.walk t follow links id parts with
  | case1 => rw [Tree.walk]
  | _ =>
    rw [Tree.walk]
    grind

theorem find (h : t.SameShape t') (path : String) : t'.find path = t.find path := by
  have hlookup : t'.lookup true path = t.lookup true path := by
    rw [lookup, lookup, h.home, h.walk]
  rw [Tree.find, Tree.find, hlookup]

end SameShape

/-! ## Additions -/

/-- There is a file at the node. -/
def IsFile (t : Tree) (id : NodeId) : Prop :=
  id < t.nodes.size ∧ ∃ bytes written, t.node id = .file bytes written

/-- Additions to open files, one after the other. -/
def extendAll (t : Tree) (additions : List (NodeId × Bytes)) : Tree :=
  additions.foldl (fun t a => t.extend a.1 a.2) t

/-- What is added to one file. -/
def addedTo (id : NodeId) (additions : List (NodeId × Bytes)) : Bytes :=
  (additions.filter (·.1 == id)).flatMap (·.2)

/-- An addition to a file leaves the rest of the tree as it is. -/
theorem extend_cases (opened : t.IsFile id) (added : Bytes) :
    t.extend id added = t ∧ added = [] ∨
    (t.extend id added).nodes.size = t.nodes.size ∧ (t.extend id added).home = t.home ∧
      ∀ id', (t.extend id added).node id' =
        if id' = id then .file ((t.content id).1 ++ added) t.clock else t.node id' := by
  rw [extend]
  cases added with
  | nil =>
    -- not even the time of the last change is set
    exact .inl ⟨rfl, rfl⟩
  | cons b added =>
    refine .inr ⟨?_, rfl, fun id' => node_overwrite opened.1 _ id'⟩
    simp [overwrite, tick, setNode]

theorem sameShape_extend (opened : t.IsFile id) (added : Bytes) :
    t.SameShape (t.extend id added) := by
  rcases extend_cases opened added with ⟨hsame, -⟩ | ⟨-, hhome, hnode⟩
  · rw [hsame]
    exact .refl t
  · obtain ⟨-, old, written, hfile⟩ := opened
    refine ⟨hhome, fun id' n hn => ?_⟩
    rw [hnode]
    by_cases h : id' = id
    · rw [if_pos h, h, hfile]
      exact iff_of_false (hn _ _).symm (hn _ _).symm
    · rw [if_neg h]

/-- A file holds what it held, and what was added if it is the one added to. -/
theorem node_extend (opened : t.IsFile id) (added : Bytes) {id' : NodeId}
    (hfile : t.node id' = .file bytes written) : ∃ written',
    (t.extend id added).node id' = .file (bytes ++ if id = id' then added else []) written' := by
  rcases extend_cases opened added with ⟨hsame, rfl⟩ | ⟨-, -, hnode⟩
  · refine ⟨written, ?_⟩
    rw [hsame, hfile, ite_self, List.append_nil]
  · rw [hnode]
    by_cases h : id' = id
    · subst h
      have hcontent : (t.content id').1 = bytes := by rw [content, hfile]
      refine ⟨t.clock, ?_⟩
      rw [if_pos rfl, if_pos rfl, hcontent]
    · refine ⟨written, ?_⟩
      rw [if_neg h, if_neg (Ne.symm h), hfile, List.append_nil]

theorem IsFile.extend {id' : NodeId} (h : t.IsFile id') (opened : t.IsFile id) (added : Bytes) :
    (t.extend id added).IsFile id' := by
  obtain ⟨hlt, bytes, written, hfile⟩ := h
  obtain ⟨written', hfile'⟩ := node_extend opened added hfile
  refine ⟨?_, _, _, hfile'⟩
  rcases extend_cases opened added with ⟨hsame, -⟩ | ⟨hsize, -⟩
  · rwa [hsame]
  · rwa [hsize]

theorem addedTo_cons (id : NodeId) (a : NodeId × Bytes) (additions : List (NodeId × Bytes)) :
    addedTo id (a :: additions) = (if a.1 = id then a.2 else []) ++ addedTo id additions := by
  unfold addedTo
  by_cases h : a.1 = id
  · rw [List.filter_cons, if_pos (beq_iff_eq.mpr h), List.flatMap_cons, if_pos h]
  · rw [List.filter_cons, if_neg (mt beq_iff_eq.mp h), if_neg h, List.nil_append]

/-- Whatever is added to open files, paths lead where they led, and files hold what they held and
behind it what was added to them. -/
theorem extendAll_spec (opened : ∀ a ∈ additions, t.IsFile a.1) :
    t.SameShape (t.extendAll additions) ∧
    ∀ id bytes written, t.node id = .file bytes written → ∃ written',
      (t.extendAll additions).node id = .file (bytes ++ addedTo id additions) written' := by
  induction additions generalizing t with
  | nil =>
    refine ⟨.refl t, fun id bytes written hfile => ⟨written, ?_⟩⟩
    rw [show addedTo id [] = [] from rfl, List.append_nil]
    exact hfile
  | cons a additions ih =>
    obtain ⟨hfirst, hrest⟩ := List.forall_mem_cons.mp opened
    obtain ⟨hshape, hnode⟩ := ih fun b hb => (hrest b hb).extend hfirst a.2
    refine ⟨(sameShape_extend hfirst a.2).trans hshape, fun id bytes written hfile => ?_⟩
    obtain ⟨written₁, hfile₁⟩ := node_extend hfirst a.2 hfile
    obtain ⟨written₂, hfile₂⟩ := hnode id _ written₁ hfile₁
    refine ⟨written₂, ?_⟩
    rw [addedTo_cons, ← List.append_assoc]
    exact hfile₂

/-! ## Reading -/

theorem read_eq_ok_iff : t.read path = .ok (bytes, written) ↔
    ∃ id, t.find path = .ok id ∧ t.node id = .file bytes written := by
  unfold read
  cases hfind : t.find path with
  | error f => exact iff_of_false nofun fun ⟨_, h, _⟩ => nomatch h
  | ok id =>
    simp only [bind, Except.bind, Except.ok.injEq, exists_eq_left']
    cases t.node id with
    | file => simp
    | _ => exact iff_of_false nofun nofun

theorem contains_eq_ok_iff {found : Bool} : t.contains path needles = .ok found ↔
    ∃ bytes written, t.read path = .ok (bytes, written) ∧ containsAny bytes needles = found := by
  unfold contains
  cases t.read path with
  | error f => exact iff_of_false nofun fun ⟨_, _, h, _⟩ => nomatch h
  | ok x => simp [bind, Except.bind, pure, Except.pure, Prod.ext_iff]

theorem read_extendAll (opened : ∀ a ∈ additions, t.IsFile a.1)
    (holds : t.read path = .ok (bytes, written)) :
    ∃ later written', (t.extendAll additions).read path = .ok (bytes ++ later, written') := by
  obtain ⟨id, hfind, hfile⟩ := read_eq_ok_iff.mp holds
  obtain ⟨hshape, hnode⟩ := extendAll_spec opened
  obtain ⟨written', hfile'⟩ := hnode id bytes written hfile
  exact ⟨_, written', read_eq_ok_iff.mpr ⟨id, (hshape.find path).trans hfind, hfile'⟩⟩

/-- What is found in a file is found in it whatever is added to open files. -/
theorem contains_extendAll (steady : Steady needles) (opened : ∀ a ∈ additions, t.IsFile a.1)
    (h : t.contains path needles = .ok true) :
    (t.extendAll additions).contains path needles = .ok true := by
  obtain ⟨bytes, written, holds, hfound⟩ := contains_eq_ok_iff.mp h
  obtain ⟨later, written', holds'⟩ := read_extendAll opened holds
  exact contains_eq_ok_iff.mpr ⟨_, written', holds', containsAny_append steady hfound later⟩

/-- A file in which a marker stands, in whatever case and whatever stands around it, is found to
hold one, and goes on to be found so whatever is added to open files. -/
theorem contains_marker {marker text : String} {front back : Bytes}
    (marked : marker ∈ Election.promotionMarkers) (same : SameButCase text marker)
    (holds : t.read path = .ok (front ++ encode text ++ back, written)) :
    t.contains path Election.promotionMarkers = .ok true ∧
    ∀ additions, (∀ a ∈ additions, t.IsFile a.1) →
      (t.extendAll additions).contains path Election.promotionMarkers = .ok true := by
  have hfound : t.contains path Election.promotionMarkers = .ok true :=
    contains_eq_ok_iff.mpr
      ⟨_, _, holds, Election.containsAny_of_sameButCase marked same front back⟩
  exact ⟨hfound, fun additions opened =>
    contains_extendAll Election.steady_promotionMarkers opened hfound⟩

/-! ## A log with torn characters -/

/-- Bytes that begin a three-byte character and leave it off. -/
def tornBytes : Bytes := [0xE2, 0x84]

/-- A log in which a marker stands in another case between torn characters. -/
def tornLog : Tree where
  nodes := #[.directory 0 [("lead.log", 1)],
    .file (tornBytes ++ encode "PRIMARY lock Acquired" ++ tornBytes) 0]
  home := 0
  clock := 0

theorem tornLog_contains_marker :
    tornLog.contains "lead.log" Election.promotionMarkers = .ok true ∧
    (tornLog.extendAll [(1, [0xAA, 0xFF]), (1, tornBytes)]).contains "lead.log"
      Election.promotionMarkers = .ok true := by
  have hmarked : "Primary lock acquired" ∈ Election.promotionMarkers := List.mem_cons_self
  have hsame : SameButCase "PRIMARY lock Acquired" "Primary lock acquired" := by decide
  have home : tornLog.node tornLog.home = .directory 0 [("lead.log", 1)] := rfl
  have hfind : tornLog.find "lead.log" = .ok 1 := find_of_name (by decide) home rfl nofun
  have hread := read_eq_ok_iff.mpr ⟨1, hfind, rfl⟩
  obtain ⟨hfound, hlater⟩ := contains_marker hmarked hsame hread
  refine ⟨hfound, hlater _ fun a ha => ?_⟩
  have hone : a.1 = 1 := by
    rcases List.mem_cons.mp ha with rfl | ha
    · rfl
    · exact congrArg Prod.fst (List.mem_singleton.mp ha)
  rw [hone]
  exact ⟨by decide, _, _, rfl⟩

end Primacy.Files.Tree
