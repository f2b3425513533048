/-
  Primacy.Proofs.Files.Growth

  Making files and directories leaves alone what is there: where a path led to a node, it leads to
  the same node afterwards.  The trees that are looked at have no loose ends, since a name without
  a node would get one with the next thing made.
-/
import Primacy.Files.Access

namespace Primacy.Files

/-! ## Growth -/

/-- What may become of a node: files change their bytes, directories gain names. -/
inductive Node.Becomes : Node → Node → Prop where
  | file {bytes bytes' : Text.Utf8.Bytes} {written written' : Int} :
      Becomes (.file bytes written) (.file bytes' written')
  | directory {parent : NodeId} {entries entries' : Keyed NodeId}
      (keeps : ∀ name child, entries.get? name = some child → entries'.get? name = some child) :
      Becomes (.directory parent entries) (.directory parent entries')
  | link {target : String} : Becomes (.link target) (.link target)

theorem Node.Becomes.refl (n : Node) : n.Becomes n := by
  cases n with
  | file bytes written => exact .file
  | directory parent entries => exact .directory fun _ _ h => h
  | link target => exact .link

theorem Node.Becomes.trans {n n' n'' : Node} (h : n.Becomes n') (h' : n'.Becomes n'') :
    n.Becomes n'' := by
  cases h with
  | file => cases h'; exact .file
  | directory keeps =>
    cases h' with
    | directory keeps' =>
      exact .directory fun name child h => keeps' name child (keeps name child h)
  | link => exact h'

namespace Tree

variable {t t' t'' : Tree} {id : NodeId} {n : Node}

/-- Every node that is named is there. -/
structure IsClosed (t : Tree) : Prop where
  root : 0 < t.nodes.size
  home : t.home < t.nodes.size
  parent : ∀ id parent entries, t.node id = .directory parent entries → parent < t.nodes.size
  child : ∀ id parent entries name child, t.node id = .directory parent entries →
    entries.get? name = some child → child < t.nodes.size

/-- Nothing is lost between `t` and `t'`. -/
structure Grows (t t' : Tree) : Prop where
  size : t.nodes.size ≤ t'.nodes.size
  home : t'.home = t.home
  node : ∀ id, id < t.nodes.size → (t.node id).Becomes (t'.node id)

theorem Grows.refl (t : Tree) : t.Grows t := ⟨Nat.le_refl _, rfl, fun _ _ => .refl _⟩

theorem Grows.trans (h : t.Grows t') (h' : t'.Grows t'') : t.Grows t'' where
  size := Nat.le_trans h.size h'.size
  home := h'.home.trans h.home
  node id hid := (h.node id hid).trans (h'.node id (Nat.lt_of_lt_of_le hid h.size))

theorem lt_size_of_directory {parent : NodeId} {entries : Keyed NodeId}
    (h : t.node id = .directory parent entries) : id < t.nodes.size := by
  refine Nat.lt_of_not_le fun hid => ?_
  have hdefault : t.node id = default := by
    simp only [node, Array.getD_eq_getD_getElem?, Array.getElem?_eq_none hid, Option.getD_none]
  rw [hdefault] at h
  cases h

theorem Grows.directory (h : t.Grows t') {parent : NodeId} {entries : Keyed NodeId}
    (hnode : t.node id = .directory parent entries) :
    ∃ entries', t'.node id = .directory parent entries' ∧
      ∀ name child, entries.get? name = some child → entries'.get? name = some child := by
  have hbecomes := h.node id (lt_size_of_directory hnode)
  rw [hnode] at hbecomes
  generalize t'.node id = n' at hbecomes ⊢
  cases hbecomes with
  | directory keeps => exact ⟨_, rfl, keeps⟩

theorem Grows.link (h : t.Grows t') (hid : id < t.nodes.size) {target : String} :
    t.node id = .link target ↔ t'.node id = .link target := by
  have hbecomes := h.node id hid
  generalize t.node id = n, t'.node id = n' at hbecomes ⊢
  cases hbecomes with
  | link => exact Iff.rfl
  | _ => exact iff_of_false nofun nofun

/-! ## Following paths in a tree that grew -/

/-- The place is there. -/
def Place.IsIn (t : Tree) : Place → Prop
  | .taken id => id < t.nodes.size
  | .vacant dir name _ =>
    ∃ parent entries, t.node dir = .directory parent entries ∧ entries.get? name = none

/-- What stands at the place in a later tree is `found`; at a free name, a file does. -/
def Place.Holds (t' : Tree) (found : NodeId) : Place → Prop
  | .taken id => id = found
  | .vacant dir name slash => slash = false ∧
    ∃ parent entries bytes written, t'.node dir = .directory parent entries ∧
      entries.get? name = some found ∧ t'.node found = .file bytes written

theorem isIn_of_walk (ht : t.IsClosed) {follow : Bool} {links : Nat} {parts : List (List Char)}
    {place : Place} (hid : id < t.nodes.size) (hw : t.walk follow links id parts = .ok place) :
    place.IsIn t := by
  fun_induction Tree.walk t follow links id parts with
  | case1 => cases hw; exact hid
  | case2 links id part rest parent entries hnode _ ih => exact ih hid hw
  | case3 links id part rest parent entries hnode _ _ ih => exact ih (ht.parent _ _ _ hnode) hw
  | case4 => cases hw
  | case5 links id part rest parent entries hnode _ _ name _ hfree =>
    cases hw
    exact ⟨parent, entries, hnode, hfree⟩
  | case6 => cases hw
  | case7 links id part rest parent entries hnode _ _ name _ child hchild =>
    cases hw
    exact ht.child _ _ _ _ _ hnode hchild
  | case8 => cases hw
  | case9 id part rest parent entries hnode _ _ name _ child hchild target _ _ links ih =>
    refine ih ?_ hw
    split
    · exact ht.root
    · exact hid
  | case10 links id part rest parent entries hnode _ _ name _ child hchild _ ih =>
    exact ih (ht.child _ _ _ _ _ hnode hchild) hw
  | case11 => cases hw

theorem walk_nil (follow : Bool) (links : Nat) (id : NodeId) :
    t.walk follow links id [] = .ok (.taken id) := by
  rw [Tree.walk]

/-- One part of a path that is the name of something. -/
theorem walk_child {follow : Bool} {links : Nat} {part : List Char} {rest : List (List Char)}
    {parent child : NodeId} {entries : Keyed NodeId} (hnode : t.node id = .directory parent entries)
    (hidle : ¬ Path.isIdle part = true) (hup : ¬ (part == ['.', '.']) = true)
    (hlong : ¬ maxName < (String.ofList part).utf8ByteSize)
    (hchild : entries.get? (String.ofList part) = some child) :
    t.walk follow links id (part :: rest) =
      match t.node child with
      | .link target =>
        if rest.isEmpty && !follow then .ok (.taken child)
        else match links with
          | 0 => .error .tooManyLinks
          | links + 1 => t.walk follow links (if Path.isAbsolute target then 0 else id)
              (Path.parts target.toList ++ rest)
      | _ => t.walk follow links child rest := by
  have hwalk := walk.eq_def t follow links id (part :: rest)
  simp only [hnode, if_neg hidle, if_neg hup, if_neg hlong, hchild] at hwalk
  exact hwalk

/-- Where a path led to a node it leads there still, and where it led to a free name it leads to
what has got that name. -/
theorem Grows.walk (h : t.Grows t') (ht : t.IsClosed) {follow : Bool} {links : Nat}
    {parts : List (List Char)} {place : Place} {found : NodeId} (hid : id < t.nodes.size)
    (hw : t.walk follow links id parts = .ok place) (hplace : place.Holds t' found) :
    t'.walk follow links id parts = .ok (.taken found) := by
  fun_induction Tree.walk t follow links id parts with
  | case1 links id =>
    cases hw
    obtain rfl : id = found := hplace
    rw [Tree.walk]
  | case2 links id part rest parent entries hnode hidle ih =>
    obtain ⟨entries', hnode', -⟩ := h.directory hnode
    simp only [Tree.walk, hnode', if_pos hidle]
    exact ih hid hw
  | case3 links id part rest parent entries hnode hidle hup ih =>
    obtain ⟨entries', hnode', -⟩ := h.directory hnode
    simp only [Tree.walk, hnode', if_neg hidle, if_pos hup]
    exact ih (ht.parent _ _ _ hnode) hw
  | case4 => cases hw
  | case5 links id part rest parent entries hnode hidle hup name hlong hfree hrest =>
    cases hw
    obtain ⟨hslash, parent', entries', bytes, written, hnode', hfound, hfile⟩ := hplace
    obtain rfl : rest = [] := by simpa using hslash
    rw [walk_child hnode' hidle hup hlong hfound, hfile]
    exact walk_nil ..
  | case6 => cases hw
  | case7 links id part rest parent entries hnode hidle hup name hlong child hchild target hlink
      hlast =>
    cases hw
    obtain rfl : child = found := hplace
    obtain ⟨entries', hnode', keeps⟩ := h.directory hnode
    rw [walk_child hnode' hidle hup hlong (keeps _ _ hchild),
      (h.link (ht.child _ _ _ _ _ hnode hchild)).mp hlink]
    exact if_pos hlast
  | case8 => cases hw
  | case9 id part rest parent entries hnode hidle hup name hlong child hchild target hlink hlast
      links ih =>
    obtain ⟨entries', hnode', keeps⟩ := h.directory hnode
    rw [walk_child hnode' hidle hup hlong (keeps _ _ hchild),
      (h.link (ht.child _ _ _ _ _ hnode hchild)).mp hlink]
    simp only [if_neg hlast]
    refine ih ?_ hw
    split
    · exact ht.root
    · exact hid
  | case10 links id part rest parent entries hnode hidle hup name hlong child hchild hlink ih =>
    obtain ⟨entries', hnode', keeps⟩ := h.directory hnode
    have hchild' := ht.child _ _ _ _ _ hnode hchild
    have hlink' : ∀ target, t'.node child ≠ .link target :=
      fun target hn => hlink target ((h.link hchild').mpr hn)
    rw [walk_child hnode' hidle hup hlong (keeps _ _ hchild)]
    split
    · next target hn => exact absurd hn (hlink' target)
    · exact ih hchild' hw
  | case11 => cases hw

/-! ## Making things -/

variable {directory parent : NodeId} {entries : Keyed NodeId}

/-- A new name and its node. -/
theorem bindNew_eq (name : String) (n : Node)
    (hdir : t.node directory = .directory parent entries) :
    (t.bindNew directory name n).2 = t.nodes.size ∧
    (t.bindNew directory name n).1.home = t.home ∧
    (t.bindNew directory name n).1.nodes.size = t.nodes.size + 1 ∧
    ∀ id, (t.bindNew directory name n).1.node id =
      if id = directory then .directory parent (entries.insert name t.nodes.size)
      else if id = t.nodes.size then n else t.node id := by
  have hlt := lt_size_of_directory hdir
  have hpush : (t.addNode n).1.node directory = .directory parent entries := by
    rw [← hdir]
    simp [node, addNode, Array.getElem?_push, Nat.ne_of_lt hlt]
  have heq : t.bindNew directory name n =
      ((t.addNode n).1.setNode directory (.directory parent (entries.insert name t.nodes.size)),
        t.nodes.size) := by
    simp only [bindNew]
    rw [hpush]
    rfl
  rw [heq]
  refine ⟨rfl, rfl, ?_, fun id => ?_⟩
  · simp [setNode, addNode]
  · simp only [node, setNode, addNode, Array.getD_eq_getD_getElem?, Array.getElem?_setIfInBounds,
      Array.size_push, Array.getElem?_push]
    by_cases hid : id = directory
    · subst hid
      have hlt' : id < t.nodes.size + 1 := Nat.lt_succ_of_lt hlt
      simp [hlt']
    · by_cases hnew : id = t.nodes.size
      · subst hnew
        simp [hid, Ne.symm hid]
      · simp [hid, hnew, Ne.symm hid]

/-- A new name takes none from anything. -/
theorem grows_bindNew {name : String} (n : Node)
    (hdir : t.node directory = .directory parent entries) (hfree : entries.get? name = none) :
    t.Grows (t.bindNew directory name n).1 := by
  obtain ⟨-, hhome, hsize, hnode⟩ := bindNew_eq name n hdir
  refine ⟨?_, hhome, fun id hid => ?_⟩
  · rw [hsize]
    exact Nat.le_succ _
  · rw [hnode]
    by_cases hself : id = directory
    · rw [if_pos hself, hself, hdir]
      refine .directory fun other child hother => ?_
      have hne : other ≠ name := by
        rintro rfl
        exact nomatch hfree.symm.trans hother
      rw [Keyed.get?_insert, if_neg hne]
      exact hother
    · rw [if_neg hself, if_neg (Nat.ne_of_lt hid)]
      exact .refl _

theorem IsClosed.bindNew (ht : t.IsClosed) (name : String)
    (hdir : t.node directory = .directory parent entries)
    (hn : ∀ p es, n = .directory p es → p < t.nodes.size ∧ es = []) :
    (t.bindNew directory name n).1.IsClosed := by
  obtain ⟨-, hhome, hsize, hnode⟩ := bindNew_eq name n hdir
  have hparent := ht.parent directory parent entries hdir
  refine ⟨?_, ?_, ?_, ?_⟩
  · rw [hsize]
    exact Nat.succ_pos _
  · rw [hsize, hhome]
    exact Nat.lt_succ_of_lt ht.home
  · intro id p es h
    rw [hnode] at h
    rw [hsize]
    refine Nat.lt_succ_of_lt ?_
    split at h
    · cases h
      exact hparent
    · split at h
      · exact (hn p es h).1
      · exact ht.parent id p es h
  · intro id p es other child h hother
    rw [hnode] at h
    rw [hsize]
    split at h
    · cases h
      rw [Keyed.get?_insert] at hother
      split at hother
      · cases hother
        exact Nat.lt_succ_self _
      · exact Nat.lt_succ_of_lt (ht.child _ _ _ _ _ hdir hother)
    · split at h
      · obtain ⟨-, rfl⟩ := hn p es h
        cases hother
      · exact Nat.lt_succ_of_lt (ht.child _ _ _ _ _ h hother)

theorem grows_tick (t : Tree) : t.Grows t.tick := ⟨Nat.le_refl _, rfl, fun _ _ => .refl _⟩

theorem IsClosed.tick (ht : t.IsClosed) : t.tick.IsClosed :=
  ⟨ht.root, ht.home, ht.parent, ht.child⟩

/-! ## Looking up paths -/

variable {follow : Bool} {path : String} {place : Place}

theorem lookup_cases (h : t.lookup follow path = .ok place) :
    ¬ path.toList.contains '\x00' = true ∧ ¬ path.isEmpty = true ∧
    ¬ maxPath < path.utf8ByteSize ∧
    t.walk follow maxLinks (if Path.isAbsolute path then 0 else t.home)
      (Path.parts path.toList) = .ok place := by
  unfold lookup at h
  split at h
  · cases h
  · next hnul =>
    split at h
    · cases h
    · next hempty =>
      split at h
      · cases h
      · next hlong => exact ⟨hnul, hempty, hlong, h⟩

theorem IsClosed.start_lt (ht : t.IsClosed) (path : String) :
    (if Path.isAbsolute path then 0 else t.home) < t.nodes.size := by
  split
  · exact ht.root
  · exact ht.home

theorem isIn_of_lookup (ht : t.IsClosed) (h : t.lookup follow path = .ok place) :
    place.IsIn t :=
  isIn_of_walk ht (ht.start_lt path) (lookup_cases h).2.2.2

theorem Grows.lookup (h : t.Grows t') (ht : t.IsClosed) {found : NodeId}
    (hl : t.lookup follow path = .ok place) (hplace : place.Holds t' found) :
    t'.lookup follow path = .ok (.taken found) := by
  obtain ⟨hnul, hempty, hlong, hw⟩ := lookup_cases hl
  rw [Tree.lookup, if_neg hnul, if_neg hempty, if_neg hlong, h.home]
  exact h.walk ht (ht.start_lt path) hw hplace

/-! ## Names in the working directory -/

/-- The path is one name. -/
def IsName (name : String) : Prop :=
  ¬ name.toList.contains '\x00' = true ∧ ¬ name.isEmpty = true ∧ ¬ maxPath < name.utf8ByteSize ∧
    ¬ Path.isAbsolute name = true ∧ Path.parts name.toList = [name.toList] ∧
    ¬ Path.isIdle name.toList = true ∧ ¬ (name.toList == ['.', '.']) = true ∧
    ¬ maxName < name.utf8ByteSize

instance (name : String) : Decidable (IsName name) := inferInstanceAs (Decidable (_ ∧ _))

variable {name : String} {parent child : NodeId} {entries : Keyed NodeId}

/-- What has a name is found by it. -/
theorem find_of_name (isName : IsName name) (home : t.node t.home = .directory parent entries)
    (hchild : entries.get? name = some child) (hnode : ∀ target, t.node child ≠ .link target) :
    t.find name = .ok child := by
  obtain ⟨hnul, hempty, hshort, hrelative, hparts, hidle, hup, hlong⟩ := isName
  have hwalk : t.walk true maxLinks t.home [name.toList] = .ok (.taken child) := by
    rw [walk_child home hidle hup (by rwa [String.ofList_toList])
      (by rwa [String.ofList_toList])]
    cases hn : t.node child with
    | link target => exact absurd hn (hnode target)
    | _ => exact walk_nil ..
  have hlookup : t.lookup true name = .ok (.taken child) := by
    rw [Tree.lookup, if_neg hnul, if_neg hempty, if_neg hshort, if_neg hrelative, hparts]
    exact hwalk
  rw [find, hlookup]
  rfl

theorem find_of_no_name (isName : IsName name) (home : t.node t.home = .directory parent entries)
    (hfree : entries.get? name = none) : t.find name = .error .notFound := by
  obtain ⟨hnul, hempty, hshort, hrelative, hparts, hidle, hup, hlong⟩ := isName
  have hwalk := walk.eq_def t true maxLinks t.home [name.toList]
  simp only [home, if_neg hidle, if_neg hup, String.ofList_toList, if_neg hlong, hfree] at hwalk
  have hlookup : t.lookup true name = .ok (.vacant t.home name false) := by
    rw [Tree.lookup, if_neg hnul, if_neg hempty, if_neg hshort, if_neg hrelative, hparts]
    exact hwalk
  rw [find, hlookup]
  rfl

theorem list_of_name (isName : IsName name) (home : t.node t.home = .directory parent entries)
    (hchild : entries.get? name = some child) {parent' : NodeId} {below : Keyed NodeId}
    (hnode : t.node child = .directory parent' below) : t.list name = .ok below := by
  have hfind : t.find name = .ok child :=
    find_of_name isName home hchild fun target hlink => nomatch hnode.symm.trans hlink
  rw [list, hfind]
  simp only [bind, Except.bind, hnode]

/-! ## Opening files -/

/-- There is a file at the path, and opening it makes none. -/
def Opens (t : Tree) (path : String) (id : NodeId) : Prop := t.openFile path = .ok (t, id)

theorem openFile_cases (h : t.openFile path = .ok (t', id)) :
    ¬ (path.toList.getLast? == some '/') = true ∧
    ((t.lookup true (withoutSlash path) = .ok (.taken id) ∧ t' = t ∧
        ∃ bytes written, t.node id = .file bytes written) ∨
      ∃ dir name, t.lookup true (withoutSlash path) = .ok (.vacant dir name false) ∧
        t.tick.bindNew dir name (.file [] t.clock) = (t', id)) := by
  unfold openFile at h
  simp only [bind, Except.bind] at h
  split at h
  · cases h
  · next place hl =>
    split at h
    · next found =>
      split at h
      · next bytes written hnode =>
        split at h
        · cases h
        · next hslash =>
          cases h
          exact ⟨hslash, .inl ⟨hl, rfl, bytes, written, hnode⟩⟩
      · cases h
    · next dir name linkSlash =>
      split at h
      · cases h
      · next hslash =>
        rw [Bool.or_eq_true, not_or, Bool.not_eq_true (b := linkSlash)] at hslash
        obtain ⟨hslash, rfl⟩ := hslash
        exact ⟨hslash, .inr ⟨dir, name, hl, Except.ok.inj h⟩⟩

theorem opens_of_file (hslash : ¬ (path.toList.getLast? == some '/') = true)
    (hl : t.lookup true (withoutSlash path) = .ok (.taken id)) {bytes : Text.Utf8.Bytes}
    {written : Int} (hnode : t.node id = .file bytes written) : t.Opens path id := by
  unfold Opens openFile
  simp only [bind, Except.bind, hl, hnode, if_neg hslash]

/-- Where opening makes no file, there is one. -/
theorem Opens.exists_file (ho : t.Opens path id) (ht : t.IsClosed) :
    ¬ (path.toList.getLast? == some '/') = true ∧
    t.lookup true (withoutSlash path) = .ok (.taken id) ∧
    ∃ bytes written, t.node id = .file bytes written := by
  obtain ⟨hslash, ⟨hl, -, hfile⟩ | ⟨dir, name, hl, hbind⟩⟩ := openFile_cases ho
  · exact ⟨hslash, hl, hfile⟩
  · -- a file was made, so the tree is another one
    obtain ⟨parent, entries, hdir, -⟩ := isIn_of_lookup ht hl
    have hsize := (bindNew_eq (t := t.tick) name (.file [] t.clock) hdir).2.2.1
    rw [hbind] at hsize
    exact absurd hsize (Nat.ne_of_lt (Nat.lt_succ_self _))

theorem Opens.grows (ho : t.Opens path id) (ht : t.IsClosed) (h : t.Grows t') :
    t'.Opens path id := by
  obtain ⟨hslash, hl, bytes, written, hnode⟩ := ho.exists_file ht
  have hbecomes := h.node id (isIn_of_lookup ht hl)
  rw [hnode] at hbecomes
  have hl' := h.lookup ht hl rfl
  generalize hnode' : t'.node id = n' at hbecomes
  cases hbecomes with
  | file => exact opens_of_file hslash hl' hnode'

theorem openFile_spec (ht : t.IsClosed) (h : t.openFile path = .ok (t', id)) :
    t.Grows t' ∧ t'.IsClosed ∧ t'.Opens path id := by
  obtain ⟨hslash, ⟨hl, rfl, -⟩ | ⟨dir, name, hl, hbind⟩⟩ := openFile_cases h
  · exact ⟨.refl t', ht, h⟩
  · obtain ⟨parent, entries, hdir, hfree⟩ := isIn_of_lookup ht hl
    have hdir' : t.tick.node dir = .directory parent entries := hdir
    have hgrows := (grows_tick t).trans (grows_bindNew (.file [] t.clock) hdir' hfree)
    have hclosed := ht.tick.bindNew (n := .file [] t.clock) name hdir' nofun
    obtain ⟨hid, -, -, hnode⟩ := bindNew_eq name (.file [] t.clock) hdir'
    rw [hbind] at hgrows hclosed hid hnode
    obtain rfl : id = t.nodes.size := hid
    have hne : t.nodes.size ≠ dir := Nat.ne_of_gt (lt_size_of_directory hdir)
    have hnamed : t'.node dir = .directory parent (entries.insert name t.nodes.size) :=
      (hnode dir).trans (if_pos rfl)
    have hfile : t'.node t.nodes.size = .file [] t.clock :=
      (hnode t.nodes.size).trans ((if_neg hne).trans (if_pos rfl))
    have hget : (entries.insert name t.nodes.size).get? name = some t.nodes.size := by
      rw [Keyed.get?_insert, if_pos rfl]
    have hl' := hgrows.lookup ht hl ⟨rfl, parent, _, [], t.clock, hnamed, hget, hfile⟩
    exact ⟨hgrows, hclosed, opens_of_file hslash hl' hfile⟩

/-! ## Making directories -/

theorem makeDirectory_spec (ht : t.IsClosed) (h : t.makeDirectory path = .ok t') :
    t.Grows t' ∧ t'.IsClosed := by
  unfold makeDirectory placeFor at h
  simp only [bind, Except.bind, pure, Except.pure] at h
  split at h
  · cases h
  · next place hplace =>
    split at hplace
    · cases hplace
    · next found hl =>
      split at hplace
      · cases hplace
      · next dir name slash =>
        cases hplace
        obtain ⟨parent, entries, hdir, hfree⟩ := isIn_of_lookup ht hl
        cases h
        refine ⟨grows_bindNew _ hdir hfree, ht.bindNew name hdir fun p es hn => ?_⟩
        cases hn
        exact ⟨lt_size_of_directory hdir, rfl⟩

theorem makeBelow_spec (ht : t.IsClosed) {above : Option (String → Tree × Except Fault Unit)}
    (habove : ∀ f ∈ above, ∀ dir, t.Grows (f dir).1 ∧ (f dir).1.IsClosed) (path : String) :
    t.Grows (t.makeBelow above path).1 ∧ (t.makeBelow above path).1.IsClosed := by
  unfold makeBelow
  split
  · exact ⟨.refl t, ht⟩
  · split
    · next h => exact makeDirectory_spec ht h
    · split
      · next f dir _ =>
        have hmade := habove f rfl dir
        split
        · next t₁ heq =>
          rw [heq] at hmade
          obtain ⟨hgrows, hclosed⟩ := hmade
          split
          · next h =>
            have hlast := makeDirectory_spec hclosed h
            exact ⟨hgrows.trans hlast.1, hlast.2⟩
          · exact ⟨hgrows, hclosed⟩
        · exact hmade
      · exact ⟨.refl t, ht⟩
    · exact ⟨.refl t, ht⟩

theorem makeAbove_spec (ht : t.IsClosed) (depth : Nat) (path : String) :
    t.Grows (t.makeAbove depth path).1 ∧ (t.makeAbove depth path).1.IsClosed := by
  -- on the number of directories above that may be made
  induction depth generalizing path with
  | zero => exact makeBelow_spec ht (fun f hf => absurd hf (Option.not_mem_none f)) path
  | succ depth ih =>
    refine makeBelow_spec ht (fun f hf dir => ?_) path
    obtain rfl := Option.some.inj hf
    exact ih dir

theorem prepareParent_spec (ht : t.IsClosed) (path : String) :
    t.Grows (t.prepareParent path).1 ∧ (t.prepareParent path).1.IsClosed := by
  unfold prepareParent
  split
  · split
    · exact ⟨.refl t, ht⟩
    · exact makeAbove_spec ht _ _
  · exact ⟨.refl t, ht⟩

end Tree

end Primacy.Files
