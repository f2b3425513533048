/-
  Primacy.Proofs.Lock.Sharing

  Handles on lock files in one file tree.  A handle keeps the first path that it is connected to,
  and its grants are for the file there: of the handles that were first connected to one address,
  at most one holds a grant at a time, whatever they were connected to later.
-/
import Mathlib.Logic.Function.Basic
import Primacy.Proofs.Files.Growth
import Primacy.Proofs.Lock.Service

namespace Primacy.Lock

open Files (NodeId Tree)

/-! ## What one look at a call does -/

/-- The address that an answered call has connected its handle to. -/
def Call.linked? : Call → Except LockError Bool → Option String
  | connect address, .ok _ => some address
  | _, _ => none

namespace Handle

variable {h : Handle} {files : Tree} {locked : List NodeId}

theorem connect_spec (h : Handle) (ht : files.IsClosed) (address : String) :
    files.Grows (h.connect files address).1 ∧ (h.connect files address).1.IsClosed ∧
    ∀ h', (h.connect files address).2 = .ok h' →
      h' = { h with path := h.path <|> some address } := by
  unfold connect
  have hprepare := Tree.prepareParent_spec ht address
  split
  · next files₁ f heq =>
    rw [heq] at hprepare
    exact ⟨hprepare.1, hprepare.2, nofun⟩
  · next files₁ heq =>
    rw [heq] at hprepare
    obtain ⟨hgrows, hclosed⟩ := hprepare
    split
    · exact ⟨hgrows, hclosed, nofun⟩
    · next files₂ id hopen =>
      obtain ⟨hgrows', hclosed', -⟩ := Tree.openFile_spec hclosed hopen
      exact ⟨hgrows.trans hgrows', hclosed', fun h' heq => (Except.ok.inj heq).symm⟩

/-- An attempt leaves the handle as it is, or locks the file that its path leads to. -/
theorem tryAcquire_spec (h : Handle) (ht : files.IsClosed) (locked : List NodeId)
    (owner : String) :
    files.Grows (h.tryAcquire files locked owner).1 ∧
    (h.tryAcquire files locked owner).1.IsClosed ∧
    ∀ granted h' locked', (h.tryAcquire files locked owner).2 = .ok (granted, h', locked') →
      (h' = h ∧ locked' = locked) ∨
      (granted = true ∧ h.held = none ∧ ∃ path id, h.path = some path ∧
        (h.tryAcquire files locked owner).1.Opens path id ∧ id ∉ locked ∧
        h' = { h with held := some (owner, id) } ∧ locked' = id :: locked) := by
  unfold tryAcquire
  split
  · exact ⟨.refl files, ht, nofun⟩
  · next path hpath =>
    split
    · refine ⟨.refl files, ht, fun granted h' locked' heq => .inl ?_⟩
      cases heq
      exact ⟨rfl, rfl⟩
    · next hfree =>
      split
      · exact ⟨.refl files, ht, nofun⟩
      · next files' id hopen =>
        obtain ⟨hgrows, hclosed, hopens⟩ := Tree.openFile_spec ht hopen
        split
        · refine ⟨hgrows, hclosed, fun granted h' locked' heq => .inl ?_⟩
          cases heq
          exact ⟨rfl, rfl⟩
        · next hunlocked =>
          refine ⟨hgrows, hclosed, fun granted h' locked' heq => .inr ?_⟩
          cases heq
          exact ⟨rfl, hfree, path, id, hpath, hopens, by simpa using hunlocked, rfl, rfl⟩

/-- Everything that a look at a call can come to, on a tree without loose ends. -/
inductive Serves (h : Handle) (files : Tree) (locked : List NodeId) :
    Call → (Tree × List NodeId) × Option (Except LockError Bool) × Handle → Prop where
  | quiet {c : Call} {files' : Tree} {r : Option (Except LockError Bool)}
      (grows : files.Grows files') (closed : files'.IsClosed)
      (unbound : r.bind c.linked? = none) :
      Serves h files locked c ((files', locked), r, h)
  | connect {address : String} {files' : Tree} (grows : files.Grows files')
      (closed : files'.IsClosed) :
      Serves h files locked (.connect address)
        ((files', locked), some (.ok true), { h with path := h.path <|> some address })
  | grant {c : Call} {owner path : String} {id : NodeId} {files' : Tree}
      (grows : files.Grows files') (closed : files'.IsClosed)
      (granted : c.granted? (some (.ok true)) = some owner) (free : h.held = none)
      (bound : h.path = some path) (opens : files'.Opens path id) (unlocked : id ∉ locked) :
      Serves h files locked c
        ((files', id :: locked), some (.ok true), { h with held := some (owner, id) })
  | release {owner : String} {id : NodeId} (held : h.held = some (owner, id)) :
      Serves h files locked (.unlock owner)
        ((files, locked.erase id), some (.ok true), { h with held := none })

theorem serves (h : Handle) (ht : files.IsClosed) (locked : List NodeId) (c : Call) :
    h.Serves files locked c (h.serve files locked c) := by
  cases c with
  | connect address =>
    have hspec := connect_spec h ht address
    simp only [serve]
    rcases hc : h.connect files address with ⟨files', e | h'⟩
    · rw [hc] at hspec
      exact .quiet hspec.1 hspec.2.1 rfl
    · rw [hc] at hspec
      obtain ⟨hgrows, hclosed, heq⟩ := hspec
      obtain rfl := heq h' rfl
      exact .connect hgrows hclosed
  | tryLock owner =>
    have hspec := tryAcquire_spec h ht locked owner
    simp only [serve]
    rcases ha : h.tryAcquire files locked owner with ⟨files', e | ⟨granted, h', locked'⟩⟩
    · rw [ha] at hspec
      exact .quiet hspec.1 hspec.2.1 rfl
    · rw [ha] at hspec
      obtain ⟨hgrows, hclosed, hcase⟩ := hspec
      rcases hcase granted h' locked' rfl with
        ⟨rfl, rfl⟩ | ⟨rfl, hfree, path, id, hpath, hopens, hunlocked, rfl, rfl⟩
      · exact .quiet hgrows hclosed rfl
      · exact .grant hgrows hclosed rfl hfree hpath hopens hunlocked
  | lock owner =>
    have hspec := tryAcquire_spec h ht locked owner
    simp only [serve]
    rcases ha : h.tryAcquire files locked owner with ⟨files', e | ⟨granted, h', locked'⟩⟩
    · rw [ha] at hspec
      exact .quiet hspec.1 hspec.2.1 rfl
    · rw [ha] at hspec
      obtain ⟨hgrows, hclosed, hcase⟩ := hspec
      rcases hcase granted h' locked' rfl with
        ⟨rfl, rfl⟩ | ⟨rfl, hfree, path, id, hpath, hopens, hunlocked, rfl, rfl⟩
      · cases granted with
        | true => exact .quiet hgrows hclosed rfl
        | false => exact .quiet hgrows hclosed rfl
      · exact .grant hgrows hclosed rfl hfree hpath hopens hunlocked
  | unlock owner =>
    simp only [serve, release]
    cases hheld : h.held with
    | some held =>
      obtain ⟨holder, id⟩ := held
      by_cases howner : holder = owner
      · subst howner
        simp only [if_true]
        exact .release hheld
      · simp only [if_neg howner]
        exact .quiet (.refl files) ht rfl
    | none => exact .quiet (.refl files) ht rfl

/-- A handle without a path gets that of an accepted connect. -/
theorem path_of_serves {c : Call}
    {out : (Tree × List NodeId) × Option (Except LockError Bool) × Handle}
    (hserves : h.Serves files locked c out) :
    out.2.2.path = h.path.or (out.2.1.bind c.linked?) := by
  have hkept : ∀ {r : Option (Except LockError Bool)}, r.bind c.linked? = none →
      h.path = h.path.or (r.bind c.linked?) := fun unbound => by
    rw [unbound, Option.or_none]
  cases hserves with
  | quiet grows closed unbound => exact hkept unbound
  | connect grows closed =>
    show (h.path <|> _) = _
    cases h.path <;> rfl
  | grant grows closed granted =>
    refine hkept ?_
    cases c with
    | connect address => cases granted
    | _ => rfl
  | release held => exact hkept rfl

end Handle

/-! ## Handles and what happens to them -/

/-- A call on a handle, and what was answered. -/
structure Answered (κ : Type) where
  handle : κ
  call : Call
  result : Except LockError Bool

namespace Answered

variable {κ : Type} [DecidableEq κ]

/-- The address of the first connect on a handle that was accepted. -/
def bound? (log : List (Answered κ)) (k : κ) : Option String :=
  log.findSome? fun e => if e.handle = k then e.call.linked? e.result else none

/-- The owner that was granted the lock on a handle and has not given it back. -/
def grantee? (log : List (Answered κ)) (k : κ) : Option String :=
  log.foldl (fun before e =>
    if e.handle = k then e.call.holderAfter before (some e.result) else before) none

variable {log : List (Answered κ)} {k k' : κ} {c : Call} {r : Except LockError Bool}

theorem bound?_append_self : bound? (log ++ [⟨k, c, r⟩]) k =
    (bound? log k).or (c.linked? r) := by
  simp [bound?, List.findSome?_append]

theorem bound?_append_other (h : k' ≠ k) : bound? (log ++ [⟨k, c, r⟩]) k' = bound? log k' := by
  simp [bound?, List.findSome?_append, Ne.symm h]

theorem grantee?_append_self : grantee? (log ++ [⟨k, c, r⟩]) k =
    c.holderAfter (grantee? log k) (some r) := by
  simp [grantee?]

theorem grantee?_append_other (h : k' ≠ k) :
    grantee? (log ++ [⟨k, c, r⟩]) k' = grantee? log k' := by
  simp [grantee?, Ne.symm h]

end Answered

/-- Handles, the files they are on, those of the files that anyone has locked, and the calls that
were answered, the earliest first. -/
structure Sharing (κ : Type) where
  files : Tree
  locked : List NodeId
  handles : κ → Handle
  log : List (Answered κ)

namespace Sharing

variable {κ : Type}

def fresh (files : Tree) (locked : List NodeId) : Sharing κ := ⟨files, locked, fun _ => .fresh, []⟩

/-- Others make, change and remove files, and lock and unlock them, but lock files stay where they
are, and what a handle has locked stays locked. -/
structure Spares (s : Sharing κ) (files : Tree) (locked : List NodeId) : Prop where
  closed : files.IsClosed
  opens : ∀ k path id, (s.handles k).path = some path → s.files.Opens path id →
    files.Opens path id
  held : ∀ k owner id, (s.handles k).held = some (owner, id) → id ∈ locked

variable [DecidableEq κ]

/-- What comes of a look at the call `c` on the handle `k`, given what it came to there. -/
def after (s : Sharing κ) (k : κ) (c : Call)
    (out : (Tree × List NodeId) × Option (Except LockError Bool) × Handle) : Sharing κ where
  files := out.1.1
  locked := out.1.2
  handles := Function.update s.handles k out.2.2
  log := match out.2.1 with
    | some r => s.log ++ [⟨k, c, r⟩]
    | none => s.log

/-- One look at a call. -/
def look (s : Sharing κ) (k : κ) (c : Call) : Sharing κ :=
  s.after k c ((s.handles k).serve s.files s.locked c)

/-- What any number of calls on handles lead to, looked at in any order, with others at work in
between. -/
inductive Reachable (s₀ : Sharing κ) : Sharing κ → Prop where
  | refl : Reachable s₀ s₀
  | look {s : Sharing κ} (before : Reachable s₀ s) (k : κ) (c : Call) : Reachable s₀ (s.look k c)
  | outside {s : Sharing κ} {files : Tree} {locked : List NodeId} (before : Reachable s₀ s)
      (spares : s.Spares files locked) :
      Reachable s₀ { s with files := files, locked := locked }

/-! ## One lock file, one grant -/

/-- What handles hold is locked, where their paths lead, and held by one of them only. -/
structure Apart (s : Sharing κ) : Prop where
  held : ∀ k owner id, (s.handles k).held = some (owner, id) → id ∈ s.locked ∧
    ∃ path, (s.handles k).path = some path ∧ s.files.Opens path id
  sole : ∀ k k' owner owner' id, (s.handles k).held = some (owner, id) →
    (s.handles k').held = some (owner', id) → k = k'

/-- Handles are where their answered calls have left them, and what they hold is apart. -/
structure Sound (s : Sharing κ) : Prop where
  closed : s.files.IsClosed
  path : ∀ k, (s.handles k).path = Answered.bound? s.log k
  holder : ∀ k, (s.handles k).holder = Answered.grantee? s.log k
  apart : s.Apart

variable {s : Sharing κ} {files : Tree} {locked : List NodeId} {k k' : κ} {c : Call}

theorem sound_fresh (hfiles : files.IsClosed) : (fresh files locked : Sharing κ).Sound where
  closed := hfiles
  path _ := rfl
  holder _ := rfl
  apart := ⟨nofun, nofun⟩

theorem Sound.outside (hs : s.Sound) (spares : s.Spares files locked) :
    ({ s with files := files, locked := locked } : Sharing κ).Sound where
  closed := spares.closed
  path := hs.path
  holder := hs.holder
  apart := by
    refine ⟨fun k owner id h => ?_, hs.apart.sole⟩
    obtain ⟨-, path, hpath, hopens⟩ := hs.apart.held k owner id h
    exact ⟨spares.held k owner id h, path, hpath, spares.opens k path id hpath hopens⟩

@[simp] theorem after_handles_self (s : Sharing κ) (k : κ) (c : Call)
    (out : (Tree × List NodeId) × Option (Except LockError Bool) × Handle) :
    (s.after k c out).handles k = out.2.2 := by
  simp [after]

theorem after_handles_other (s : Sharing κ) (c : Call)
    (out : (Tree × List NodeId) × Option (Except LockError Bool) × Handle) (h : k' ≠ k) :
    (s.after k c out).handles k' = s.handles k' := by
  simp [after, h]

variable {out : (Tree × List NodeId) × Option (Except LockError Bool) × Handle}

theorem Sound.path_after (hs : s.Sound)
    (hk : out.2.2.path = (s.handles k).path.or (out.2.1.bind c.linked?)) :
    ∀ k', ((s.after k c out).handles k').path = Answered.bound? (s.after k c out).log k' := by
  intro k'
  by_cases hne : k' = k
  · subst hne
    rw [after_handles_self, hk, hs.path k']
    cases hr : out.2.1 with
    | some r =>
      simp only [after, hr]
      exact Answered.bound?_append_self.symm
    | none =>
      simp only [after, hr]
      exact Option.or_none
  · rw [after_handles_other s c out hne, hs.path k']
    cases hr : out.2.1 with
    | some r =>
      simp only [after, hr]
      exact (Answered.bound?_append_other hne).symm
    | none => simp only [after, hr]

theorem Sound.holder_after (hs : s.Sound)
    (hk : out.2.2.holder = c.holderAfter (s.handles k).holder out.2.1)
    (hnone : out.2.1 = none → c.freed? = none) :
    ∀ k', ((s.after k c out).handles k').holder = Answered.grantee? (s.after k c out).log k' := by
  intro k'
  by_cases hne : k' = k
  · subst hne
    rw [after_handles_self, hk, hs.holder k']
    cases hr : out.2.1 with
    | some r =>
      simp only [after, hr]
      exact Answered.grantee?_append_self.symm
    | none =>
      simp only [after, hr]
      refine Call.holderAfter_of_kept ?_ (.inl (hnone hr))
      cases c <;> rfl
  · rw [after_handles_other s c out hne, hs.holder k']
    cases hr : out.2.1 with
    | some r =>
      simp only [after, hr]
      exact (Answered.grantee?_append_other hne).symm
    | none => simp only [after, hr]

/-- A call that is to wait is no unlock. -/
theorem freed?_of_serve_none (h : Handle) (files : Tree) (locked : List NodeId) (c : Call)
    (hr : (h.serve files locked c).2.1 = none) :
    c.freed? = none := by
  cases c with
  | unlock owner =>
    simp only [Handle.serve] at hr
    split at hr
    · cases hr
    · cases hr
  | _ => rfl

/-- What a handle that was not looked at holds is where it was. -/
theorem Sound.held_other (hs : s.Sound) (grows : s.files.Grows out.1.1) {owner : String}
    {id : NodeId} (hne : k' ≠ k) (h : ((s.after k c out).handles k').held = some (owner, id)) :
    (s.handles k').held = some (owner, id) ∧ id ∈ s.locked ∧
      ∃ path, ((s.after k c out).handles k').path = some path ∧ out.1.1.Opens path id := by
  rw [after_handles_other s c out hne] at h ⊢
  obtain ⟨hmem, path, hpath, hopens⟩ := hs.apart.held k' owner id h
  exact ⟨h, hmem, path, hpath, hopens.grows hs.closed grows⟩

theorem Sound.apart_of_kept (hs : s.Sound) (grows : s.files.Grows out.1.1)
    (hlocked : out.1.2 = s.locked) (hheld : out.2.2.held = (s.handles k).held)
    (hpath : ∀ path, (s.handles k).path = some path → out.2.2.path = some path) :
    (s.after k c out).Apart := by
  have hsame : ∀ k', ((s.after k c out).handles k').held = (s.handles k').held := by
    intro k'
    by_cases hne : k' = k
    · rw [hne, after_handles_self, hheld]
    · rw [after_handles_other s c out hne]
  constructor
  · intro k' owner id h
    show id ∈ out.1.2 ∧ _
    rw [hlocked]
    by_cases hne : k' = k
    · subst hne
      rw [hsame] at h
      obtain ⟨hmem, path, hbound, hopens⟩ := hs.apart.held k' owner id h
      rw [after_handles_self]
      exact ⟨hmem, path, hpath path hbound, hopens.grows hs.closed grows⟩
    · exact (hs.held_other grows hne h).2
  · intro k₁ k₂ owner owner' id h₁ h₂
    rw [hsame] at h₁ h₂
    exact hs.apart.sole k₁ k₂ owner owner' id h₁ h₂

/-- A handle that locks a file which nobody had locked is alone in holding it. -/
theorem Sound.apart_of_grant (hs : s.Sound) {owner path : String} {id : NodeId} {h : Handle}
    (grows : s.files.Grows out.1.1) (hlocked : out.1.2 = id :: s.locked)
    (hh : out.2.2 = h) (hheld : h.held = some (owner, id)) (hpath : h.path = some path)
    (opens : out.1.1.Opens path id) (unlocked : id ∉ s.locked) : (s.after k c out).Apart := by
  have hself : ∀ {owner' id'}, ((s.after k c out).handles k).held = some (owner', id') →
      id' = id := by
    intro owner' id' h'
    rw [after_handles_self, hh, hheld] at h'
    exact (Prod.mk.inj (Option.some.inj h')).2.symm
  constructor
  · intro k' owner' id' h'
    show id' ∈ out.1.2 ∧ _
    rw [hlocked]
    by_cases hne : k' = k
    · subst hne
      obtain rfl := hself h'
      rw [after_handles_self, hh]
      exact ⟨List.mem_cons_self, path, hpath, opens⟩
    · obtain ⟨-, hmem, hopens⟩ := hs.held_other grows hne h'
      exact ⟨List.mem_cons_of_mem _ hmem, hopens⟩
  · intro k₁ k₂ owner₁ owner₂ id' h₁ h₂
    by_cases hne₁ : k₁ = k
    · by_cases hne₂ : k₂ = k
      · exact hne₁.trans hne₂.symm
      · subst hne₁
        obtain rfl := hself h₁
        exact absurd (hs.held_other grows hne₂ h₂).2.1 unlocked
    · by_cases hne₂ : k₂ = k
      · subst hne₂
        obtain rfl := hself h₂
        exact absurd (hs.held_other grows hne₁ h₁).2.1 unlocked
      · exact hs.apart.sole k₁ k₂ owner₁ owner₂ id' (hs.held_other grows hne₁ h₁).1
          (hs.held_other grows hne₂ h₂).1

/-- A handle that unlocks what it held leaves alone what the others hold. -/
theorem Sound.apart_of_release (hs : s.Sound) {owner : String} {id : NodeId}
    (held : (s.handles k).held = some (owner, id)) (hfiles : out.1.1 = s.files)
    (hlocked : out.1.2 = s.locked.erase id) (hheld : out.2.2.held = none) :
    (s.after k c out).Apart := by
  have grows : s.files.Grows out.1.1 := hfiles ▸ .refl s.files
  have hother : ∀ {k' owner' id'}, ((s.after k c out).handles k').held = some (owner', id') →
      k' ≠ k := by
    rintro k' owner' id' h' rfl
    rw [after_handles_self, hheld] at h'
    cases h'
  constructor
  · intro k' owner' id' h'
    obtain ⟨hbefore, hmem, hopens⟩ := hs.held_other grows (hother h') h'
    have hne : id' ≠ id := by
      rintro rfl
      exact hother h' (hs.apart.sole k' k owner' owner id' hbefore held)
    show id' ∈ out.1.2 ∧ _
    rw [hlocked]
    exact ⟨(List.mem_erase_of_ne hne).mpr hmem, hopens⟩
  · intro k₁ k₂ owner₁ owner₂ id' h₁ h₂
    exact hs.apart.sole k₁ k₂ owner₁ owner₂ id' (hs.held_other grows (hother h₁) h₁).1
      (hs.held_other grows (hother h₂) h₂).1

/-- A look keeps what there is: the one case in which a handle comes to hold something, it is a
file that nobody had locked. -/
theorem Sound.look (hs : s.Sound) (k : κ) (c : Call) : (s.look k c).Sound := by
  have hserves := (s.handles k).serves hs.closed s.locked c
  have hholder := (s.handles k).holder_serve s.files s.locked c
  have hnone := freed?_of_serve_none (s.handles k) s.files s.locked c
  rw [Sharing.look]
  generalize (s.handles k).serve s.files s.locked c = out at hserves hholder hnone ⊢
  have hpath := hs.path_after (k := k) (Handle.path_of_serves hserves)
  have hholders := hs.holder_after hholder hnone
  refine ⟨?_, hpath, hholders, ?_⟩
  · cases hserves with
    | quiet grows closed unbound => exact closed
    | connect grows closed => exact closed
    | grant grows closed granted free bound opens unlocked => exact closed
    | release held => exact hs.closed
  · cases hserves with
    | quiet grows closed unbound => exact hs.apart_of_kept grows rfl rfl fun _ h => h
    | connect grows closed =>
      refine hs.apart_of_kept grows rfl rfl fun path h => ?_
      show (_ <|> _) = some path
      rw [h]
      rfl
    | grant grows closed granted free bound opens unlocked =>
      exact hs.apart_of_grant grows rfl rfl rfl bound opens unlocked
    | release held => exact hs.apart_of_release held rfl rfl rfl

theorem Reachable.sound (h : Reachable (fresh files locked) s) (hfiles : files.IsClosed) :
    s.Sound := by
  induction h with
  | refl => exact sound_fresh hfiles
  | look before k c ih => exact ih.look k c
  | outside before spares ih => exact ih.outside spares

/-- Handles that hold something hold one thing each where their paths lead. -/
theorem Sound.eq_of_grantee (hs : s.Sound) {address owner owner' : String}
    (hk : Answered.bound? s.log k = some address) (hk' : Answered.bound? s.log k' = some address)
    (ho : Answered.grantee? s.log k = some owner)
    (ho' : Answered.grantee? s.log k' = some owner') : k = k' := by
  have hheld : ∀ {k : κ} {owner : String}, Answered.bound? s.log k = some address →
      Answered.grantee? s.log k = some owner →
      ∃ id, (s.handles k).held = some (owner, id) ∧ s.files.Opens address id := by
    intro k owner hk ho
    rw [← hs.holder] at ho
    obtain ⟨⟨owner, id⟩, hheld, rfl⟩ := Option.map_eq_some_iff.mp ho
    obtain ⟨-, path, hpath, hopens⟩ := hs.apart.held k owner id hheld
    obtain rfl := Option.some.inj (hpath.symm.trans ((hs.path k).trans hk))
    exact ⟨id, hheld, hopens⟩
  obtain ⟨id, hid, hopens⟩ := hheld hk ho
  obtain ⟨id', hid', hopens'⟩ := hheld hk' ho'
  obtain rfl : id = id' := (Prod.mk.inj (Except.ok.inj (hopens.symm.trans hopens'))).2
  exact hs.apart.sole k k' owner owner' id hid hid'

/-! ## Connected twice -/

/-- A directory with two files. -/
def desk : Tree where
  nodes := #[.directory 0 [("a", 1), ("b", 2)], .file [] 0, .file [] 0]
  home := 0
  clock := 0

theorem isClosed_desk : desk.IsClosed := by
  have honly : ∀ id parent entries, desk.node id = .directory parent entries →
      parent = 0 ∧ entries = [("a", 1), ("b", 2)] := by
    intro id parent entries h
    match id with
    | 0 =>
      cases h
      exact ⟨rfl, rfl⟩
    | 1 => cases h
    | 2 => cases h
    | id + 3 => cases h
  refine ⟨by decide, by decide, fun id parent entries h => ?_, ?_⟩
  · rw [(honly id parent entries h).1]
    decide
  · intro id parent entries name child h hchild
    rw [(honly id parent entries h).2, Keyed.get?_cons, Keyed.get?_cons] at hchild
    split at hchild
    · cases hchild
      decide
    · split at hchild
      · cases hchild
        decide
      · cases hchild

/-- The paths of the two files. -/
def leaf (b : Bool) : String := cond b "a" "b"

def leafId (b : Bool) : NodeId := cond b 1 2

theorem opens_leaf (b : Bool) : desk.Opens (leaf b) (leafId b) := by
  have hnode : desk.node 0 = .directory 0 [("a", 1), ("b", 2)] := rfl
  have hlookup : desk.lookup true (Tree.withoutSlash (leaf b)) = .ok (.taken (leafId b)) := by
    have hparts : Path.parts (Tree.withoutSlash (leaf b)).toList = [(leaf b).toList] := by
      cases b <;> decide
    rw [Tree.lookup, if_neg (by cases b <;> decide), if_neg (by cases b <;> decide),
      if_neg (by cases b <;> decide), hparts, if_neg (by cases b <;> decide)]
    show desk.walk true Tree.maxLinks 0 [(leaf b).toList] = _
    have hchild : Keyed.get? [("a", 1), ("b", 2)] (String.ofList (leaf b).toList) =
        some (leafId b) := by
      cases b <;> decide
    rw [Tree.walk_child hnode (by cases b <;> decide) (by cases b <;> decide)
      (by cases b <;> decide) hchild]
    cases b <;> exact Tree.walk_nil ..
  have hfile : desk.node (leafId b) = .file [] 0 := by
    cases b <;> rfl
  exact Tree.opens_of_file (by cases b <;> decide) hlookup hfile

theorem serve_connect_leaf (h : Handle) (locked : List NodeId) (b : Bool) :
    h.serve desk locked (.connect (leaf b)) =
      ((desk, locked), some (.ok true), { h with path := h.path <|> some (leaf b) }) := by
  have hparent : desk.prepareParent (leaf b) = (desk, .ok ()) := by
    cases b <;> rfl
  have hopens : desk.openFile (leaf b) = .ok (desk, leafId b) := opens_leaf b
  simp only [Handle.serve, Handle.connect, hparent, hopens]

theorem serve_tryLock_leaf {h : Handle} {b : Bool} (hpath : h.path = some (leaf b))
    (hfree : h.held = none) (locked : List NodeId) (owner : String) :
    h.serve desk locked (.tryLock owner) =
      if locked.contains (leafId b) then ((desk, locked), some (.ok false), h)
      else ((desk, leafId b :: locked), some (.ok true),
        { h with held := some (owner, leafId b) }) := by
  have hopens : desk.openFile (leaf b) = .ok (desk, leafId b) := opens_leaf b
  simp only [Handle.serve, Handle.tryAcquire, hpath, hfree, hopens]
  by_cases hlocked : locked.contains (leafId b) = true
  · simp only [if_pos hlocked]
  · simp only [if_neg hlocked]

theorem Reachable.after {s₀ s : Sharing κ} (h : Reachable s₀ s) {k : κ} {c : Call}
    {out : (Tree × List NodeId) × Option (Except LockError Bool) × Handle}
    (hout : (s.handles k).serve s.files s.locked c = out) : Reachable s₀ (s.after k c out) :=
  hout ▸ h.look k c

/-- A handle is connected to two files one after the other, and another one to the second file. -/
def crossed : Sharing Bool :=
  fresh desk []
    |>.after true (.connect "a") ((desk, []), some (.ok true), ⟨some "a", none⟩)
    |>.after true (.connect "b") ((desk, []), some (.ok true), ⟨some "a", none⟩)
    |>.after false (.connect "b") ((desk, []), some (.ok true), ⟨some "b", none⟩)
    |>.after true (.tryLock "p") ((desk, [1]), some (.ok true), ⟨some "a", some ("p", 1)⟩)
    |>.after false (.tryLock "q") ((desk, [2, 1]), some (.ok true), ⟨some "b", some ("q", 2)⟩)

theorem reachable_crossed : Reachable (fresh desk []) crossed :=
  Reachable.refl.after (serve_connect_leaf _ _ true) |>.after (serve_connect_leaf _ _ false)
    |>.after (serve_connect_leaf _ _ false)
    |>.after (serve_tryLock_leaf (b := true) rfl rfl _ _)
    |>.after (serve_tryLock_leaf (b := false) rfl rfl _ _)

/-- Handles may both hold grants though the one was connected to the other one's address before
its grant, and the other one to no other address. -/
theorem not_eq_of_connect : ¬ ∀ (s : Sharing Bool) (k k' : Bool) (address owner owner' : String),
    Reachable (fresh desk []) s →
    [⟨k, .connect address, .ok true⟩, ⟨k, .tryLock owner, .ok true⟩].Sublist s.log →
    (∀ e ∈ s.log, e.handle = k' → ∀ other, e.call = .connect other → other = address) →
    Answered.grantee? s.log k = some owner → Answered.grantee? s.log k' = some owner' →
    k = k' := by
  intro hclaim
  have hlog : crossed.log = [⟨true, .connect "a", .ok true⟩, ⟨true, .connect "b", .ok true⟩,
      ⟨false, .connect "b", .ok true⟩, ⟨true, .tryLock "p", .ok true⟩,
      ⟨false, .tryLock "q", .ok true⟩] := rfl
  refine absurd (hclaim crossed true false "b" "p" "q" reachable_crossed ?_ ?_ rfl rfl) (by decide)
  · rw [hlog]
    exact .cons _ (.cons_cons _ (.cons _ (.cons_cons _ (.cons _ .slnil))))
  · intro e he hother other hconnect
    simp only [hlog, List.mem_cons, List.not_mem_nil, or_false] at he
    rcases he with rfl | rfl | rfl | rfl | rfl
    · cases hother
    · cases hother
    · cases hconnect
      rfl
    · cases hother
    · cases hconnect

end Sharing

end Primacy.Lock
