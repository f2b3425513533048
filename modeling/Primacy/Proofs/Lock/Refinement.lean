/-
  Primacy.Proofs.Lock.Refinement

  Handles on one lock file, each shared by any number of owners, answer like one lock in memory.
  The lock file is locked exactly while some handle carries the lock for an owner, and then the
  lock in memory is held by that owner; since an owner keeps to one handle, a handle that finds the
  file locked by another handle is asked in the name of another owner.
-/
import Primacy.Proofs.Lock.Sharing

namespace Primacy.Lock

open Files (NodeId Tree)

/-! ## Calls and their polls -/

/-- What happens to a call: it is looked at, for the first time or again, or it is given up while
it waits. -/
inductive Use where
  | look (t : Ticket)
  | drop (t : Ticket)

/-- A look at a call on a lock in memory.  A call that waits is looked at only once it was woken. -/
def Memory.poll (m : Memory) (t : Ticket) (c : Call) : Option (Except LockError Bool) × Memory :=
  if m.waiting.contains t then (none, m) else m.serve t c

namespace Memory

variable (call : Ticket → Call)

/-- What comes of one use of a lock in memory; `call` tells what the calls are. -/
def use (m : Memory) : Use → Option (Except LockError Bool) × Memory
  | .look t => m.poll t (call t)
  | .drop t => (none, m.withdraw t)

/-- The answers to uses, the earliest first. -/
def answers (m : Memory) : List Use → List (Option (Except LockError Bool))
  | [] => []
  | u :: us => (m.use call u).1 :: answers (m.use call u).2 us

/-- What uses leave the lock with. -/
def afterUses (m : Memory) (us : List Use) : Memory := us.foldl (fun m u => (m.use call u).2) m

variable {m : Memory} {owner : String} {t : Ticket}

theorem tryAcquire_eq_granted (connected : m.coordinator.isSome)
    (free : m.holder = none ∨ m.holder = some owner) :
    m.tryAcquire owner = .ok (true, { m with holder := some owner }) := by
  rw [tryAcquire, if_neg (by simpa [Option.isSome_iff_ne_none] using connected)]
  rcases free with h | h
  · simp only [h]
  · simp only [h, beq_self_eq_true]
    rw [← h]

theorem tryAcquire_eq_refused (connected : m.coordinator.isSome) {other : String}
    (held : m.holder = some other) (ne : other ≠ owner) :
    m.tryAcquire owner = .ok (false, m) := by
  rw [tryAcquire, if_neg (by simpa [Option.isSome_iff_ne_none] using connected)]
  simp only [held, beq_eq_false_iff_ne.mpr ne]

end Memory

namespace Sharing

variable {κ : Type}

/-! ## Who has the file locked -/

/-- Whose grant the handles carry: nobody's, with the file unlocked, or that of one owner, with the
file locked by the handle at his place and by no other. -/
inductive Carries (place : String → κ) (id : NodeId) (handles : κ → Handle)
    (locked : List NodeId) : Option String → Prop where
  | nobody (free : ∀ k, (handles k).held = none) (unlocked : locked.count id = 0) :
      Carries place id handles locked none
  | owner {o : String} (held : (handles (place o)).held = some (o, id))
      (others : ∀ k, k ≠ place o → (handles k).held = none) (locks : locked.count id = 1) :
      Carries place id handles locked (some o)

variable {place : String → κ} {address : String} {id : NodeId} {handles : κ → Handle}
  {locked : List NodeId} {owner : String}

/-- The handles carry the lock for the holder, and for nobody else. -/
theorem Carries.holder_iff {holder : Option String} (hc : Carries place id handles locked holder)
    (owner : String) : (∃ k, (handles k).holder = some owner) ↔ holder = some owner := by
  cases hc with
  | nobody free unlocked => simp [Handle.holder, free]
  | @owner o held others locks =>
    constructor
    · rintro ⟨k, hk⟩
      by_cases hplace : k = place o
      · rw [hplace, Handle.holder, held] at hk
        exact hk
      · rw [Handle.holder, others k hplace] at hk
        cases hk
    · intro h
      exact ⟨place o, by rw [Handle.holder, held]; exact h⟩

/-- At most one handle carries the lock. -/
theorem Carries.handle_unique {holder : Option String} (hc : Carries place id handles locked holder)
    {k k' : κ} {owner owner' : String} (hk : (handles k).holder = some owner)
    (hk' : (handles k').holder = some owner') : k = k' := by
  cases hc with
  | nobody free unlocked => simp [Handle.holder, free] at hk
  | @owner o held others locks =>
    have hplace : ∀ {k : κ} {owner : String}, (handles k).holder = some owner → k = place o := by
      intro k owner hk
      by_contra hne
      rw [Handle.holder, others k hne] at hk
      cases hk
    exact (hplace hk).trans (hplace hk').symm

/-- Others may lock and unlock other files. -/
theorem Carries.of_count {holder : Option String} {locked' : List NodeId}
    (hc : Carries place id handles locked holder) (hcount : locked'.count id = locked.count id) :
    Carries place id handles locked' holder := by
  cases hc with
  | nobody free unlocked => exact .nobody free (hcount.trans unlocked)
  | owner held others locks => exact .owner held others (hcount.trans locks)

/-! ## Handles and the lock in memory side by side -/

/-- The handles are all for the file at `address`, and the lock in memory is held by the owner
whose grant they carry; those who wait for it there are other owners. -/
structure Mirrors (call : Ticket → Call) (place : String → κ) (address : String) (id : NodeId)
    (s : Sharing κ) (m : Memory) : Prop where
  path : ∀ k, (s.handles k).path = some address
  opens : s.files.Opens address id
  connected : m.coordinator.isSome
  carries : Carries place id s.handles s.locked m.holder
  heeded : ∀ t ∈ m.waiting, ∃ owner other, call t = .lock owner ∧ m.holder = some other ∧
    other ≠ owner

variable {call : Ticket → Call} {s : Sharing κ} {m : Memory} {t : Ticket}

/-- Nobody waits for a lock that is free, and whoever waits while `owner` holds it goes on waiting
when it is granted to him once more. -/
theorem Mirrors.heeded_granted (hm : Mirrors call place address id s m)
    (free : m.holder = none ∨ m.holder = some owner) :
    ∀ t ∈ m.waiting, ∃ asker other, call t = .lock asker ∧ some owner = some other ∧
      other ≠ asker := by
  intro t ht
  obtain ⟨asker, other, hcall, hheld, hne⟩ := hm.heeded t ht
  rcases free with hfree | hown
  · exact absurd (hheld.symm.trans hfree) nofun
  · exact ⟨asker, other, hcall, hown.symm.trans hheld, hne⟩

/-- Others are at work on the files, but they do not touch the lock file. -/
structure SparesFile (s : Sharing κ) (address : String) (id : NodeId) (files : Tree)
    (locked : List NodeId) : Prop where
  opens : files.Opens address id
  locked : locked.count id = s.locked.count id

theorem Mirrors.drop (hm : Mirrors call place address id s m) (t : Ticket) :
    Mirrors call place address id s (m.withdraw t) where
  path := hm.path
  opens := hm.opens
  connected := hm.connected
  carries := hm.carries
  heeded u hu := hm.heeded u (List.mem_filter.mp hu).1

theorem Mirrors.outside {files : Tree} (hm : Mirrors call place address id s m)
    (spares : s.SparesFile address id files locked) :
    Mirrors call place address id { s with files := files, locked := locked } m where
  path := hm.path
  opens := spares.opens
  connected := hm.connected
  carries := hm.carries.of_count spares.locked
  heeded := hm.heeded

/-- All handles are connected to the file at `address`, which is unlocked, and hold nothing. -/
structure IsReady (s : Sharing κ) (address : String) (id : NodeId) : Prop where
  path : ∀ k, (s.handles k).path = some address
  free : ∀ k, (s.handles k).held = none
  opens : s.files.Opens address id
  unlocked : id ∉ s.locked

theorem IsReady.mirrors (hs : s.IsReady address id) (connected : m.coordinator.isSome)
    (free : m.holder = none) (idle : m.waiting = []) : Mirrors call place address id s m where
  path := hs.path
  opens := hs.opens
  connected := connected
  carries := free ▸ .nobody hs.free (List.count_eq_zero.mpr hs.unlocked)
  heeded t ht := by simp [idle] at ht

/-! ## Looks at calls on both sides -/

variable [DecidableEq κ]

/-- What comes of an attempt for `owner` at his place. -/
inductive Attempt (place : String → κ) (id : NodeId) (handles : κ → Handle)
    (locked : List NodeId) (holder : Option String) (owner : String) :
    Bool × Handle × List NodeId → Prop where
  | granted {h : Handle} {locked' : List NodeId} (free : holder = none ∨ holder = some owner)
      (path : h.path = (handles (place owner)).path)
      (carries : Carries place id (Function.update handles (place owner) h) locked' (some owner)) :
      Attempt place id handles locked holder owner (true, h, locked')
  | refused {other : String} (held : holder = some other) (ne : other ≠ owner) :
      Attempt place id handles locked holder owner (false, handles (place owner), locked)

/-- An attempt is granted if nobody holds the lock or the owner himself does, and refused if
another does, be it on the same handle or on another one. -/
theorem Carries.attempt {holder : Option String} {files : Tree}
    (hc : Carries place id handles locked holder) (owner : String)
    (hpath : (handles (place owner)).path = some address) (hopens : files.Opens address id) :
    ∃ out, (handles (place owner)).tryAcquire files locked owner = (files, .ok out) ∧
      Attempt place id handles locked holder owner out := by
  have hopen : files.openFile address = .ok (files, id) := hopens
  cases hc with
  | nobody free unlocked =>
    have hcontains : locked.contains id = false := by
      simpa using List.count_eq_zero.mp unlocked
    refine ⟨(true, { handles (place owner) with held := some (owner, id) }, id :: locked), ?_, ?_⟩
    · simp only [Handle.tryAcquire, hpath, free, hopen, hcontains, Bool.false_eq_true, if_false]
    · refine .granted (.inl rfl) rfl (.owner (by simp) (fun k hne => ?_) ?_)
      · rw [Function.update_of_ne hne]
        exact free k
      · rw [List.count_cons_self, unlocked]
  | @owner o held others locks =>
    by_cases hplace : place owner = place o
    · -- the handle of the holder says itself whose grant it carries
      refine ⟨(o == owner, handles (place owner), locked), ?_, ?_⟩
      · rw [hplace] at hpath ⊢
        simp only [Handle.tryAcquire, hpath, held]
      · by_cases heq : o = owner
        · subst heq
          rw [beq_self_eq_true]
          refine .granted (.inr rfl) rfl ?_
          rw [Function.update_eq_self]
          exact .owner held others locks
        · rw [beq_eq_false_iff_ne.mpr heq]
          exact .refused rfl heq
    · -- any other handle finds the file locked
      have hcontains : locked.contains id = true := by
        have hmem : id ∈ locked := List.count_pos_iff.mp (by omega)
        simpa using hmem
      refine ⟨(false, handles (place owner), locked), ?_, .refused rfl ?_⟩
      · simp only [Handle.tryAcquire, hpath, others _ hplace, hopen, hcontains, if_true]
      · rintro rfl
        exact hplace rfl

/-- Unlocking gives back what the handle of the owner carries for him, and nothing else. -/
theorem Carries.release {holder : Option String} (hc : Carries place id handles locked holder)
    (owner : String) :
    (holder = some owner ∧ ∃ h, h.path = (handles (place owner)).path ∧
      (handles (place owner)).release locked owner = .ok (h, locked.erase id) ∧
      Carries place id (Function.update handles (place owner) h) (locked.erase id) none) ∨
    (holder ≠ some owner ∧
      (handles (place owner)).release locked owner = .error (.notHeld owner)) := by
  cases hc with
  | nobody free unlocked =>
    refine .inr ⟨nofun, ?_⟩
    simp only [Handle.release, free]
  | @owner o held others locks =>
    by_cases heq : o = owner
    · subst heq
      refine .inl ⟨rfl, { handles (place o) with held := none }, rfl, ?_, ?_⟩
      · simp only [Handle.release, held, if_true]
      · refine .nobody (fun k => ?_) ?_
        · by_cases hk : k = place o
          · rw [hk, Function.update_self]
          · rw [Function.update_of_ne hk]
            exact others k hk
        · rw [List.count_erase_self, locks]
    · refine .inr ⟨fun h => heq (Option.some.inj h), ?_⟩
      by_cases hplace : place owner = place o
      · rw [hplace]
        simp only [Handle.release, held, if_neg heq]
      · simp only [Handle.release, others _ hplace]

/-- The two stay side by side if the handle at a place carries what the lock in memory says. -/
theorem Mirrors.after (hm : Mirrors call place address id s m) {k : κ} {c : Call}
    {r : Option (Except LockError Bool)} {h : Handle} {locked' : List NodeId} {m' : Memory}
    (hpath : h.path = (s.handles k).path) (connected : m'.coordinator = m.coordinator)
    (carries : Carries place id (Function.update s.handles k h) locked' m'.holder)
    (heeded : ∀ t ∈ m'.waiting, ∃ owner other, call t = .lock owner ∧ m'.holder = some other ∧
      other ≠ owner) :
    Mirrors call place address id (s.after k c ((s.files, locked'), r, h)) m' where
  path k' := by
    by_cases hne : k' = k
    · rw [hne, after_handles_self, hpath, hm.path]
    · rw [after_handles_other _ _ _ hne, hm.path]
  opens := hm.opens
  connected := connected ▸ hm.connected
  carries := carries
  heeded := heeded

/-- A look that leaves the handle and the lock in memory as they are. -/
theorem Mirrors.after_same (hm : Mirrors call place address id s m) {k : κ} {c : Call}
    {r : Option (Except LockError Bool)} :
    Mirrors call place address id (s.after k c ((s.files, s.locked), r, s.handles k)) m := by
  refine hm.after rfl rfl ?_ hm.heeded
  rw [Function.update_eq_self]
  exact hm.carries

/-- A call that waits is refused on the handle as well. -/
theorem Mirrors.look_waiting (hm : Mirrors call place address id s m) (ht : t ∈ m.waiting) :
    (s.handles (place (call t).subject)).serve s.files s.locked (call t) =
      ((s.files, s.locked), none, s.handles (place (call t).subject)) := by
  obtain ⟨owner, other, hcall, hheld, hne⟩ := hm.heeded t ht
  rw [hcall]
  obtain ⟨out, hfile, hattempt⟩ := hm.carries.attempt owner (hm.path _) hm.opens
  simp only [Call.subject, Handle.serve, hfile]
  cases hattempt with
  | granted free =>
    rw [hheld] at free
    rcases free with h | h
    · cases h
    · exact absurd (Option.some.inj h) hne
  | refused => rfl

theorem Mirrors.look_tryLock (hm : Mirrors call place address id s m) (owner : String)
    (t : Ticket) :
    ((s.handles (place owner)).serve s.files s.locked (.tryLock owner)).2.1 =
      (m.serve t (.tryLock owner)).1 ∧
    Mirrors call place address id (s.look (place owner) (.tryLock owner))
      (m.serve t (.tryLock owner)).2 := by
  obtain ⟨out, hfile, hattempt⟩ := hm.carries.attempt owner (hm.path _) hm.opens
  cases hattempt with
  | granted free path carries =>
    have hmemory := Memory.tryAcquire_eq_granted hm.connected free
    simp only [look, Handle.serve, Memory.serve, hfile, hmemory, true_and]
    exact hm.after path rfl carries (hm.heeded_granted free)
  | refused held ne =>
    have hmemory := Memory.tryAcquire_eq_refused hm.connected held ne
    simp only [look, Handle.serve, Memory.serve, hfile, hmemory, true_and]
    exact hm.after_same

theorem Mirrors.look_lock (hm : Mirrors call place address id s m) (hcall : call t = .lock owner) :
    ((s.handles (place owner)).serve s.files s.locked (.lock owner)).2.1 =
      (m.serve t (.lock owner)).1 ∧
    Mirrors call place address id (s.look (place owner) (.lock owner))
      (m.serve t (.lock owner)).2 := by
  obtain ⟨out, hfile, hattempt⟩ := hm.carries.attempt owner (hm.path _) hm.opens
  cases hattempt with
  | granted free path carries =>
    have hmemory : (m.enrol t).tryAcquire owner = _ :=
      Memory.tryAcquire_eq_granted hm.connected free
    simp only [look, Handle.serve, Memory.serve, hfile, hmemory, true_and]
    refine hm.after path rfl carries fun u hu => hm.heeded_granted free u ?_
    -- the call is not among those that wait any more
    simp only [Memory.withdraw, Memory.enrol, List.mem_filter, List.mem_append,
      List.mem_singleton, bne_iff_ne, ne_eq] at hu
    exact hu.1.resolve_right hu.2
  | refused held ne =>
    have hmemory : (m.enrol t).tryAcquire owner = _ :=
      Memory.tryAcquire_eq_refused hm.connected held ne
    simp only [look, Handle.serve, Memory.serve, hfile, hmemory, true_and]
    refine hm.after rfl rfl ?_ fun u hu => ?_
    · rw [Function.update_eq_self]
      exact hm.carries
    · rcases List.mem_append.mp hu with hu | hu
      · exact hm.heeded u hu
      · rw [List.mem_singleton.mp hu]
        exact ⟨owner, _, hcall, held, ne⟩

theorem Mirrors.look_unlock (hm : Mirrors call place address id s m) (owner : String)
    (t : Ticket) :
    ((s.handles (place owner)).serve s.files s.locked (.unlock owner)).2.1 =
      (m.serve t (.unlock owner)).1 ∧
    Mirrors call place address id (s.look (place owner) (.unlock owner))
      (m.serve t (.unlock owner)).2 := by
  rcases hm.carries.release owner with ⟨held, h, path, hrelease, carries⟩ | ⟨hne, hrelease⟩
  · rw [Memory.serve_unlock_of_eq held]
    simp only [look, Handle.serve, hrelease, true_and]
    exact hm.after path rfl carries fun u hu => absurd hu List.not_mem_nil
  · rw [Memory.serve_unlock_of_ne hne]
    simp only [look, Handle.serve, hrelease, true_and]
    exact hm.after_same

/-- A look at a call is answered alike on both sides. -/
theorem Mirrors.look (hm : Mirrors call place address id s m)
    (bound : ∀ a, call t ≠ .connect a) :
    ((s.handles (place (call t).subject)).serve s.files s.locked (call t)).2.1 =
      (m.poll t (call t)).1 ∧
    Mirrors call place address id (s.look (place (call t).subject) (call t))
      (m.poll t (call t)).2 := by
  by_cases ht : t ∈ m.waiting
  · have hserve := hm.look_waiting ht
    rw [Memory.poll, if_pos (by simpa using ht), Sharing.look, hserve]
    exact ⟨rfl, hm.after_same⟩
  · rw [Memory.poll, if_neg (by simpa using ht)]
    cases hcall : call t with
    | connect address => exact absurd hcall (bound address)
    | tryLock owner => exact hm.look_tryLock owner t
    | lock owner => exact hm.look_lock hcall
    | unlock owner => exact hm.look_unlock owner t

/-! ## Any number of uses -/

/-- The uses `us` of handles on the file at `address` are answered `as` and lead from one state to
another, with others at work in between.  An owner keeps to the handle at his place. -/
inductive Course (call : Ticket → Call) (place : String → κ) (address : String) (id : NodeId) :
    Sharing κ → List Use → List (Option (Except LockError Bool)) → Sharing κ → Prop where
  | done (s : Sharing κ) : Course call place address id s [] [] s
  | look {s s' : Sharing κ} {us : List Use} {as : List (Option (Except LockError Bool))}
      (t : Ticket) (rest : Course call place address id
        (s.look (place (call t).subject) (call t)) us as s') :
      Course call place address id s (.look t :: us)
        (((s.handles (place (call t).subject)).serve s.files s.locked (call t)).2.1 :: as) s'
  | drop {s s' : Sharing κ} {us : List Use} {as : List (Option (Except LockError Bool))}
      (t : Ticket) (rest : Course call place address id s us as s') :
      Course call place address id s (.drop t :: us) (none :: as) s'
  | outside {s s' : Sharing κ} {files : Tree} {locked : List NodeId} {us : List Use}
      {as : List (Option (Except LockError Bool))} (spares : s.SparesFile address id files locked)
      (rest : Course call place address id { s with files := files, locked := locked } us as s') :
      Course call place address id s us as s'

/-- Any uses are answered somehow. -/
theorem exists_course (call : Ticket → Call) (place : String → κ) (address : String) (id : NodeId)
    (us : List Use) : ∀ s : Sharing κ, ∃ as s', Course call place address id s us as s' := by
  induction us with
  | nil => exact fun s => ⟨[], s, .done s⟩
  | cons u us ih =>
    intro s
    cases u with
    | look t =>
      obtain ⟨as, s', h⟩ := ih (s.look (place (call t).subject) (call t))
      exact ⟨_, s', .look t h⟩
    | drop t =>
      obtain ⟨as, s', h⟩ := ih s
      exact ⟨_, s', .drop t h⟩

/-- Uses are answered alike on both sides, one after the other. -/
theorem Course.mirrors {s' : Sharing κ} {us : List Use} {as : List (Option (Except LockError Bool))}
    (h : Course call place address id s us as s') (bound : ∀ t a, call t ≠ .connect a)
    (hm : Mirrors call place address id s m) :
    as = m.answers call us ∧ Mirrors call place address id s' (m.afterUses call us) := by
  induction h generalizing m with
  | done s => exact ⟨rfl, hm⟩
  | look t rest ih =>
    obtain ⟨hanswer, hmirrors⟩ := hm.look (bound t)
    obtain ⟨has, hs'⟩ := ih hmirrors
    exact ⟨congr (congrArg _ hanswer) has, hs'⟩
  | drop t rest ih =>
    obtain ⟨has, hs'⟩ := ih (hm.drop t)
    exact ⟨congrArg _ has, hs'⟩
  | outside spares rest ih => exact ih (hm.outside spares)

/-- A release that is refused leaves the handle and the lock file as they are. -/
theorem look_of_notHeld {k : κ}
    (h : ((s.handles k).serve s.files s.locked (.unlock owner)).2.1 =
      some (.error (.notHeld owner))) :
    (s.look k (.unlock owner)).handles = s.handles ∧
    (s.look k (.unlock owner)).files = s.files ∧ (s.look k (.unlock owner)).locked = s.locked := by
  simp only [Sharing.look, Handle.serve] at h ⊢
  rcases hrelease : (s.handles k).release s.locked owner with e | ⟨h', locked'⟩
  · exact ⟨Function.update_eq_self k s.handles, rfl, rfl⟩
  · rw [hrelease] at h
    cases h

/-- Handles on one lock file answer any calls as one lock in memory does, if each owner keeps to
one handle.  The owner whom they carry the lock for is the one who holds it there, and they carry
it for nobody else; a release that is refused changes nothing. -/
theorem answers_eq_memory {s₀ : Sharing κ} {m₀ : Memory} {us : List Use}
    {as : List (Option (Except LockError Bool))} (ready : s₀.IsReady address id)
    (connected : m₀.coordinator.isSome) (free : m₀.holder = none) (idle : m₀.waiting = [])
    (bound : ∀ t a, call t ≠ .connect a) (h : Course call place address id s₀ us as s) :
    as = m₀.answers call us ∧
    (∀ owner, (∃ k, (s.handles k).holder = some owner) ↔
      (m₀.afterUses call us).holder = some owner) ∧
    (∀ k k' owner owner', (s.handles k).holder = some owner →
      (s.handles k').holder = some owner' → k = k' ∧ owner = owner') ∧
    (∀ owner, ((s.handles (place owner)).serve s.files s.locked (.unlock owner)).2.1 =
        some (.error (.notHeld owner)) →
      ((s.look (place owner) (.unlock owner)).handles = s.handles ∧
        (s.look (place owner) (.unlock owner)).files = s.files ∧
        (s.look (place owner) (.unlock owner)).locked = s.locked) ∧
      ∀ t, (m₀.afterUses call us).serve t (.unlock owner) =
        (some (.error (.notHeld owner)), m₀.afterUses call us)) := by
  obtain ⟨has, hm⟩ := h.mirrors bound (ready.mirrors connected free idle)
  refine ⟨has, hm.carries.holder_iff, fun k k' owner owner' hk hk' => ?_, fun owner hanswer => ?_⟩
  · obtain rfl := hm.carries.handle_unique hk hk'
    exact ⟨rfl, Option.some.inj (hk.symm.trans hk')⟩
  refine ⟨look_of_notHeld hanswer, fun t => Memory.serve_unlock_of_ne fun hheld => ?_⟩
  rw [(hm.look_unlock owner t).1, Memory.serve_unlock_of_eq hheld] at hanswer
  cases hanswer

/-- Two handles for the first file of a directory with two. -/
def pair : Sharing Bool := ⟨desk, [], fun _ => ⟨some "a", none⟩, []⟩

theorem isReady_pair : pair.IsReady "a" 1 where
  path _ := rfl
  free _ := rfl
  opens := opens_leaf true
  unlocked := nofun

/-- Two owners share the one handle, and a third has the other one for himself. -/
def seat (owner : String) : Bool := owner == "p"

def asked : Ticket → Call
  | 0 => .tryLock "p"
  | 1 => .lock "q"
  | 2 => .lock "r"
  | 3 => .unlock "q"
  | _ => .unlock "p"

/-- A lock in memory that was connected once. -/
def unheld : Memory := ⟨true, some "c", none, []⟩

def asking : List Use := [.look 0, .look 1, .look 2, .look 3, .drop 2, .look 4, .look 1]

/-- An owner who waits on the one handle is granted the lock once the other handle has released
it; the owner who shares his handle gives up before. -/
theorem asking_answers_eq_memory : ∃ s, Course asked seat "a" 1 pair asking
      [some (.ok true), none, none, some (.error (.notHeld "q")), none, some (.ok true),
        some (.ok true)] s ∧
    ∀ owner, (∃ k, (s.handles k).holder = some owner) ↔ owner = "q" := by
  obtain ⟨as, s, h⟩ := exists_course asked seat "a" 1 asking pair
  have hbound : ∀ t a, asked t ≠ .connect a := by
    intro t a
    unfold asked
    split <;> exact nofun
  have hconnected : unheld.coordinator.isSome := rfl
  obtain ⟨has, hholder, -⟩ := answers_eq_memory isReady_pair hconnected rfl rfl hbound h
  have hanswers : unheld.answers asked asking =
      [some (.ok true), none, none, some (.error (.notHeld "q")), none, some (.ok true),
        some (.ok true)] := rfl
  rw [has, hanswers] at h
  refine ⟨s, h, fun owner => (hholder owner).trans ?_⟩
  have hend : (unheld.afterUses asked asking).holder = some "q" := by
    decide
  rw [hend]
  exact ⟨fun h => (Option.some.inj h).symm, fun h => congrArg some h.symm⟩

end Sharing

end Primacy.Lock
