/-
  Primacy.Proofs.Lock.Service

  The contract of a lock service, which the lock in memory and the handle on a lock file both keep:
  a grant makes the owner the holder, only a free lock or the holder's own is granted, and nothing
  but the holder's own unlock takes it from him.
-/
import Primacy.Lock.File
import Primacy.Lock.Memory

namespace Primacy.Lock

/-! ## What an answer means -/

/-- The owner to whom the answer to a call grants the lock. -/
def Call.granted? : Call → Option (Except LockError Bool) → Option String
  | tryLock owner, some (.ok true) => some owner
  | lock owner, some (.ok _) => some owner
  | _, _ => none

/-- The holder that a call leaves without the lock. -/
def Call.freed? : Call → Option String
  | unlock owner => some owner
  | _ => none

/-- The holder after a look at a call, given the one before and what came of the look. -/
def Call.holderAfter (c : Call) (before : Option String) (r : Option (Except LockError Bool)) :
    Option String :=
  match c.granted? r with
  | some owner => some owner
  | none => if before.isSome ∧ before = c.freed? then none else before

theorem Call.holderAfter_of_granted {c : Call} {before : Option String} {owner : String}
    {r : Option (Except LockError Bool)} (h : c.granted? r = some owner) :
    c.holderAfter before r = some owner := by
  simp [holderAfter, h]

/-- A call that neither grants the lock nor frees it leaves it with its holder. -/
theorem Call.holderAfter_of_kept {c : Call} {before : Option String}
    {r : Option (Except LockError Bool)} (h : c.granted? r = none)
    (kept : c.freed? = none ∨ before ≠ c.freed?) : c.holderAfter before r = before := by
  have hfreed : ¬ (before.isSome ∧ before = c.freed?) := by
    rintro ⟨hsome, heq⟩
    rcases kept with hnone | hne
    · rw [heq, hnone] at hsome
      exact nomatch hsome
    · exact hne heq
  simp only [holderAfter, h, if_neg hfreed]

theorem Call.holderAfter_eq_some_iff {c : Call} {before : Option String} {owner : String}
    {r : Option (Except LockError Bool)} (h : c.granted? r = none) :
    c.holderAfter before r = some owner ↔ before = some owner ∧ c.freed? ≠ some owner := by
  simp only [holderAfter, h]
  by_cases hfreed : before = c.freed?
  · rw [hfreed]
    cases c.freed? <;> simp
  · rw [if_neg fun hb => hfreed hb.2]
    exact ⟨fun hb => ⟨hb, fun hf => hfreed (hb.trans hf.symm)⟩, And.left⟩

/-- The owner in whose name a call is made. -/
def Call.owner? : Call → Option String
  | connect _ => none
  | tryLock owner => some owner
  | lock owner => some owner
  | unlock owner => some owner

theorem Call.owner?_of_granted {c : Call} {owner : String} {r : Option (Except LockError Bool)}
    (h : c.granted? r = some owner) : c.owner? = some owner := by
  cases c with
  | connect address => exact nomatch h
  | unlock o => exact nomatch h
  | tryLock o =>
    match r with
    | some (.ok true) => exact h
    | some (.ok false) => exact nomatch h
    | some (.error _) => exact nomatch h
    | none => exact nomatch h
  | lock o =>
    match r with
    | some (.ok _) => exact h
    | some (.error _) => exact nomatch h
    | none => exact nomatch h

theorem Call.owner?_of_freed {c : Call} {owner : String} (h : c.freed? = some owner) :
    c.owner? = some owner := by
  cases c with
  | unlock o => exact h
  | _ => exact nomatch h

/-! ## The contract -/

structure Service where
  State : Type
  /-- What else bears on an answer, and may differ from look to look. -/
  Surroundings : Type
  holder : State → Option String
  /-- One look at a call: its answer, or none while it has to wait. -/
  look : State → Surroundings → Ticket → Call → Option (Except LockError Bool) × State
  /-- A call that waits is given up. -/
  withdraw : State → Ticket → State
  /-- A call that waits is to be looked at again. -/
  isWoken : State → Ticket → Bool
  holder_look (s : State) (x : Surroundings) (t : Ticket) (c : Call) :
    holder (look s x t c).2 = c.holderAfter (holder s) (look s x t c).1
  granted_look (s : State) (x : Surroundings) (t : Ticket) (c : Call) (owner : String)
    (h : c.granted? (look s x t c).1 = some owner) : holder s = none ∨ holder s = some owner
  holder_withdraw (s : State) (t : Ticket) : holder (withdraw s t) = holder s

/-- A call in one owner's name neither gives the lock to another nor takes it from him. -/
theorem Service.holder_look_of_ne (L : Service) (s : L.State) (x : L.Surroundings) (t : Ticket)
    (c : Call) {owner : String} (hne : c.owner? ≠ some owner) :
    L.holder (L.look s x t c).2 = some owner ↔ L.holder s = some owner := by
  rw [L.holder_look]
  cases hg : c.granted? (L.look s x t c).1 with
  | none =>
    rw [Call.holderAfter_eq_some_iff hg]
    exact and_iff_left fun hf => hne (Call.owner?_of_freed hf)
  | some o =>
    have ho : some o ≠ some owner := fun h => hne (h ▸ Call.owner?_of_granted hg)
    rw [Call.holderAfter_of_granted hg]
    rcases L.granted_look s x t c o hg with hfree | hown
    · rw [hfree]
      exact iff_of_false ho nofun
    · rw [hown]

/-! ## The lock in memory -/

namespace Memory

theorem tryAcquire_granted {m m' : Memory} {owner : String}
    (h : m.tryAcquire owner = .ok (true, m')) :
    (m.holder = none ∨ m.holder = some owner) ∧ m' = { m with holder := some owner } := by
  unfold tryAcquire at h
  split at h
  · exact nomatch h
  · split at h
    · next hfree => exact ⟨.inl hfree, by cases h; rfl⟩
    · next current hheld =>
      simp only [Except.ok.injEq, Prod.mk.injEq, beq_iff_eq] at h
      obtain ⟨rfl, rfl⟩ := h
      exact ⟨.inr hheld, by rw [← hheld]⟩

theorem tryAcquire_refused {m m' : Memory} {owner : String}
    (h : m.tryAcquire owner = .ok (false, m')) : m.holder ≠ none ∧ m' = m := by
  unfold tryAcquire at h
  split at h
  · exact nomatch h
  · split at h
    · exact nomatch h
    · next current hheld =>
      simp only [Except.ok.injEq, Prod.mk.injEq] at h
      exact ⟨by rw [hheld]; exact nofun, h.2.symm⟩

theorem connect_eq {m m' : Memory} {address : String} (h : m.connect address = .ok m') :
    ∃ c, m' = { m with coordinator := c } := by
  unfold connect at h
  split at h
  · exact nomatch h
  · exact ⟨_, by cases h; rfl⟩

theorem clear?_eq_some {m m' : Memory} {owner : String} (h : m.clear? owner = some m') :
    m.holder = some owner ∧ m' = { m with holder := none } := by
  simp only [clear?, Option.ite_none_right_eq_some] at h
  exact ⟨h.1, by cases h.2; rfl⟩

/-- An owner who does not hold the lock can give nothing back. -/
theorem serve_unlock_of_ne {m : Memory} {t : Ticket} {owner : String} (h : m.holder ≠ some owner) :
    m.serve t (.unlock owner) = (some (.error (.notHeld owner)), m) := by
  simp only [serve, clear?, if_neg h]

theorem serve_unlock_of_eq {m : Memory} {t : Ticket} {owner : String} (h : m.holder = some owner) :
    m.serve t (.unlock owner) = (some (.ok true), { m with holder := none, waiting := [] }) := by
  simp only [serve, clear?, if_pos h]
  rfl

/-- Everything that a look at a call can come to. -/
inductive Serves (m : Memory) (t : Ticket) :
    Call → Option (Except LockError Bool) × Memory → Prop where
  | refuse {c : Call} {e : LockError} (kept : c.freed? = none ∨ m.holder ≠ c.freed?) :
      Serves m t c (some (.error e), m)
  | connect {address : String} {s : Option String} :
      Serves m t (.connect address) (some (.ok true), { m with coordinator := s })
  | grant {c : Call} {owner : String} {w : List Ticket}
      (granted : c.granted? (some (.ok true)) = some owner)
      (free : m.holder = none ∨ m.holder = some owner) :
      Serves m t c (some (.ok true), { m with holder := some owner, waiting := w })
  | deny {owner : String} (held : m.holder ≠ none) :
      Serves m t (.tryLock owner) (some (.ok false), m)
  | enrol {owner : String} (held : m.holder ≠ none) :
      Serves m t (.lock owner) (none, m.enrol t)
  | release {owner : String} (held : m.holder = some owner) :
      Serves m t (.unlock owner) (some (.ok true), { m with holder := none, waiting := [] })

theorem serves (m : Memory) (t : Ticket) (c : Call) : m.Serves t c (m.serve t c) := by
  cases c with
  | connect address =>
    simp only [serve]
    cases h : m.connect address with
    | ok m' =>
      obtain ⟨s, rfl⟩ := connect_eq h
      exact .connect
    | error e => exact .refuse (.inl rfl)
  | tryLock owner =>
    simp only [serve]
    match h : m.tryAcquire owner with
    | .ok (true, m') =>
      obtain ⟨hfree, rfl⟩ := tryAcquire_granted h
      exact .grant rfl hfree
    | .ok (false, m') =>
      obtain ⟨hheld, rfl⟩ := tryAcquire_refused h
      exact .deny hheld
    | .error e => exact .refuse (.inl rfl)
  | lock owner =>
    simp only [serve]
    match h : (m.enrol t).tryAcquire owner with
    | .ok (true, m') =>
      obtain ⟨hfree, rfl⟩ := tryAcquire_granted h
      exact .grant rfl hfree
    | .ok (false, m') =>
      obtain ⟨hheld, rfl⟩ := tryAcquire_refused h
      exact .enrol hheld
    | .error e => exact .refuse (.inl rfl)
  | unlock owner =>
    simp only [serve]
    cases h : m.clear? owner with
    | some m' =>
      obtain ⟨hheld, rfl⟩ := clear?_eq_some h
      exact .release hheld
    | none =>
      refine .refuse (.inr ?_)
      simpa [clear?, Call.freed?] using h

theorem holder_serve (m : Memory) (t : Ticket) (c : Call) :
    (m.serve t c).2.holder = c.holderAfter m.holder (m.serve t c).1 := by
  have h := m.serves t c
  generalize m.serve t c = out at h ⊢
  cases h with
  | refuse kept =>
    refine (Call.holderAfter_of_kept ?_ kept).symm
    cases c <;> rfl
  | connect => exact (Call.holderAfter_of_kept rfl (.inl rfl)).symm
  | grant granted free => exact (Call.holderAfter_of_granted granted).symm
  | deny held => exact (Call.holderAfter_of_kept rfl (.inl rfl)).symm
  | enrol held => exact (Call.holderAfter_of_kept rfl (.inl rfl)).symm
  | release held => simp [Call.holderAfter, Call.granted?, Call.freed?, held]

theorem granted_serve {m : Memory} {t : Ticket} {c : Call} {owner : String}
    (hg : c.granted? (m.serve t c).1 = some owner) :
    m.holder = none ∨ m.holder = some owner := by
  have h := m.serves t c
  generalize m.serve t c = out at h hg
  cases h with
  | grant granted free => exact Option.some.inj (granted.symm.trans hg) ▸ free
  | refuse kept => cases c <;> exact nomatch hg
  | _ => exact nomatch hg

/-- Only a call that asks for a grant goes without an answer. -/
theorem eq_lock_of_serve {m m' : Memory} {t : Ticket} {c : Call}
    (h : m.serve t c = (none, m')) : ∃ owner, c = .lock owner := by
  have hs := m.serves t c
  rw [h] at hs
  cases hs with
  | enrol held => exact ⟨_, rfl⟩

/-- Only such a call adds a ticket, and the ticket is its own. -/
theorem mem_waiting_of_serve {m : Memory} {t t' : Ticket} {c : Call}
    (h : t' ∈ (m.serve t c).2.waiting) : t' ∈ m.waiting ∨ t' = t ∧ ∃ owner, c = .lock owner := by
  have hwait : ∀ {m₁ : Memory} {owner : String}, (∀ u ∈ m₁.waiting, u ∈ m.waiting ∨ u = t) →
      t' ∈ m₁.waiting → t' ∈ m.waiting ∨ t' = t ∧ ∃ o, Call.lock owner = .lock o :=
    fun hm ht => (hm t' ht).imp_right fun heq => ⟨heq, _, rfl⟩
  have henrol : ∀ u ∈ (m.enrol t).waiting, u ∈ m.waiting ∨ u = t :=
    fun u hu => (List.mem_append.mp hu).imp_right List.mem_singleton.mp
  cases c with
  | connect address =>
    dsimp only [serve] at h
    cases hc : m.connect address with
    | ok m' =>
      obtain ⟨s, rfl⟩ := connect_eq hc
      rw [hc] at h
      exact .inl h
    | error e =>
      rw [hc] at h
      exact .inl h
  | tryLock owner =>
    dsimp only [serve] at h
    match ha : m.tryAcquire owner with
    | .ok (true, m') =>
      obtain ⟨-, rfl⟩ := tryAcquire_granted ha
      rw [ha] at h
      exact .inl h
    | .ok (false, m') =>
      obtain ⟨-, rfl⟩ := tryAcquire_refused ha
      rw [ha] at h
      exact .inl h
    | .error e =>
      rw [ha] at h
      exact .inl h
  | lock owner =>
    dsimp only [serve] at h
    match ha : (m.enrol t).tryAcquire owner with
    | .ok (true, m') =>
      obtain ⟨-, rfl⟩ := tryAcquire_granted ha
      rw [ha] at h
      exact hwait henrol (List.mem_filter.mp h).1
    | .ok (false, m') =>
      obtain ⟨-, rfl⟩ := tryAcquire_refused ha
      rw [ha] at h
      exact hwait henrol h
    | .error e =>
      rw [ha] at h
      exact .inl h
  | unlock owner =>
    by_cases hheld : m.holder = some owner
    · rw [serve_unlock_of_eq hheld] at h
      exact nomatch h
    · rw [serve_unlock_of_ne hheld] at h
      exact .inl h

theorem withdraw_of_not_mem {m : Memory} {t : Ticket} (h : t ∉ m.waiting) : m.withdraw t = m := by
  have hkept : m.waiting.filter (· != t) = m.waiting := by
    refine List.filter_eq_self.mpr fun u hu => bne_iff_ne.mpr ?_
    rintro rfl
    exact h hu
  unfold withdraw
  rw [hkept]

/-- There are calls to wake only while the lock is held. -/
def IsHeeded (m : Memory) : Prop := m.holder = none → m.waiting = []

theorem IsHeeded.serve {m : Memory} (hm : m.IsHeeded) (t : Ticket) (c : Call) :
    (m.serve t c).2.IsHeeded := by
  -- a call that has to wait gets its ticket before it looks, and then finds the lock held
  have h := m.serves t c
  generalize m.serve t c = out at h ⊢
  cases h with
  | refuse kept => exact hm
  | connect => exact hm
  | grant granted free => exact nofun
  | deny held => exact hm
  | enrol held => exact fun hfree => absurd hfree held
  | release held => exact fun _ => rfl

theorem IsHeeded.withdraw {m : Memory} (hm : m.IsHeeded) (t : Ticket) :
    (m.withdraw t).IsHeeded := by
  intro hfree
  simp [Memory.withdraw, hm hfree]

end Memory

/-- The lock in memory. -/
def Service.memory : Service where
  State := Memory
  Surroundings := Unit
  holder := Memory.holder
  look m _ t c := m.serve t c
  withdraw := Memory.withdraw
  isWoken m t := !m.waiting.contains t
  holder_look m _ t c := m.holder_serve t c
  granted_look _ _ _ _ _ h := Memory.granted_serve h
  holder_withdraw _ _ := rfl

/-! ## The handle on a lock file -/

namespace Handle

open Files (NodeId Tree)

/-- The owner whom the handle carries the lock for. -/
def holder (h : Handle) : Option String := h.held.map Prod.fst

theorem tryAcquire_granted {h h' : Handle} {files files' : Tree} {locked locked' : List NodeId}
    {owner : String} (hacq : h.tryAcquire files locked owner = (files', .ok (true, h', locked'))) :
    (h.holder = none ∨ h.holder = some owner) ∧ h'.holder = some owner := by
  unfold tryAcquire at hacq
  split at hacq
  · exact nomatch hacq
  · split at hacq
    · next current id hheld =>
      simp only [Prod.mk.injEq, Except.ok.injEq, beq_iff_eq] at hacq
      obtain ⟨-, rfl, rfl, -⟩ := hacq
      have hholder : h.holder = some current := by simp [holder, hheld]
      exact ⟨.inr hholder, hholder⟩
    · next hheld =>
      refine ⟨.inl (by simp [holder, hheld]), ?_⟩
      split at hacq
      · exact nomatch hacq
      · split at hacq
        · exact nomatch hacq
        · simp only [Prod.mk.injEq, Except.ok.injEq, true_and] at hacq
          obtain ⟨-, rfl, -⟩ := hacq
          rfl

theorem tryAcquire_refused {h h' : Handle} {files files' : Tree} {locked locked' : List NodeId}
    {owner : String} (hacq : h.tryAcquire files locked owner = (files', .ok (false, h', locked'))) :
    h' = h := by
  unfold tryAcquire at hacq
  split at hacq
  · exact nomatch hacq
  · split at hacq
    · simp only [Prod.mk.injEq, Except.ok.injEq] at hacq
      exact hacq.2.2.1.symm
    · split at hacq
      · exact nomatch hacq
      · split at hacq
        · simp only [Prod.mk.injEq, Except.ok.injEq, true_and] at hacq
          exact hacq.2.1.symm
        · exact nomatch hacq

theorem connect_holder {h h' : Handle} {files files' : Tree} {address : String}
    (hc : h.connect files address = (files', .ok h')) : h'.holder = h.holder := by
  unfold connect at hc
  split at hc
  · exact nomatch hc
  · split at hc
    · exact nomatch hc
    · cases hc
      rfl

theorem release_ok {h h' : Handle} {locked locked' : List NodeId} {owner : String}
    (hr : h.release locked owner = .ok (h', locked')) :
    h.holder = some owner ∧ h'.holder = none := by
  unfold release at hr
  split at hr
  · next current id hheld =>
    split at hr
    · next heq =>
      cases hr
      exact ⟨by simp [holder, hheld, heq], rfl⟩
    · exact nomatch hr
  · exact nomatch hr

theorem release_error {h : Handle} {locked : List NodeId} {owner : String} {e : LockError}
    (hr : h.release locked owner = .error e) : h.holder ≠ some owner := by
  unfold release at hr
  split at hr
  · next current id hheld =>
    split at hr
    · exact nomatch hr
    · next hne => simpa [holder, hheld] using hne
  · next hheld => simp [holder, hheld]

theorem holder_serve (h : Handle) (files : Tree) (locked : List NodeId) (c : Call) :
    (h.serve files locked c).2.2.holder =
      c.holderAfter h.holder (h.serve files locked c).2.1 := by
  cases c with
  | connect address =>
    simp only [serve]
    match hc : h.connect files address with
    | (files', .ok h') =>
      exact (connect_holder hc).trans (Call.holderAfter_of_kept rfl (.inl rfl)).symm
    | (files', .error e) => exact (Call.holderAfter_of_kept rfl (.inl rfl)).symm
  | tryLock owner =>
    simp only [serve]
    match ha : h.tryAcquire files locked owner with
    | (files', .ok (true, h', locked')) =>
      exact (tryAcquire_granted ha).2.trans (Call.holderAfter_of_granted rfl).symm
    | (files', .ok (false, h', locked')) =>
      obtain rfl := tryAcquire_refused ha
      exact (Call.holderAfter_of_kept rfl (.inl rfl)).symm
    | (files', .error e) => exact (Call.holderAfter_of_kept rfl (.inl rfl)).symm
  | lock owner =>
    simp only [serve]
    match ha : h.tryAcquire files locked owner with
    | (files', .ok (true, h', locked')) =>
      exact (tryAcquire_granted ha).2.trans (Call.holderAfter_of_granted rfl).symm
    | (files', .ok (false, h', locked')) =>
      obtain rfl := tryAcquire_refused ha
      exact (Call.holderAfter_of_kept rfl (.inl rfl)).symm
    | (files', .error e) => exact (Call.holderAfter_of_kept rfl (.inl rfl)).symm
  | unlock owner =>
    simp only [serve]
    match hr : h.release locked owner with
    | .ok (h', locked') =>
      obtain ⟨hheld, hfree⟩ := release_ok hr
      simp [Call.holderAfter, Call.granted?, Call.freed?, hheld, hfree]
    | .error e =>
      exact (Call.holderAfter_of_kept rfl (.inr (release_error hr))).symm

theorem granted_serve {h : Handle} {files : Tree} {locked : List NodeId} {c : Call}
    {owner : String} (hg : c.granted? (h.serve files locked c).2.1 = some owner) :
    h.holder = none ∨ h.holder = some owner := by
  cases c with
  | tryLock o =>
    simp only [serve] at hg
    split at hg
    · next granted h' locked' ha =>
      cases granted with
      | true => exact Option.some.inj hg ▸ (tryAcquire_granted ha).1
      | false => exact nomatch hg
    · exact nomatch hg
  | lock o =>
    simp only [serve] at hg
    split at hg
    · next h' locked' ha => exact Option.some.inj hg ▸ (tryAcquire_granted ha).1
    · exact nomatch hg
    · exact nomatch hg
  | connect address => exact nomatch hg
  | unlock o => exact nomatch hg

end Handle

/-- The handle on a lock file, with the files that it finds when it looks and those of them that
are locked.  A call that waits looks again after a while. -/
def Service.file : Service where
  State := Handle
  Surroundings := Files.Tree × List Files.NodeId
  holder := Handle.holder
  look h x _ c := (h.serve x.1 x.2 c).2
  withdraw h _ := h
  isWoken _ _ := true
  holder_look h x _ c := h.holder_serve x.1 x.2 c
  granted_look _ _ _ _ _ h := Handle.granted_serve h
  holder_withdraw _ _ := rfl

end Primacy.Lock
