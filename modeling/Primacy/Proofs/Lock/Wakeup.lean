/-
  Primacy.Proofs.Lock.Wakeup

  Calls on the lock in memory, access by access, with any number of others between two accesses of
  one call.  A call that waits enrols before it looks at the holder, and whoever frees the lock
  wakes those enrolled only afterwards, so a call may be asleep while the lock is free; but then
  somebody is about to wake it.  A call that is given up asleep has never been granted the lock.
-/
import Mathlib.Logic.Function.Basic
import Primacy.Proofs.Lock.Service

namespace Primacy.Lock

/-! ## Visits, access by access -/

/-- What is done to a lock in memory: a call, or taking it from a holder who failed. -/
inductive Visit where
  | call (c : Call)
  | evict (owner : String)

/-- The owner who asks for the lock. -/
def Visit.asker? : Visit → Option String
  | call (.tryLock owner) => some owner
  | call (.lock owner) => some owner
  | _ => none

/-- Where a visit stands between two accesses to the lock. -/
inductive Stand where
  | arriving
  /-- Is enrolled, and has not looked at the holder yet. -/
  | enrolled
  /-- Found that another holds the lock, and does not sleep yet. -/
  | refused
  | asleep
  /-- Has its answer, and is enrolled still. -/
  | leaving (r : Except LockError Bool)
  /-- Has freed the lock, and has woken nobody yet. -/
  | freed
  | done (r : Except LockError Bool)
  /-- Was given up while it was asleep. -/
  | dropped

namespace Stand

/-- The visit hopes to be woken, or is about to. -/
def isHoping : Stand → Bool
  | refused | asleep => true
  | _ => false

/-- The visit was granted the lock. -/
def isGranted : Stand → Bool
  | leaving (.ok granted) | done (.ok granted) => granted
  | _ => false

/-- The answer to a visit that is done. -/
def answer? : Stand → Option (Except LockError Bool)
  | done r => some r
  | _ => none

theorem isGranted_of_isHoping {p : Stand} (h : p.isHoping = true) : p.isGranted = false := by
  cases p with
  | refused => rfl
  | asleep => rfl
  | _ => cases h

end Stand

/-- Frees the lock if `owner` holds it; if not, that is answered by `r`. -/
def Memory.free (m : Memory) (owner : String) (r : Except LockError Bool) : Stand × Memory :=
  match m.clear? owner with
  | some m => (.freed, m)
  | none => (.done r, m)

/-- The next access of a visit to the lock `m`: where the visit stands then, and the lock. -/
def Visit.access? (v : Visit) (t : Ticket) (m : Memory) : Stand → Option (Stand × Memory)
  | .arriving =>
    match v with
    | call (.connect address) =>
      match m.connect address with
      | .ok m => some (.done (.ok true), m)
      | .error e => some (.done (.error e), m)
    | call (.tryLock owner) =>
      match m.tryAcquire owner with
      | .ok (granted, m) => some (.done (.ok granted), m)
      | .error e => some (.done (.error e), m)
    | call (.lock _) => some (.enrolled, m.enrol t)
    | call (.unlock owner) => some (m.free owner (.error (.notHeld owner)))
    | evict owner => some (m.free owner (.ok false))
  | .enrolled =>
    match v with
    | call (.lock owner) =>
      match m.tryAcquire owner with
      | .ok (true, m) => some (.leaving (.ok true), m)
      | .ok (false, m) => some (.refused, m)
      | .error e => some (.leaving (.error e), m)
    | _ => none
  | .refused => some (if m.waiting.contains t then .asleep else .arriving, m)
  | .asleep => if m.waiting.contains t then none else some (.arriving, m)
  | .leaving r => some (.done r, m.withdraw t)
  | .freed => some (.done (.ok true), m.wakeAll.2)
  | .done _ | .dropped => none

/-! ## Accesses without others in between -/

/-- Up to `n` accesses of a visit, one right after the other. -/
def Visit.atOnce (v : Visit) (t : Ticket) : Nat → Stand × Memory → Stand × Memory
  | 0, x => x
  | n + 1, x =>
    match v.access? t x.2 x.1 with
    | some y => v.atOnce t n y
    | none => x

theorem Memory.enrol_withdraw {m : Memory} {t : Ticket} (new : t ∉ m.waiting) :
    (m.enrol t).withdraw t = m := by
  have hkept : m.waiting.filter (· != t) = m.waiting :=
    List.filter_eq_self.mpr fun u hu => by simpa using fun heq : u = t => new (heq ▸ hu)
  simp [withdraw, enrol, List.filter_append, hkept]

/-- A look at a call is its accesses with nobody in between. -/
theorem Memory.serve_eq_atOnce {m : Memory} {t : Ticket} (new : t ∉ m.waiting) (c : Call) :
    m.serve t c = (((Visit.call c).atOnce t 3 (.arriving, m)).1.answer?,
      ((Visit.call c).atOnce t 3 (.arriving, m)).2) := by
  cases c with
  | connect address =>
    cases h : m.connect address <;>
      simp [serve, Visit.atOnce, Visit.access?, h, Stand.answer?]
  | tryLock owner =>
    cases h : m.tryAcquire owner <;>
      simp [serve, Visit.atOnce, Visit.access?, h, Stand.answer?]
  | lock owner =>
    have henrolled : (m.enrol t).waiting.contains t = true := by simp [enrol]
    rcases h : (m.enrol t).tryAcquire owner with e | ⟨granted, m'⟩
    · simp [serve, Visit.atOnce, Visit.access?, h, Stand.answer?, enrol_withdraw new]
    · cases granted with
      | true => simp [serve, Visit.atOnce, Visit.access?, h, Stand.answer?]
      | false =>
        obtain ⟨-, rfl⟩ := tryAcquire_refused h
        simp only [serve, Visit.atOnce, Visit.access?, h, henrolled, Stand.answer?, if_true]
  | unlock owner =>
    cases h : m.clear? owner <;>
      simp [serve, Visit.atOnce, Visit.access?, Memory.free, h, Stand.answer?]

/-! ## What an access does -/

/-- Everything that an access can come to. -/
inductive Visit.Accesses (v : Visit) (t : Ticket) (m : Memory) : Stand → Stand × Memory → Prop where
  /-- The answer leaves the holder and those who wait as they are. -/
  | answer {r : Except LockError Bool} {c : Option String} :
      Accesses v t m .arriving (.done r, { m with coordinator := c })
  | enrol : Accesses v t m .arriving (.enrolled, m.enrol t)
  | grant {owner : String} {p p' : Stand} (asks : v.asker? = some owner)
      (free : m.holder = none ∨ m.holder = some owner) (before : p = .arriving ∨ p = .enrolled)
      (granted : p'.isGranted = true) (awake : p'.isHoping = false) :
      Accesses v t m p (p', { m with holder := some owner })
  | refuse {owner other : String} (call : v = .call (.lock owner))
      (held : m.holder = some other) (ne : other ≠ owner) :
      Accesses v t m .enrolled (.refused, m)
  | fail {e : LockError} : Accesses v t m .enrolled (.leaving (.error e), m)
  | sleep : Accesses v t m .refused (.asleep, m)
  | wake {p : Stand} (hoping : p.isHoping = true) : Accesses v t m p (.arriving, m)
  | leave {r : Except LockError Bool} : Accesses v t m (.leaving r) (.done r, m.withdraw t)
  | clear {owner : String} (held : m.holder = some owner) :
      Accesses v t m .arriving (.freed, { m with holder := none })
  | notify : Accesses v t m .freed (.done (.ok true), { m with waiting := [] })

/-- Whoever is refused finds the lock with another. -/
theorem Memory.tryAcquire_refused_other {m m' : Memory} {owner : String}
    (h : m.tryAcquire owner = .ok (false, m')) :
    m' = m ∧ ∃ other, m.holder = some other ∧ other ≠ owner := by
  unfold tryAcquire at h
  split at h
  · cases h
  · split at h
    · cases h
    · next other hheld =>
      simp only [Except.ok.injEq, Prod.mk.injEq, beq_eq_false_iff_ne] at h
      exact ⟨h.2.symm, other, hheld, h.1⟩

namespace Visit

variable {v : Visit} {t : Ticket} {m : Memory} {p : Stand} {x : Stand × Memory}

theorem accesses_free (v : Visit) (t : Ticket) (m : Memory) (owner : String)
    (r : Except LockError Bool) : v.Accesses t m .arriving (m.free owner r) := by
  unfold Memory.free
  cases h : m.clear? owner with
  | none => exact .answer
  | some m' =>
    obtain ⟨hheld, rfl⟩ := Memory.clear?_eq_some h
    exact .clear hheld

theorem accesses_of_access? (h : v.access? t m p = some x) : v.Accesses t m p x := by
  cases p with
  | arriving =>
    match v with
    | call (.connect address) =>
      simp only [access?] at h
      split at h
      · next hconnect =>
        obtain ⟨c, rfl⟩ := Memory.connect_eq hconnect
        cases h
        exact .answer
      · cases h
        exact .answer
    | call (.tryLock owner) =>
      simp only [access?] at h
      split at h
      · next granted m' hacquire =>
        cases h
        cases granted with
        | true =>
          obtain ⟨hfree, rfl⟩ := Memory.tryAcquire_granted hacquire
          exact .grant rfl hfree (.inl rfl) rfl rfl
        | false =>
          obtain ⟨rfl, -⟩ := Memory.tryAcquire_refused_other hacquire
          exact .answer
      · cases h
        exact .answer
    | call (.lock owner) =>
      cases h
      exact .enrol
    | call (.unlock owner) =>
      cases h
      exact accesses_free ..
    | evict owner =>
      cases h
      exact accesses_free ..
  | enrolled =>
    match v with
    | call (.lock owner) =>
      simp only [access?] at h
      split at h
      · next hacquire =>
        cases h
        obtain ⟨hfree, rfl⟩ := Memory.tryAcquire_granted hacquire
        exact .grant rfl hfree (.inr rfl) rfl rfl
      · next hacquire =>
        cases h
        obtain ⟨rfl, other, hheld, hne⟩ := Memory.tryAcquire_refused_other hacquire
        exact .refuse rfl hheld hne
      · cases h
        exact .fail
    | call (.connect _) => cases h
    | call (.tryLock _) => cases h
    | call (.unlock _) => cases h
    | evict _ => cases h
  | refused =>
    cases h
    split
    · exact .sleep
    · exact .wake rfl
  | asleep =>
    simp only [access?, Option.ite_none_left_eq_some] at h
    cases h.2
    exact .wake rfl
  | leaving r =>
    cases h
    exact .leave
  | freed =>
    cases h
    exact .notify
  | done r => cases h
  | dropped => cases h

end Visit

/-! ## Any number of visits -/

/-- A lock in memory, and where each visit to it stands. -/
structure Crowd where
  memory : Memory
  stand : Ticket → Stand

namespace Crowd

/-- Nobody has come to the lock yet. -/
def start (m : Memory) : Crowd := ⟨m, fun _ => .arriving⟩

/-- The visit with ticket `t` gets to `x.1`, and the lock to `x.2`. -/
def move (s : Crowd) (t : Ticket) (x : Stand × Memory) : Crowd :=
  ⟨x.2, Function.update s.stand t x.1⟩

/-- The next access of a visit; `visit` says what the visits are. -/
def step? (visit : Ticket → Visit) (s : Crowd) (t : Ticket) : Option Crowd :=
  ((visit t).access? t s.memory (s.stand t)).map (s.move t)

/-- A visit that is asleep is given up. -/
def drop? (s : Crowd) (t : Ticket) : Option Crowd :=
  match s.stand t with
  | .asleep => some (s.move t (.dropped, s.memory.withdraw t))
  | _ => none

/-- What accesses of the visits lead to, in any order, when any of them may be given up. -/
inductive Reachable (visit : Ticket → Visit) (m : Memory) : Crowd → Prop where
  | start : Reachable visit m (start m)
  | step {s s' : Crowd} (before : Reachable visit m s) (t : Ticket)
      (step : s.step? visit t = some s') : Reachable visit m s'
  | drop {s s' : Crowd} (before : Reachable visit m s) (t : Ticket)
      (drop : s.drop? t = some s') : Reachable visit m s'

variable {visit : Ticket → Visit} {m : Memory} {s s' : Crowd} {t u : Ticket}
  {x : Stand × Memory}

@[simp] theorem move_stand_self (s : Crowd) (t : Ticket) (x : Stand × Memory) :
    (s.move t x).stand t = x.1 := by
  simp [move]

theorem move_stand_other (s : Crowd) (x : Stand × Memory) (h : u ≠ t) :
    (s.move t x).stand u = s.stand u := by
  simp [move, h]

/-- Somebody has freed the lock and has woken nobody yet. -/
def IsReleasing (s : Crowd) : Prop := ∃ u, s.stand u = .freed

theorem IsReleasing.move (h : s.IsReleasing) (ht : s.stand t ≠ .freed) :
    (s.move t x).IsReleasing := by
  obtain ⟨u, hu⟩ := h
  have hne : u ≠ t := by
    rintro rfl
    exact ht hu
  exact ⟨u, (move_stand_other s x hne).trans hu⟩

/-! ## No wakeup is lost -/

/-- Another than `owner` holds the lock. -/
def IsTaken (m : Memory) (owner : String) : Prop := ∃ other, m.holder = some other ∧ other ≠ owner

/-- Whoever is enrolled and hopes to be woken will be, or finds the lock with another. -/
def Heeds (visit : Ticket → Visit) (s : Crowd) : Prop :=
  ∀ t owner, visit t = .call (.lock owner) → (s.stand t).isHoping = true → t ∈ s.memory.waiting →
    s.IsReleasing ∨ IsTaken s.memory owner

/-- Others keep their hopes while nobody is woken, unless the one who moves frees the lock. -/
theorem Heeds.move (hs : s.Heeds visit)
    (hself : ∀ owner, visit t = .call (.lock owner) → x.1.isHoping = true → t ∈ x.2.waiting →
      (s.move t x).IsReleasing ∨ IsTaken x.2 owner)
    (hwaiting : ∀ u, u ≠ t → u ∈ x.2.waiting → u ∈ s.memory.waiting)
    (hholder : (s.move t x).IsReleasing ∨ ∀ other, s.memory.holder = some other →
      x.2.holder = some other) (hwaking : s.stand t ≠ .freed) : (s.move t x).Heeds visit := by
  intro u owner hcall hhoping hmem
  by_cases hne : u = t
  · subst hne
    rw [move_stand_self] at hhoping
    exact hself owner hcall hhoping hmem
  · rw [move_stand_other s x hne] at hhoping
    rcases hs u owner hcall hhoping (hwaiting u hne hmem) with hreleasing | ⟨other, hheld, hother⟩
    · exact .inl (hreleasing.move hwaking)
    · exact hholder.imp_right fun hkept => ⟨other, hkept other hheld, hother⟩

theorem Heeds.step (hs : s.Heeds visit) (h : (visit t).Accesses t s.memory (s.stand t) x) :
    (s.move t x).Heeds visit := by
  generalize hp : s.stand t = p at h
  have hwaking : p ≠ .freed → s.stand t ≠ .freed := fun hne => hp ▸ hne
  -- those who do not hope themselves, and leave the lock with its holder
  have hquiet : ∀ {x : Stand × Memory}, x.1.isHoping = false → p ≠ .freed →
      (∀ u, u ≠ t → u ∈ x.2.waiting → u ∈ s.memory.waiting) →
      (∀ other, s.memory.holder = some other → x.2.holder = some other) →
      (s.move t x).Heeds visit := fun hawake hne hwaiting hholder =>
    hs.move (fun _ _ hhoping => nomatch hawake.symm.trans hhoping) hwaiting (.inr hholder)
      (hwaking hne)
  cases h with
  | answer => exact hquiet rfl nofun (fun _ _ h => h) fun _ h => h
  | enrol =>
    refine hquiet rfl nofun (fun u hne hmem => ?_) fun _ h => h
    exact (List.mem_append.mp hmem).resolve_right fun hu => hne (List.mem_singleton.mp hu)
  | grant asks free before granted awake =>
    refine hquiet awake ?_ (fun _ _ h => h) fun other hheld => ?_
    · rcases before with rfl | rfl
      · exact nofun
      · exact nofun
    · rcases free with hfree | hown
      · cases hfree.symm.trans hheld
      · exact hown.symm.trans hheld
  | refuse call held ne =>
    refine hs.move (fun owner hcall _ _ => .inr ?_) (fun _ _ h => h) (.inr fun _ h => h)
      (hwaking nofun)
    cases call.symm.trans hcall
    exact ⟨_, held, ne⟩
  | fail => exact hquiet rfl nofun (fun _ _ h => h) fun _ h => h
  | sleep =>
    refine hs.move (fun owner hcall _ hmem => ?_) (fun _ _ h => h) (.inr fun _ h => h)
      (hwaking nofun)
    have hhoping : (s.stand t).isHoping = true := by
      rw [hp]
      rfl
    exact (hs t owner hcall hhoping hmem).imp_left fun h => h.move (hwaking nofun)
  | wake hoping =>
    refine hquiet rfl ?_ (fun _ _ h => h) fun _ h => h
    rintro rfl
    cases hoping
  | leave =>
    refine hquiet rfl nofun (fun u _ hmem => ?_) fun _ h => h
    exact (List.mem_filter.mp hmem).1
  | clear held =>
    exact hs.move (fun _ _ hhoping => nomatch hhoping) (fun _ _ h => h)
      (.inl ⟨t, move_stand_self ..⟩) (hwaking nofun)
  | notify => exact fun _ _ _ _ hmem => nomatch hmem

/-! ## Who was granted the lock -/

/-- Whoever holds the lock has asked for it and was granted it. -/
def Earned (visit : Ticket → Visit) (s : Crowd) : Prop :=
  ∀ owner, s.memory.holder = some owner →
    ∃ t, (visit t).asker? = some owner ∧ (s.stand t).isGranted = true

theorem Earned.move (hs : s.Earned visit)
    (hstand : (s.stand t).isGranted = true → x.1.isGranted = true)
    (hholder : ∀ owner, x.2.holder = some owner →
      s.memory.holder = some owner ∨ ((visit t).asker? = some owner ∧ x.1.isGranted = true)) :
    (s.move t x).Earned visit := by
  intro owner hheld
  rcases hholder owner hheld with hbefore | hnew
  · obtain ⟨u, hasks, hgranted⟩ := hs owner hbefore
    refine ⟨u, hasks, ?_⟩
    by_cases hne : u = t
    · subst hne
      rw [move_stand_self]
      exact hstand hgranted
    · rw [move_stand_other s x hne]
      exact hgranted
  · refine ⟨t, hnew.1, ?_⟩
    rw [move_stand_self]
    exact hnew.2

theorem Earned.step (hs : s.Earned visit) (h : (visit t).Accesses t s.memory (s.stand t) x) :
    (s.move t x).Earned visit := by
  generalize hp : s.stand t = p at h
  have hkept : ∀ {x : Stand × Memory}, p.isGranted = false →
      (∀ owner, x.2.holder = some owner → s.memory.holder = some owner) →
      (s.move t x).Earned visit := fun hno hholder =>
    hs.move (fun hyes => nomatch (hp ▸ hno).symm.trans hyes) fun owner h => .inl (hholder owner h)
  cases h with
  | answer => exact hkept rfl fun _ h => h
  | enrol => exact hkept rfl fun _ h => h
  | grant asks free before granted awake =>
    refine hs.move (fun _ => granted) fun owner hheld => .inr ⟨?_, granted⟩
    exact asks.trans hheld
  | refuse => exact hkept rfl fun _ h => h
  | fail => exact hkept rfl fun _ h => h
  | sleep => exact hkept rfl fun _ h => h
  | wake hoping =>
    exact hkept (Stand.isGranted_of_isHoping hoping) fun _ h => h
  | @leave r =>
    refine hs.move (fun hyes => ?_) fun _ h => .inl h
    rw [hp] at hyes
    cases r with
    | ok granted => exact hyes
    | error e => cases hyes
  | clear held => exact hkept rfl nofun
  | notify => exact hkept rfl fun _ h => h

/-! ## Runs -/

theorem drop?_eq_some (h : s.drop? t = some s') :
    s.stand t = .asleep ∧ s' = s.move t (.dropped, s.memory.withdraw t) := by
  unfold drop? at h
  split at h
  · next hasleep =>
    cases h
    exact ⟨hasleep, rfl⟩
  · cases h

theorem Reachable.heeds_earned (free : m.holder = none) (h : Reachable visit m s) :
    s.Heeds visit ∧ s.Earned visit := by
  induction h with
  | start =>
    refine ⟨fun t owner _ hhoping => (nomatch hhoping), fun owner hheld => ?_⟩
    cases free.symm.trans hheld
  | step before t step ih =>
    obtain ⟨x, hx, rfl⟩ := Option.map_eq_some_iff.mp step
    have haccesses := Visit.accesses_of_access? hx
    exact ⟨ih.1.step haccesses, ih.2.step haccesses⟩
  | drop before t drop ih =>
    obtain ⟨hasleep, rfl⟩ := drop?_eq_some drop
    refine ⟨ih.1.move (fun _ _ hhoping => nomatch hhoping) ?_ (.inr fun _ h => h) ?_,
      ih.2.move ?_ fun _ h => .inl h⟩
    · exact fun u _ hmem => (List.mem_filter.mp hmem).1
    · rw [hasleep]
      exact nofun
    · rw [hasleep]
      exact nofun

/-- Many calls wait for the lock, others take it, free it and take it from its holder, and calls
that are asleep may be given up.  Whoever is asleep and still enrolled finds the lock with another
owner, unless somebody has just freed it and is about to wake those who are enrolled.  Giving up a
call that is asleep leaves the holder as it was, and an owner whose call is asleep, or was given
up, holds the lock only if another visit of his was granted it. -/
theorem no_lost_wakeup {owner : String} (free : m.holder = none) (h : Reachable visit m s)
    (hcall : visit t = .call (.lock owner)) :
    (s.stand t = .asleep → t ∈ s.memory.waiting → (∀ u, s.stand u ≠ .freed) →
      ∃ other, s.memory.holder = some other ∧ other ≠ owner) ∧
    (s.stand t = .asleep → ∃ s', s.drop? t = some s' ∧ s'.stand t = .dropped ∧
      s'.memory.holder = s.memory.holder ∧ ∀ u, u ≠ t → s'.stand u = s.stand u ∧
        (u ∈ s'.memory.waiting ↔ u ∈ s.memory.waiting)) ∧
    (s.stand t = .asleep ∨ s.stand t = .dropped → s.memory.holder = some owner →
      ∃ u, u ≠ t ∧ (visit u).asker? = some owner ∧ (s.stand u).isGranted = true) := by
  obtain ⟨hheeds, hearned⟩ := h.heeds_earned free
  refine ⟨fun hasleep hmem hnone => ?_, fun hasleep => ?_, fun hstand hheld => ?_⟩
  · have hhoping : (s.stand t).isHoping = true := by
      rw [hasleep]
      rfl
    refine (hheeds t owner hcall hhoping hmem).resolve_left ?_
    rintro ⟨u, hu⟩
    exact hnone u hu
  · have hdrop : s.drop? t = some (s.move t (.dropped, s.memory.withdraw t)) := by
      rw [drop?, hasleep]
    refine ⟨_, hdrop, move_stand_self .., rfl, fun u hne => ⟨move_stand_other s _ hne, ?_⟩⟩
    show u ∈ s.memory.waiting.filter (· != t) ↔ _
    rw [List.mem_filter]
    exact and_iff_left (by simpa using hne)
  · obtain ⟨u, hasks, hgranted⟩ := hearned owner hheld
    refine ⟨u, ?_, hasks, hgranted⟩
    rintro rfl
    rcases hstand with h | h <;> rw [h] at hgranted <;> cases hgranted

/-- Two owners wait while a third one holds the lock. -/
def quarrel : Ticket → Visit
  | 0 => .call (.connect "mem")
  | 1 => .call (.tryLock "a")
  | 2 => .call (.lock "b")
  | 3 => .call (.unlock "a")
  | 4 => .call (.lock "c")
  | _ => .evict "a"

/-- The state after accesses of visits, one after the other. -/
def run? (visit : Ticket → Visit) (s : Crowd) : List Ticket → Option Crowd
  | [] => some s
  | t :: ts => (s.step? visit t).bind (·.run? visit ts)

theorem Reachable.run {ts : List Ticket} (h : Reachable visit m s)
    (hrun : s.run? visit ts = some s') : Reachable visit m s' := by
  induction ts generalizing s with
  | nil => exact Option.some.inj hrun ▸ h
  | cons t ts ih =>
    obtain ⟨s₁, hstep, hrest⟩ := Option.bind_eq_some_iff.mp hrun
    exact ih (.step h t hstep) hrest

/-- The lock is freed after one of the two has found it held and before it sleeps, so that it gets
the lock; the other one is woken, comes too late and sleeps again. -/
def turns : List Ticket := [0, 1, 2, 2, 2, 4, 4, 3, 3, 4, 4, 4, 4, 2, 2, 2, 2]

theorem quarrel_no_lost_wakeup : ∃ s, Reachable quarrel .fresh s ∧ s.stand 2 = .asleep ∧
    2 ∈ s.memory.waiting ∧ (∃ other, s.memory.holder = some other ∧ other ≠ "b") ∧
    ∃ s', s.drop? 2 = some s' ∧ s'.memory.holder = some "c" := by
  obtain ⟨s, hrun⟩ : ∃ s, (start .fresh).run? quarrel turns = some s := ⟨_, rfl⟩
  have hs := Reachable.start.run hrun
  obtain ⟨hheld, hdrop, -⟩ := no_lost_wakeup (t := 2) rfl hs rfl
  cases hrun
  obtain ⟨s', hs', -, hholder, -⟩ := hdrop rfl
  refine ⟨_, hs, rfl, List.mem_cons_self, hheld rfl List.mem_cons_self fun u => ?_, s', hs', hholder⟩
  match u with
  | 0 => exact nofun
  | 1 => exact nofun
  | 2 => exact nofun
  | 3 => exact nofun
  | 4 => exact nofun
  | u + 5 => exact nofun

end Crowd

end Primacy.Lock
