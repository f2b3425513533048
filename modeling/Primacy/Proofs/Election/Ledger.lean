/-
  Primacy.Proofs.Election.Ledger

  What of a node bears on the custody of the lock, kept as a ledger, and the rule that the books
  balance: a lock that was granted and not given back is in exactly one hand.  That hand is an
  activity that has yet to make the elector run or to unlock, or it is the status `running`, which
  leaves the lock to a stop.
-/
import Mathlib.Logic.Function.Basic
import Primacy.Proofs.Election.Node

namespace Primacy.Election

structure Ledger where
  stage : CallId → Stage
  /-- The activity has made the request that it is at. -/
  asked : CallId → Bool
  status : State
  started : Bool
  /-- How often the lock was granted, and how often it was given back. -/
  grants : Nat
  unlocks : Nat

namespace Ledger

/-- The lock is in the hand of an activity, or of the status. -/
def Holds (l : Ledger) : Option CallId → Prop
  | some id => (l.stage id).inHand = true ∧ l.asked id = false
  | none => l.status = .running

/-- At most one activity competes for the lock, and only once the elector was started. -/
structure Competition (l : Ledger) : Prop where
  linking : ∀ id, l.stage id = .linking → l.started = false
  competing : ∀ id, (l.stage id).competes = true → l.started = true
  alone : ∀ id id', (l.stage id).competes = true → (l.stage id').competes = true → id = id'
  unstarted : l.started = false → l.grants = 0
  waiting : ∀ id, l.stage id = .waiting → l.grants = 0

/-- A lock that was granted and not given back is in exactly one hand. -/
structure Hands (l : Ledger) : Prop where
  sole : ∀ h h', l.Holds h → l.Holds h' → h = h'
  owed : ∀ h, l.Holds h → l.grants = 1 ∧ l.unlocks = 0
  covered : l.grants ≠ l.unlocks → ∃ h, l.Holds h
  bounded : l.unlocks ≤ l.grants ∧ l.grants ≤ 1

structure Balanced (l : Ledger) : Prop extends Competition l, Hands l

/-- The ledger after an activity changed its stage along with the elector. -/
def move (l : Ledger) (id : CallId) (s : Stage) (e : Elector) (granted : Bool) : Ledger where
  stage := Function.update l.stage id s
  asked := Function.update l.asked id false
  status := e.status
  started := e.started
  grants := l.grants + if granted then 1 else 0
  unlocks := l.unlocks

/-- The ledger after an activity made a request. -/
def ask (l : Ledger) (id : CallId) (q : Request) : Ledger :=
  { l with
    asked := Function.update l.asked id true
    unlocks := l.unlocks + if q = .unlock then 1 else 0 }

/-- The ledger after a waiter came to life. -/
def spawn (l : Ledger) (id : CallId) : Ledger :=
  { l with
    stage := Function.update l.stage id .waiting
    asked := Function.update l.asked id false }

variable {l : Ledger} {id : CallId} {e e' : Elector}

@[simp] theorem move_stage_self (s : Stage) (g : Bool) : (l.move id s e g).stage id = s := by
  simp [move]

theorem move_stage_other {id' : CallId} (s : Stage) (g : Bool) (h : id' ≠ id) :
    (l.move id s e g).stage id' = l.stage id' := by
  simp [move, h]

@[simp] theorem move_asked_self (s : Stage) (g : Bool) : (l.move id s e g).asked id = false := by
  simp [move]

theorem move_asked_other {id' : CallId} (s : Stage) (g : Bool) (h : id' ≠ id) :
    (l.move id s e g).asked id' = l.asked id' := by
  simp [move, h]

/-- Another activity has the lock in hand after a change of stage if it had it before. -/
theorem holds_move_other {id' : CallId} (s : Stage) (g : Bool) (h : id' ≠ id) :
    (l.move id s e g).Holds (some id') ↔ l.Holds (some id') := by
  simp [Holds, move_stage_other, move_asked_other, h]

@[simp] theorem holds_move_self (s : Stage) (g : Bool) :
    (l.move id s e g).Holds (some id) ↔ s.inHand = true := by
  simp [Holds]

/-- A change of stage that leaves the lock in the hand it is in. -/
theorem holds_move_iff {s : Stage} (g : Bool) (hid : s.inHand = true ↔ l.Holds (some id))
    (hstatus : e.status = .running ↔ l.status = .running) (h : Option CallId) :
    (l.move id s e g).Holds h ↔ l.Holds h := by
  cases h with
  | none => exact hstatus
  | some id' =>
    by_cases hne : id' = id
    · rw [hne, holds_move_self, hid]
    · exact holds_move_other s g hne

/-! ## Competition -/

/-- An activity changes its stage, and does not enter the competition unless it is the only one
in it. -/
theorem Competition.move (hl : l.Competition) {s : Stage} {g : Bool}
    (hlinking : s = .linking → e.started = false)
    (hlone : l.started = false → e.started = true → ∀ id', l.stage id' = .linking → id' = id)
    (hstarted : l.started = true → e.started = true)
    (hcompetes : s.competes = true →
      e.started = true ∧ ∀ id', (l.stage id').competes = true → id' = id)
    (hgrants : e.started = false → g = false)
    (hwaiting : l.grants ≠ 0 ∨ g = true →
      s ≠ .waiting ∧ ∀ id', l.stage id' = .waiting → id' = id) :
    (l.move id s e g).Competition where
  linking id' h := by
    by_cases hne : id' = id
    · rw [hne, move_stage_self] at h
      exact hlinking h
    · rw [move_stage_other s g hne] at h
      cases hs : e.started with
      | false => exact hs
      | true => exact absurd (hlone (hl.linking id' h) hs id' h) hne
  competing id' h := by
    by_cases hne : id' = id
    · rw [hne, move_stage_self] at h
      exact (hcompetes h).1
    · rw [move_stage_other s g hne] at h
      exact hstarted (hl.competing id' h)
  alone id₁ id₂ h₁ h₂ := by
    by_cases hne₁ : id₁ = id <;> by_cases hne₂ : id₂ = id
    · rw [hne₁, hne₂]
    · rw [hne₁, move_stage_self] at h₁
      rw [move_stage_other s g hne₂] at h₂
      exact absurd ((hcompetes h₁).2 id₂ h₂) hne₂
    · rw [hne₂, move_stage_self] at h₂
      rw [move_stage_other s g hne₁] at h₁
      exact absurd ((hcompetes h₂).2 id₁ h₁) hne₁
    · rw [move_stage_other s g hne₁] at h₁
      rw [move_stage_other s g hne₂] at h₂
      exact hl.alone id₁ id₂ h₁ h₂
  unstarted h := by
    -- the elector does not become unstarted again
    have hl0 : l.started = false := by
      cases hs : l.started with
      | false => rfl
      | true => exact absurd (hstarted hs) (by rw [show e.started = false from h]; decide)
    have h0 := hl.unstarted hl0
    have hg := hgrants h
    simp [Ledger.move, h0, hg]
  waiting id' h := by
    -- with a grant before or now nobody would wait
    have hw : ¬ (l.grants ≠ 0 ∨ g = true) := by
      intro hgr
      obtain ⟨hs, hother⟩ := hwaiting hgr
      by_cases hne : id' = id
      · rw [hne, move_stage_self] at h
        exact hs h
      · rw [move_stage_other s g hne] at h
        exact hne (hother id' h)
    have h0 : l.grants = 0 := by
      by_contra hne
      exact hw (.inl hne)
    have hg : g = false := by simpa using fun h => hw (.inr h)
    simp [Ledger.move, h0, hg]

/-- A change of stage after which the activity competes only if it did before. -/
theorem Competition.move_within (hl : l.Competition) {s : Stage} (hstarted : e.started = l.started)
    (hlinking : s = .linking → l.started = false)
    (hcompetes : s.competes = true → (l.stage id).competes = true)
    (hwaiting : s = .waiting → l.grants = 0) : (l.move id s e false).Competition := by
  refine hl.move ?_ ?_ ?_ ?_ ?_ ?_
  · intro h
    rw [hstarted]
    exact hlinking h
  · intro h h'
    rw [hstarted, h] at h'
    exact absurd h' (by decide)
  · intro h
    rw [hstarted]
    exact h
  · intro h
    have hid := hcompetes h
    refine ⟨hstarted.trans (hl.competing id hid), fun id' h' => ?_⟩
    exact hl.alone id' id h' hid
  · intro _
    rfl
  · rintro (h | h)
    · exact ⟨fun hs => h (hwaiting hs), fun id' h' => absurd (hl.waiting id' h') h⟩
    · exact absurd h (by decide)

/-- The elector is started by the only activity that was about to. -/
theorem Competition.connect (hl : l.Competition) (hid : l.stage id = .linking)
    (hlone : ∀ id', l.stage id' = .linking → id' = id) (hstarted : e.started = true) :
    (l.move id .waiting e false).Competition := by
  have hl0 : l.started = false := hl.linking id hid
  have hnone : ∀ id', (l.stage id').competes ≠ true := by
    intro id' h
    have h1 := hl.competing id' h
    rw [hl0] at h1
    exact absurd h1 (by decide)
  refine hl.move nofun (fun _ _ => hlone) (fun _ => hstarted) ?_ ?_ ?_
  · exact fun _ => ⟨hstarted, fun id' h => absurd h (hnone id')⟩
  · intro _
    rfl
  · rintro (h | h)
    · exact absurd (hl.unstarted hl0) h
    · exact absurd h (by decide)

/-- The only activity that waits for the lock is granted it. -/
theorem Competition.grant (hl : l.Competition) (hid : l.stage id = .waiting)
    (hstarted : e.started = l.started) : (l.move id .holding e true).Competition := by
  have hc : (l.stage id).competes = true := by
    rw [hid]
    rfl
  have hs : e.started = true := hstarted.trans (hl.competing id hc)
  refine hl.move nofun ?_ (fun _ => hs) ?_ ?_ ?_
  · intro h
    have h1 := hl.competing id hc
    rw [h] at h1
    exact absurd h1 (by decide)
  · exact fun _ => ⟨hs, fun id' h' => hl.alone id' id h' hc⟩
  · intro h
    rw [hs] at h
    exact absurd h (by decide)
  · refine fun _ => ⟨nofun, fun id' h' => hl.alone id' id ?_ hc⟩
    rw [h']
    rfl

/-! ## Hands -/

/-- The lock stays in the hand it is in. -/
theorem Hands.congr {l' : Ledger} (hl : l.Hands) (hholds : ∀ h, l'.Holds h ↔ l.Holds h)
    (hgrants : l'.grants = l.grants) (hunlocks : l'.unlocks = l.unlocks) : l'.Hands where
  sole h h' hh hh' := hl.sole h h' ((hholds h).mp hh) ((hholds h').mp hh')
  owed h hh := by
    rw [hgrants, hunlocks]
    exact hl.owed h ((hholds h).mp hh)
  covered hne := by
    rw [hgrants, hunlocks] at hne
    obtain ⟨h, hh⟩ := hl.covered hne
    exact ⟨h, (hholds h).mpr hh⟩
  bounded := by
    rw [hgrants, hunlocks]
    exact hl.bounded

/-- The lock, granted once and not given back, is in one hand alone. -/
theorem Hands.of_sole {l' : Ledger} (hand : Option CallId) (hholds : ∀ h, l'.Holds h ↔ h = hand)
    (hgrants : l'.grants = 1) (hunlocks : l'.unlocks = 0) : l'.Hands where
  sole h h' hh hh' := ((hholds h).mp hh).trans ((hholds h').mp hh').symm
  owed _ _ := ⟨hgrants, hunlocks⟩
  covered _ := ⟨hand, (hholds hand).mpr rfl⟩
  bounded := by omega

/-- The lock is in no hand when it was given back as often as it was granted. -/
theorem Hands.of_none {l' : Ledger} (hholds : ∀ h, ¬ l'.Holds h)
    (heq : l'.grants = l'.unlocks) (hle : l'.grants ≤ 1) : l'.Hands where
  sole h _ hh _ := absurd hh (hholds h)
  owed h hh := absurd hh (hholds h)
  covered hne := absurd heq hne
  bounded := by omega

/-- The activity that moves has the lock in hand exactly if it had it before. -/
theorem Hands.keep (hl : l.Hands) {s : Stage} (hid : s.inHand = true ↔ l.Holds (some id))
    (hstatus : e.status = .running ↔ l.status = .running) : (l.move id s e false).Hands :=
  hl.congr (holds_move_iff false hid hstatus) rfl rfl

/-- The lock comes into the hand of the activity that moves. -/
theorem Hands.to_activity {s : Stage} {g : Bool} (hin : s.inHand = true)
    (hstatus : e.status ≠ .running) (hother : ∀ id', id' ≠ id → ¬ l.Holds (some id'))
    (hgrants : (l.move id s e g).grants = 1) (hunlocks : l.unlocks = 0) :
    (l.move id s e g).Hands := by
  refine .of_sole (some id) (fun h => ?_) hgrants hunlocks
  cases h with
  | none => exact iff_of_false hstatus nofun
  | some id' =>
    by_cases hne : id' = id
    · rw [hne, holds_move_self]
      exact iff_of_true hin rfl
    · rw [holds_move_other _ _ hne]
      exact iff_of_false (hother id' hne) fun h => hne (Option.some.inj h)

/-- The lock comes into the hand of the status. -/
theorem Hands.to_status {s : Stage} {g : Bool} (hout : s.inHand = false)
    (hstatus : e.status = .running) (hother : ∀ id', id' ≠ id → ¬ l.Holds (some id'))
    (hgrants : (l.move id s e g).grants = 1) (hunlocks : l.unlocks = 0) :
    (l.move id s e g).Hands := by
  refine .of_sole none (fun h => ?_) hgrants hunlocks
  cases h with
  | none => exact iff_of_true hstatus rfl
  | some id' =>
    refine iff_of_false ?_ nofun
    by_cases hne : id' = id
    · rw [hne, holds_move_self, hout]
      decide
    · rw [holds_move_other _ _ hne]
      exact hother id' hne

/-! ## Changes of the books -/

/-- A passage keeps the competition fair. -/
theorem Competition.passage (hl : l.Competition) {answered granted : Bool} {s : Stage}
    (hp : Passage e e' answered granted (l.stage id) s) (hstarted : e.started = l.started)
    (hlone : l.stage id = .linking → ∀ id', l.stage id' = .linking → id' = id) :
    (l.move id s e' granted).Competition := by
  generalize hs₀ : l.stage id = s₀ at hp
  rw [hs₀] at hlone
  cases hp with
  | stay free status started =>
    refine hl.move_within (started.trans hstarted) ?_ ?_ ?_
    · exact fun h => hl.linking id (hs₀.trans h)
    · rw [hs₀]
      exact fun h => h
    · exact fun h => hl.waiting id (hs₀.trans h)
  | retire free status started => exact hl.move_within (started.trans hstarted) nofun nofun nofun
  | link unstarted status started =>
    exact hl.move_within (started.trans hstarted) (fun _ => hstarted ▸ unstarted) nofun nofun
  | connect status started => exact hl.connect hs₀ (hlone rfl) started
  | standBy before status started =>
    exact hl.move_within (started.trans hstarted) nofun (fun _ => hs₀ ▸ rfl)
      fun _ => hl.waiting id hs₀
  | grant status started => exact hl.grant hs₀ (started.trans hstarted)
  | run before status started => exact hl.move_within (started.trans hstarted) nofun nofun nofun
  | halt status started =>
    by_cases hr : e.status = .running
    · rw [if_pos hr]
      exact hl.move_within (started.trans hstarted) nofun nofun nofun
    · rw [if_neg hr]
      exact hl.move_within (started.trans hstarted) nofun nofun nofun

/-- A passage leaves the lock in at most one hand. -/
theorem Hands.passage (hl : l.Hands) {answered granted : Bool} {s : Stage}
    (hp : Passage e e' answered granted (l.stage id) s) (hstatus : e.status = l.status)
    (hasked : (l.stage id).inHand = true → l.asked id = answered)
    (hwaiting : l.stage id = .waiting → l.grants = 0) : (l.move id s e' granted).Hands := by
  have hidle : (l.stage id).inHand = false → ¬ l.Holds (some id) := by
    intro h h'
    rw [h'.1] at h
    exact absurd h (by decide)
  -- whatever hand the lock comes from, no other activity has it
  have hsole : ∀ h, l.Holds h → ∀ id', some id' ≠ h → ¬ l.Holds (some id') :=
    fun h hh id' hne hh' => hne (hl.sole _ _ hh' hh)
  generalize hs₀ : l.stage id = s₀ at hp
  rw [hs₀] at hasked hidle hwaiting
  cases hp with
  | stay free status started =>
    refine hl.keep ?_ (by rw [status, hstatus])
    exact ⟨fun h => ⟨hs₀ ▸ h, (hasked h).trans (free h)⟩, fun h => hs₀ ▸ h.1⟩
  | retire free status started =>
    refine hl.keep ⟨nofun, fun h => ?_⟩ (by rw [status, hstatus])
    have hin : s₀.inHand = true := hs₀ ▸ h.1
    have hboth := h.2.symm.trans ((hasked hin).trans (free hin))
    exact absurd hboth (by decide)
  | link unstarted status started =>
    exact hl.keep ⟨nofun, fun h => absurd h (hidle rfl)⟩ (by rw [status, hstatus])
  | connect status started =>
    exact hl.keep ⟨nofun, fun h => absurd h (hidle rfl)⟩ (by rw [status, hstatus])
  | standBy before status started =>
    refine hl.keep ⟨nofun, fun h => absurd h (hidle rfl)⟩ ?_
    rw [status, ← hstatus, before]
    exact ⟨nofun, nofun⟩
  | grant status started =>
    -- nothing was granted yet, so nobody can hold the lock
    have h0 : l.grants = 0 := hwaiting rfl
    have hfree : ∀ h, ¬ l.Holds h := by
      intro h hh
      have h1 := (hl.owed h hh).1
      omega
    refine .to_activity rfl ?_ (fun id' _ => hfree (some id')) ?_ ?_
    · rw [status, hstatus]
      exact hfree none
    · simp [Ledger.move, h0]
    · have hle := hl.bounded.1
      omega
  | run before status started =>
    have hid : l.Holds (some id) := ⟨hs₀ ▸ rfl, hasked rfl⟩
    obtain ⟨hgrants, hunlocks⟩ := hl.owed _ hid
    refine .to_status rfl status (fun id' hne => hsole _ hid id' ?_) hgrants hunlocks
    exact fun h => hne (Option.some.inj h)
  | halt status started =>
    have hstopped : e'.status ≠ .running := by
      rw [status]
      decide
    by_cases hr : e.status = .running
    · rw [if_pos hr]
      have hnone : l.Holds none := hstatus.symm.trans hr
      obtain ⟨hgrants, hunlocks⟩ := hl.owed _ hnone
      exact .to_activity rfl hstopped (fun id' _ => hsole _ hnone id' nofun) hgrants hunlocks
    · rw [if_neg hr]
      refine hl.keep ⟨nofun, fun h => absurd h (hidle rfl)⟩ ?_
      exact iff_of_false hstopped fun h => hr (hstatus.trans h)

/-- A passage keeps the books balanced. -/
theorem Balanced.passage (hl : l.Balanced) {answered granted : Bool} {s : Stage}
    (hp : Passage e e' answered granted (l.stage id) s)
    (hstatus : e.status = l.status) (hstarted : e.started = l.started)
    (hasked : (l.stage id).inHand = true → l.asked id = answered)
    (hlone : l.stage id = .linking → ∀ id', l.stage id' = .linking → id' = id) :
    (l.move id s e' granted).Balanced :=
  ⟨hl.toCompetition.passage hp hstarted hlone, hl.toHands.passage hp hstatus hasked (hl.waiting id)⟩

/-- An activity gives the lock back by asking for it to be unlocked, and by nothing else. -/
theorem Balanced.ask (hl : l.Balanced) {q : Request}
    (hunlock : q = .unlock ↔ (l.stage id).inHand = true) (hasked : l.asked id = false) :
    (l.ask id q).Balanced := by
  have hcompetition : (l.ask id q).Competition :=
    ⟨hl.linking, hl.competing, hl.alone, hl.unstarted, hl.waiting⟩
  have hself : ¬ (l.ask id q).Holds (some id) := by
    intro h
    have := h.2
    simp [Ledger.ask] at this
  have hother : ∀ id', id' ≠ id → ((l.ask id q).Holds (some id') ↔ l.Holds (some id')) := by
    intro id' hne
    simp [Holds, Ledger.ask, hne]
  by_cases hq : q = .unlock
  · -- the only hand that the lock is in lets go of it
    have hid : l.Holds (some id) := ⟨hunlock.mp hq, hasked⟩
    obtain ⟨hg, hu⟩ := hl.owed _ hid
    refine ⟨hcompetition, .of_none ?_ ?_ ?_⟩
    · intro h hh
      cases h with
      | none => exact nomatch hl.sole none (some id) hh hid
      | some id' =>
        by_cases hne : id' = id
        · exact hself (hne ▸ hh)
        · exact hne (Option.some.inj (hl.sole _ _ ((hother id' hne).mp hh) hid))
    · simp [Ledger.ask, hq, hg, hu]
    · exact hl.bounded.2
  · have hid : ¬ l.Holds (some id) := fun h => hq (hunlock.mpr h.1)
    refine ⟨hcompetition, hl.toHands.congr ?_ rfl (by simp [Ledger.ask, hq])⟩
    intro h
    cases h with
    | none => exact Iff.rfl
    | some id' =>
      by_cases hne : id' = id
      · rw [hne]
        exact iff_of_false hself hid
      · exact hother id' hne

/-- An activity that breaks off has no lock in hand. -/
theorem Balanced.breakOff (hl : l.Balanced) (hstatus : e.status = l.status)
    (hstarted : e.started = l.started)
    (hasked : (l.stage id).inHand = true → l.asked id = true)
    (hlone : l.stage id = .linking → ∀ id', l.stage id' = .linking → id' = id) :
    (l.move id .idle e false).Balanced :=
  hl.passage (e := e) (.retire (fun _ => rfl) rfl rfl) hstatus hstarted hasked hlone

/-- A waiter takes the place of the only activity that competed. -/
theorem Balanced.spawn (hl : l.Balanced) (hid : l.stage id = .idle)
    (hnone : ∀ id', (l.stage id').competes = false) (hstarted : l.started = true)
    (hgrants : l.grants = 0) : (l.spawn id).Balanced := by
  have hother : ∀ id', id' ≠ id → (l.spawn id).stage id' = l.stage id' := by
    intro id' hne
    simp [Ledger.spawn, hne]
  -- nobody competed any more, so the waiter is alone in it
  have halone : ∀ id', ((l.spawn id).stage id').competes = true → id' = id := by
    intro id' h
    by_contra hne
    rw [hother id' hne, hnone id'] at h
    exact absurd h (by decide)
  refine ⟨⟨?_, fun _ _ => hstarted, ?_, fun _ => hgrants, fun _ _ => hgrants⟩,
    hl.toHands.congr ?_ rfl rfl⟩
  · intro id' h
    by_cases hne : id' = id
    · simp [Ledger.spawn, hne] at h
    · rw [hother id' hne] at h
      exact hl.linking id' h
  · intro id₁ id₂ h₁ h₂
    rw [halone id₁ h₁, halone id₂ h₂]
  · intro h
    cases h with
    | none => exact Iff.rfl
    | some id' =>
      by_cases hne : id' = id
      · rw [hne]
        refine iff_of_false ?_ ?_
        · simp [Holds, Ledger.spawn, Stage.inHand]
        · simp [Holds, hid, Stage.inHand]
      · simp [Holds, Ledger.spawn, hne]

end Ledger

/-! ## The ledger of a node -/

def Course.stage : Course → Stage
  | going a _ => a.stage
  | _ => .idle

def Course.asked : Course → Bool
  | going _ asked => asked
  | _ => false

namespace Node

def ledger (n : Node) : Ledger where
  stage id := (n.course id).elim .idle Course.stage
  asked id := (n.course id).elim false Course.asked
  status := n.elector.status
  started := n.elector.started
  grants := n.grants
  unlocks := n.requests.count .unlock

variable {n : Node} {id : CallId}

theorem stage_of_going {a : Activity} {asked : Bool} (h : n.course id = some (.going a asked)) :
    n.ledger.stage id = a.stage := by
  simp [ledger, h, Course.stage]

theorem asked_of_going {a : Activity} {asked : Bool} (h : n.course id = some (.going a asked)) :
    n.ledger.asked id = asked := by
  simp [ledger, h, Course.asked]

/-- Whoever is not idle is at work. -/
theorem going_of_stage (h : n.ledger.stage id ≠ .idle) :
    ∃ a asked, n.course id = some (.going a asked) := by
  cases hc : n.course id with
  | none => simp [ledger, hc] at h
  | some c =>
    cases c with
    | going a asked => exact ⟨a, asked, rfl⟩
    | ended r => simp [ledger, hc, Course.stage] at h
    | brokenOff => simp [ledger, hc, Course.stage] at h

/-- The books of a node at which one activity has got to another point. -/
theorem ledger_of_course {n' : Node} (id : CallId) (c : Course)
    (hcourse : n'.course = (n.setCourse id c).course) : n'.ledger =
      { n.ledger with
        stage := Function.update n.ledger.stage id c.stage
        asked := Function.update n.ledger.asked id c.asked
        status := n'.elector.status
        started := n'.elector.started
        grants := n'.grants
        unlocks := n'.requests.count .unlock } := by
  simp only [ledger, hcourse, setCourse, Ledger.mk.injEq, and_true]
  constructor <;> funext id' <;> by_cases h : id' = id <;> simp [h]

/-- A new call changes nothing in the books. -/
theorem ledger_call (c : Entry) (new : n.course id = none) :
    (n.setCourse id (.going c.activity false)).ledger = n.ledger := by
  have hstage : Course.stage (.going c.activity false) = n.ledger.stage id := by
    simp only [ledger, new]
    cases c <;> rfl
  have hasked : Course.asked (.going c.activity false) = n.ledger.asked id := by
    simp [ledger, new, Course.asked]
  refine Eq.trans (ledger_of_course id _ rfl) ?_
  rw [hstage, hasked, Function.update_eq_self, Function.update_eq_self]
  rfl

theorem ledger_spawn (n : Node) (id : CallId) :
    (n.setCourse id (.going (.waiter .await) false)).ledger = n.ledger.spawn id :=
  ledger_of_course id _ rfl

theorem ledger_carryOut (n : Node) (id : CallId) (t : Turn Activity Ending) (g : Bool) :
    { n.carryOut id t with grants := n.grants + if g then 1 else 0 : Node }.ledger =
      n.ledger.move id (stageAfter t.next) t.elector g := by
  have hstage : Course.stage (t.next.elim (.going · false) .ended) = stageAfter t.next := by
    cases t.next <;> rfl
  have hasked : Course.asked (t.next.elim (.going · false) .ended) = false := by
    cases t.next <;> rfl
  refine Eq.trans (ledger_of_course id (t.next.elim (.going · false) .ended) rfl) ?_
  rw [hstage, hasked]
  rfl

theorem count_unlock_append (qs : List Request) (q : Request) :
    (qs ++ [q]).count .unlock = qs.count .unlock + if q = .unlock then 1 else 0 := by
  rw [List.count_append, List.count_singleton]
  simp only [beq_iff_eq]

theorem ledger_ask {a : Activity} (here : n.course id = some (.going a false)) (q : Request) :
    { n.setCourse id (.going a true) with requests := n.requests ++ [q] : Node }.ledger =
      n.ledger.ask id q := by
  have hstage : Course.stage (.going a true) = n.ledger.stage id := (stage_of_going here).symm
  refine Eq.trans (ledger_of_course id (.going a true) rfl) ?_
  rw [hstage, Function.update_eq_self, count_unlock_append]
  rfl

theorem ledger_breakOff (n : Node) (id : CallId) {e : Elector} :
    { n.setCourse id .brokenOff with elector := e : Node }.ledger =
      n.ledger.move id .idle e false :=
  ledger_of_course id .brokenOff rfl

end Node

end Primacy.Election
