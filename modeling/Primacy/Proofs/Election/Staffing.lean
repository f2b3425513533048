/-
  Primacy.Proofs.Election.Staffing

  The waiter of an elector and those who have to do with it, also when calls are dropped and the
  waiter breaks down.  An elector that shows an active waiter has one at work, a start brings no
  second one to life, and whoever is about to stop the elector has collected the waiter.
-/
import Primacy.Proofs.Election.Release
import Primacy.Proofs.Election.Tending

namespace Primacy.Election

/-- A start that may still bring a waiter to life. -/
def Role.isBringing : Role → Bool
  | .starting => true
  | .spawning => true
  | _ => false

theorem Role.isInside_of_isBringing {ρ : Role} (h : ρ.isBringing = true) : ρ.isInside = true := by
  cases ρ <;> first | rfl | exact nomatch h

/-- What a new role of one activity is not, is an old role. -/
theorem Role.of_update {ρ : CallId → Role} {id id' : CallId} {s : Role} {P : Role → Prop}
    (hs : ¬ P s) (h : P (Function.update ρ id s id')) : P (ρ id') := by
  by_cases hne : id' = id
  · rw [hne, Function.update_self] at h
    exact absurd h hs
  · rwa [Function.update_of_ne hne] at h

/-! ## What turns do to the waiter -/

theorem Passage.started {e e' : Elector} {answered granted : Bool} {s s' : Stage}
    (h : Passage e e' answered granted s s') (hs : e.started = true) : e'.started = true := by
  cases h with
  | stay free status started => exact started.trans hs
  | retire free status started => exact started.trans hs
  | link unstarted status started => exact started.trans hs
  | connect status started => exact started
  | standBy before status started => exact started.trans hs
  | grant status started => exact started.trans hs
  | run before status started => exact started.trans hs
  | halt status started => exact started.trans hs

namespace Tending

variable {e e' : Elector} {s s' : Role}

theorem of_joining (h : Tending e e' s .joining) : s = .taking := by
  generalize hs : Role.joining = s' at h
  cases h with
  | stay apart same =>
    subst hs
    exact nomatch apart rfl
  | take kept waiter => rfl
  | _ => exact nomatch hs

/-- Whoever waits for the waiter has found one to collect. -/
theorem kept_of_joining (h : Tending e e' s .joining) : e.waiterKept = true := by
  generalize hs : Role.joining = s' at h
  cases h with
  | stay apart same =>
    subst hs
    exact nomatch apart rfl
  | take kept waiter => exact kept
  | _ => exact nomatch hs

/-- Whoever is about to stop the elector found no waiter to collect, or has waited for it. -/
theorem of_halting (h : Tending e e' s .halting) :
    s = .joining ∨ s = .taking ∧ e.waiterKept = false := by
  generalize hs : Role.halting = s' at h
  cases h with
  | stay apart same =>
    subst hs
    exact nomatch apart rfl
  | skip unkept waiter kept => exact .inr ⟨rfl, unkept⟩
  | join inactive waiter => exact .inl rfl
  | _ => exact nomatch hs

theorem bringing_before (h : Tending e e' s s') (hs : s'.isBringing = true) :
    s.isBringing = true ∨ s ≠ .starting ∧ s' = .starting := by
  cases h with
  | stay apart same => exact .inl hs
  | begin alive same => exact .inr ⟨nofun, rfl⟩
  | ready same => exact .inl rfl
  | _ => exact nomatch hs

/-- A waiter that does not end goes on. -/
theorem waiting_after (h : Tending e e' .waiting s') (hactive : e'.waiter = .active) :
    s' = .waiting := by
  generalize hs : Role.waiting = s at h
  cases h with
  | stay apart same => rfl
  | finish inactive => exact absurd hactive inactive
  | _ => exact nomatch hs

/-- The elector has the waiter that it had, unless a start brought one to life or it ended. -/
theorem waiter_eq (h : Tending e e' s s') :
    e'.waiter = e.waiter ∨ s = .spawning ∧ s' = .keeping ∧ e'.waiter = .active ∨
      s = .waiting ∧ e'.waiter ≠ .active := by
  cases h with
  | stay apart same => exact .inl same.1
  | begin alive same => exact .inl same.1
  | retire same => exact .inl same.1
  | ready same => exact .inl same.1
  | spawn waiter => exact .inr (.inl ⟨rfl, rfl, waiter⟩)
  | keep kept waiter => exact .inl waiter
  | come same => exact .inl same.1
  | take kept waiter => exact .inl waiter
  | skip unkept waiter kept => exact .inl waiter
  | join inactive waiter => exact .inl waiter
  | halt same => exact .inl same.1
  | finish inactive => exact .inr (.inr ⟨rfl, inactive⟩)

end Tending

namespace WaiterPoint

variable {e : Elector}

theorem settlePromotion_waiter {t : Turn PromotionPoint Promotion}
    (h : t.elector.waiter ≠ .absent) : (settlePromotion t).elector.waiter ≠ .absent := by
  rcases settlePromotion_elector_next t with ⟨p, -, ht⟩ | ⟨-, ht⟩ | ⟨-, ht⟩ <;> rw [ht]
  · exact h
  · exact h
  · exact nofun

theorem step_waiter (p : WaiterPoint) (h : e.waiter ≠ .absent) :
    (p.step e).elector.waiter ≠ .absent := by
  cases p with
  | await => exact nofun
  | checkShutdown =>
    rw [step]
    split <;> exact h
  | promote p =>
    refine settlePromotion_waiter ?_
    obtain ⟨_, _, _, hp⟩ := p.step_elector .deferred e
    rw [hp]
    exact h
  | unlockStopped => exact h
  | unlockRefused => exact h

theorem reply_waiter (p : WaiterPoint) (r : Reply) (h : e.waiter ≠ .absent) :
    (p.reply e r).elector.waiter ≠ .absent := by
  cases p with
  | await =>
    cases r with
    | ok granted => exact h
    | error err => exact nofun
  | checkShutdown => exact h
  | promote p =>
    refine settlePromotion_waiter ?_
    rw [p.reply_elector]
    exact h
  | unlockStopped => cases r <;> exact nofun
  | unlockRefused => exact nofun

end WaiterPoint

namespace Activity

variable {e : Elector} {me : CallId} {a : Activity} {r : Reply} {q : Request}

/-- Nobody but the waiter has its role. -/
theorem eq_waiter (h : a.role = .waiting) : ∃ p, a = .waiter p := by
  cases a with
  | waiter p => exact ⟨p, rfl⟩
  | start p =>
    cases p with
    | promote blocking p => cases blocking <;> exact nomatch h
    | _ => exact nomatch h
  | stop p => cases p <;> exact nomatch h
  | await p => exact nomatch h
  | notify p => exact nomatch h

/-- An elector that has, or had, a waiter never looks as if it had none. -/
theorem waiter_ne_absent_of_step (hready : a.isReady e me = true) (h : e.waiter ≠ .absent) :
    (a.step e me).elector.waiter ≠ .absent := by
  rcases (step_tending hready).waiter_eq with hsame | ⟨-, -, hactive⟩ | ⟨hwaiting, -⟩
  · rwa [hsame]
  · rw [hactive]
    exact nofun
  · obtain ⟨p, rfl⟩ := eq_waiter hwaiting
    exact p.step_waiter h

theorem waiter_ne_absent_of_reply (a : Activity) (r : Reply) (h : e.waiter ≠ .absent) :
    (a.reply e r).elector.waiter ≠ .absent := by
  cases a with
  | start p =>
    obtain ⟨_, hp⟩ := p.reply_elector e r
    rw [reply, Turn.within_elector, hp]
    exact h
  | stop p =>
    rw [reply, Turn.within_elector, p.reply_elector]
    exact h
  | waiter p => exact p.reply_waiter r h
  | await p => exact h
  | notify p => exact h

/-- A start gets past its check of the elector only if none did before. -/
theorem unstarted_of_step (hbefore : a.role ≠ .starting)
    (h : roleAfter (a.step e me).next = .starting) : e.started = false := by
  cases a with
  | start p =>
    dsimp only [step, roleAfter] at h
    rw [Turn.elim_within] at h
    cases p with
    | check address blocking =>
      cases hstarted : e.started with
      | false => rfl
      | true =>
        have hturned : (e.started || e.status != .uninitialized) = true := by
          rw [hstarted]
          rfl
        dsimp only [StartPoint.step] at h
        rw [if_pos hturned] at h
        exact nomatch h
    | promote blocking p =>
      cases blocking with
      | false => exact absurd rfl hbefore
      | true =>
        have haside : ((StartPoint.promote true p).step e me).next.elim
            (fun p => (start p).role) (fun _ => Role.aside) = .aside :=
          Turn.elim_within_const (fun _ => rfl) fun r => by cases r <;> rfl
        exact nomatch haside.symm.trans h
    | arrive address blocking =>
      dsimp only [StartPoint.step] at h
      by_cases hin : (e.init.arrive me).isInside me = true
      · simp only [hin, if_true] at h
        exact nomatch h
      · simp only [hin] at h
        exact nomatch h
    | checkShutdown =>
      dsimp only [StartPoint.step] at h
      by_cases hs : e.shutdown = true
      · simp only [hs, if_true] at h
        exact nomatch h
      · simp only [hs] at h
        exact nomatch h
    | readStatus blocking => cases blocking <;> exact nomatch h
    | connect address blocking => exact absurd rfl hbefore
    | publish writes blocking => exact absurd rfl hbefore
    | tryLock => exact absurd rfl hbefore
    | standBy => exact absurd rfl hbefore
    | _ => exact nomatch h
  | stop p =>
    dsimp only [step, roleAfter] at h
    rw [Turn.elim_within] at h
    cases p with
    | arrive =>
      dsimp only [StopPoint.step] at h
      by_cases hin : (e.init.arrive me).isInside me = true
      · simp only [hin, if_true] at h
        exact nomatch h
      · simp only [hin] at h
        exact nomatch h
    | takeWaiter =>
      dsimp only [StopPoint.step] at h
      split at h <;> exact nomatch h
    | closeGate before => cases before <;> exact nomatch h
    | _ => exact nomatch h
  | await p =>
    have haside : roleAfter ((await p).step e me).next = .aside :=
      Turn.elim_within_const (fun _ => rfl) fun _ => rfl
    exact nomatch haside.symm.trans h
  | notify p =>
    have haside : roleAfter ((notify p).step e me).next = .aside :=
      Turn.elim_within_const (fun _ => rfl) fun _ => rfl
    exact nomatch haside.symm.trans h
  | waiter p =>
    dsimp only [step, roleAfter] at h
    rw [Turn.elim_within] at h
    cases hn : (p.step e).next with
    | inl q =>
      rw [hn] at h
      exact nomatch h
    | inr u =>
      rw [hn] at h
      exact nomatch h

/-- No answer leads a start past its check. -/
theorem starting_of_reply (hq : a.request? e = some q)
    (h : roleAfter (a.reply e r).next = .starting) : a.role = .starting := by
  cases a with
  | start p =>
    dsimp only [reply, roleAfter] at h
    rw [Turn.elim_within] at h
    cases p with
    | connect address blocking => rfl
    | publish writes blocking => rfl
    | tryLock => rfl
    | promote blocking p =>
      cases blocking with
      | false => rfl
      | true =>
        have haside : ((StartPoint.promote true p).reply e r).next.elim
            (fun p => (start p).role) (fun _ => Role.aside) = .aside :=
          Turn.elim_within_const (fun _ => rfl) fun r => by cases r <;> rfl
        exact nomatch haside.symm.trans h
    | await => cases r <;> exact nomatch h
    | unlockStopped => exact nomatch h
    | unlockRefused blocking => exact nomatch h
    | _ => exact nomatch hq
  | stop p =>
    cases p with
    | unlock => cases r <;> exact nomatch h
    | _ => exact nomatch hq
  | waiter p =>
    dsimp only [reply, roleAfter] at h
    rw [Turn.elim_within] at h
    cases hn : (p.reply e r).next with
    | inl q =>
      rw [hn] at h
      exact nomatch h
    | inr u =>
      rw [hn] at h
      exact nomatch h
  | await p => exact nomatch hq
  | notify p => exact nomatch hq

/-- Only the waiter itself breaks down. -/
theorem abandon_waiter (ha : a.role ≠ .waiting) (e : Elector) (me : CallId) :
    (a.abandon e me).waiter = e.waiter := by
  cases a with
  | start p =>
    cases p with
    | queue address blocking => rfl
    | promote blocking p => cases blocking <;> rfl
    | unlockRefused blocking => cases blocking <;> rfl
    | readStatus blocking => cases blocking <;> rfl
    | _ => rfl
  | stop p => cases p <;> rfl
  | waiter p => exact absurd rfl ha
  | await p => rfl
  | notify p => rfl

theorem abandon_waiter_ne_absent (ha : a.role = .waiting) :
    (a.abandon e me).waiter ≠ .absent := by
  obtain ⟨p, rfl⟩ := eq_waiter ha
  exact nofun

/-! ## Who puts the waiter where a stop collects it -/

/-- Only the start that brought the waiter to life does. -/
theorem waiterKept_of_step (h : (a.step e me).elector.waiterKept = true) :
    a.role = .keeping ∨ e.waiterKept = true := by
  cases a with
  | start p =>
    cases p with
    | keepWaiter => exact .inl rfl
    | check address blocking =>
      dsimp only [step, StartPoint.step] at h
      split at h <;> exact .inr h
    | standBy =>
      dsimp only [step, StartPoint.step] at h
      split at h <;> exact .inr h
    | promote blocking p =>
      obtain ⟨_, _, _, hp⟩ := p.step_elector .immediate e
      have hkept : (p.step .immediate e).elector.waiterKept = e.waiterKept := by rw [hp]
      exact .inr (hkept.symm.trans h)
    | readStatus blocking => cases blocking <;> exact .inr h
    | _ => exact .inr h
  | stop p =>
    cases p with
    | takeWaiter =>
      dsimp only [step, StopPoint.step] at h
      split at h
      · exact nomatch h
      · exact .inr h
    | closeGate before => cases before <;> exact .inr h
    | _ => exact .inr h
  | await p =>
    rw [step, Turn.within_elector, p.step_elector] at h
    exact .inr h
  | notify p =>
    obtain ⟨_, hp⟩ := p.step_elector e
    rw [step, Turn.within_elector, hp] at h
    exact .inr h
  | waiter p =>
    obtain ⟨_, _, _, _, hp⟩ := p.step_elector e
    rw [step, Turn.within_elector, hp] at h
    exact .inr h

/-- A stop that collects the waiter leaves nothing to collect. -/
theorem not_waiterKept_of_taking (htaking : a.role = .taking) :
    (a.step e me).elector.waiterKept = false := by
  cases a with
  | stop p =>
    cases p with
    | takeWaiter =>
      dsimp only [step, StopPoint.step]
      split
      · rfl
      · next h => exact Bool.eq_false_iff.mpr h
    | _ => exact nomatch htaking
  | start p =>
    cases p with
    | promote blocking p => cases blocking <;> exact nomatch htaking
    | _ => exact nomatch htaking
  | await p => exact nomatch htaking
  | notify p => exact nomatch htaking
  | waiter p => exact nomatch htaking

/-- A stop that collects the waiter makes no request. -/
theorem role_ne_taking (hq : a.request? e = some q) : a.role ≠ .taking := by
  cases a with
  | stop p =>
    cases p with
    | unlock => exact nofun
    | _ => exact nomatch hq
  | start p =>
    cases p with
    | promote blocking p => cases blocking <;> exact nofun
    | _ => exact nofun
  | _ => exact nofun

theorem reply_waiterKept (a : Activity) (e : Elector) (r : Reply) :
    (a.reply e r).elector.waiterKept = e.waiterKept := by
  cases a with
  | start p =>
    obtain ⟨_, h⟩ := p.reply_elector e r
    rw [reply, Turn.within_elector, h]
  | stop p => rw [reply, Turn.within_elector, p.reply_elector]
  | waiter p =>
    obtain ⟨_, _, h⟩ := p.reply_elector e r
    rw [reply, Turn.within_elector, h]
  | _ => rfl

end Activity

/-! ## Staff -/

/-- The waiter, those who bring it to life and those who collect it; `ρ` gives the role of each
activity. -/
structure Staffed (ρ : CallId → Role) (e : Elector) : Prop where
  waiting : ∀ id, ρ id = .waiting → e.waiter ≠ .absent
  alone : ∀ id id', ρ id = .waiting → ρ id' = .waiting → id = id'
  /-- There is one waiter in the life of an elector. -/
  settled : e.waiter ≠ .absent → e.started = true ∧ ∀ id, (ρ id).isBringing = false
  starting : ∀ id, (ρ id).isStarting = true → e.status ≠ .stopped
  joining : ∀ id, ρ id = .joining → e.status ≠ .stopped
  collected : ∀ id, ρ id = .joining ∨ ρ id = .halting → e.waiterKept = false
  stopped : e.status = .stopped → e.waiterKept = false

namespace Staffed

variable {ρ : CallId → Role} {e e' : Elector} {id : CallId} {s : Role}

/-- A turn keeps the staff. -/
theorem turn (h : Staffed ρ e)
    (hsole : ∀ id id', (ρ id).isInside = true → (ρ id').isInside = true → id = id')
    (ht : Tending e e' (ρ id) s)
    (hstopped : e'.status = .stopped → e.status = .stopped ∨ ρ id = .halting)
    (habsent : e.waiter ≠ .absent → e'.waiter ≠ .absent)
    (hstarted : e.started = true → e'.started = true)
    (hspawning : ρ id = .spawning → e.started = true)
    (hbegin : ρ id ≠ .starting → s = .starting → e.started = false)
    (hkept : e'.waiterKept = true → ρ id = .keeping ∨ e.waiterKept = true)
    (htaking : ρ id = .taking → e'.waiterKept = false) :
    Staffed (Function.update ρ id s) e' := by
  -- whoever puts a waiter where it is collected is past the turnstile alone
  have hcollecting : ∀ id', ρ id' = .joining ∨ ρ id' = .halting → e'.waiterKept = false := by
    intro id' h'
    have hin : (ρ id').isInside = true := by
      rcases h' with h' | h' <;> rw [h'] <;> rfl
    refine Bool.eq_false_iff.mpr fun hk => ?_
    rcases hkept hk with hkeeping | hbefore
    · obtain rfl := hsole id' id hin (by rw [hkeeping]; rfl)
      rw [hkeeping] at h'
      exact h'.elim nofun nofun
    · exact nomatch hbefore.symm.trans (h.collected id' h')
  -- a turn makes no waiter of anybody: the new one comes in by `spawn`
  have hwaiting : ∀ id', Function.update ρ id s id' = .waiting → ρ id' = .waiting := by
    intro id' h'
    by_cases hne : id' = id
    · rw [hne, Function.update_self] at h'
      rw [hne]
      exact (h' ▸ ht).waiting_before.1
    · rwa [Function.update_of_ne hne] at h'
  constructor
  case waiting => exact fun id' h' => habsent (h.waiting id' (hwaiting id' h'))
  case alone => exact fun id₁ id₂ h₁ h₂ => h.alone id₁ id₂ (hwaiting id₁ h₁) (hwaiting id₂ h₂)
  case settled =>
    intro hwaiter
    by_cases hbefore : e.waiter = .absent
    · -- the waiter comes to life in this turn, that of a start past the turnstile
      rcases ht.waiter_eq with hsame | ⟨hspawn, hkeeping, -⟩ | ⟨hwaiting, -⟩
      · exact absurd (hsame.trans hbefore) hwaiter
      · refine ⟨hstarted (hspawning hspawn), fun id' => ?_⟩
        by_cases hne : id' = id
        · rw [hne, Function.update_self, hkeeping]
          rfl
        · rw [Function.update_of_ne hne]
          refine Bool.eq_false_iff.mpr fun hb => ?_
          exact hne (hsole id' id (Role.isInside_of_isBringing hb) (by rw [hspawn]; rfl))
      · exact absurd hbefore (h.waiting id hwaiting)
    · -- there was one before, and a start that comes later is turned away
      obtain ⟨hstart, hnone⟩ := h.settled hbefore
      refine ⟨hstarted hstart, fun id' => ?_⟩
      by_cases hne : id' = id
      · rw [hne, Function.update_self]
        refine Bool.eq_false_iff.mpr fun hb => ?_
        rcases ht.bringing_before hb with hb | ⟨hne', hs⟩
        · exact nomatch hb.symm.trans (hnone id)
        · exact nomatch hstart.symm.trans (hbegin hne' hs)
      · rw [Function.update_of_ne hne]
        exact hnone id'
  case starting => exact Tending.alive_of_starting h.starting hsole ht hstopped
  case joining =>
    -- whoever waits for the waiter found one to collect, and is past the turnstile alone
    intro id' h' hs
    by_cases hne : id' = id
    · rw [hne, Function.update_self] at h'
      subst h'
      rcases hstopped hs with hbefore | hhalting
      · exact nomatch ht.kept_of_joining.symm.trans (h.stopped hbefore)
      · exact nomatch hhalting.symm.trans ht.of_joining
    · rw [Function.update_of_ne hne] at h'
      rcases hstopped hs with hbefore | hhalting
      · exact h.joining id' h' hbefore
      · exact hne (hsole id' id (by rw [h']; rfl) (by rw [hhalting]; rfl))
  case collected =>
    intro id' h'
    by_cases hne : id' = id
    · rw [hne, Function.update_self] at h'
      rcases h' with rfl | rfl
      · exact htaking ht.of_joining
      · rcases ht.of_halting with hjoining | ⟨htake, -⟩
        · exact hcollecting id (.inl hjoining)
        · exact htaking htake
    · rw [Function.update_of_ne hne] at h'
      exact hcollecting id' h'
  case stopped =>
    intro hs
    rcases hstopped hs with hbefore | hhalting
    · refine Bool.eq_false_iff.mpr fun hk => ?_
      rcases hkept hk with hkeeping | hk
      · exact h.starting id (by rw [hkeeping]; rfl) hbefore
      · exact nomatch hk.symm.trans (h.stopped hbefore)
    · exact hcollecting id (.inr hhalting)

/-- An activity that is over does nothing to the others. -/
theorem breakOff (h : Staffed ρ e) (hstatus : e'.status = e.status)
    (hstarted : e'.started = e.started) (hkept : e'.waiterKept = e.waiterKept)
    (hwaiter : e'.waiter = e.waiter ∨ ρ id = .waiting ∧ e'.waiter ≠ .absent) :
    Staffed (Function.update ρ id .aside) e' := by
  have habsent : e.waiter ≠ .absent ↔ e'.waiter ≠ .absent := by
    rcases hwaiter with hsame | ⟨hwaiting, hne⟩
    · rw [hsame]
    · exact iff_of_true (h.waiting id hwaiting) hne
  have hsame : ∀ {id'} {s : Role}, s ≠ .aside → Function.update ρ id .aside id' = s → ρ id' = s :=
    fun {_ s} hs => Role.of_update (s := .aside) (P := (· = s)) hs.symm
  constructor
  case waiting => exact fun id' h' => habsent.mp (h.waiting id' (hsame nofun h'))
  case alone => exact fun id₁ id₂ h₁ h₂ => h.alone id₁ id₂ (hsame nofun h₁) (hsame nofun h₂)
  case settled =>
    intro hne
    obtain ⟨hstart, hnone⟩ := h.settled (habsent.mpr hne)
    refine ⟨hstarted.trans hstart, fun id' => Bool.eq_false_iff.mpr fun hb => ?_⟩
    have hbefore := Role.of_update (s := .aside) (P := (·.isBringing = true)) nofun hb
    exact nomatch hbefore.symm.trans (hnone id')
  case starting =>
    intro id' h'
    rw [hstatus]
    exact h.starting id' (Role.of_update (s := .aside) (P := (·.isStarting = true)) nofun h')
  case joining =>
    intro id' h'
    rw [hstatus]
    exact h.joining id' (hsame nofun h')
  case collected =>
    intro id' h'
    rw [hkept]
    exact h.collected id' (h'.imp (hsame nofun) (hsame nofun))
  case stopped =>
    intro hs
    rw [hkept]
    exact h.stopped (hstatus.symm.trans hs)

/-- A waiter comes to life where there was none. -/
theorem spawn (h : Staffed ρ e) (hnone : ∀ id', ρ id' ≠ .waiting) (hwaiter : e.waiter ≠ .absent) :
    Staffed (Function.update ρ id .waiting) e := by
  have hsame : ∀ {id'} {s : Role}, s ≠ .waiting → Function.update ρ id .waiting id' = s →
      ρ id' = s :=
    fun {_ s} hs => Role.of_update (s := .waiting) (P := (· = s)) hs.symm
  have hself : ∀ id', Function.update ρ id .waiting id' = .waiting → id' = id := by
    intro id' h'
    by_contra hne
    rw [Function.update_of_ne hne] at h'
    exact hnone id' h'
  obtain ⟨hstart, hbringing⟩ := h.settled hwaiter
  constructor
  case waiting => exact fun _ _ => hwaiter
  case alone => exact fun id₁ id₂ h₁ h₂ => (hself id₁ h₁).trans (hself id₂ h₂).symm
  case settled =>
    refine fun _ => ⟨hstart, fun id' => Bool.eq_false_iff.mpr fun hb => ?_⟩
    have hbefore := Role.of_update (s := .waiting) (P := (·.isBringing = true)) nofun hb
    exact nomatch hbefore.symm.trans (hbringing id')
  case starting =>
    intro id' h'
    exact h.starting id' (Role.of_update (s := .waiting) (P := (·.isStarting = true)) nofun h')
  case joining => exact fun id' h' => h.joining id' (hsame nofun h')
  case collected => exact fun id' h' => h.collected id' (h'.imp (hsame nofun) (hsame nofun))
  case stopped => exact h.stopped

end Staffed

/-! ## The staff of a node -/

namespace Node

variable {n n' : Node} {id : CallId} {a : Activity} {asked : Bool} {m : Move}

theorem role_call (c : Entry) (new : n.course id = none) :
    (n.setCourse id (.going c.activity false)).role = n.role := by
  have haside : Course.role (.going c.activity false) = n.role id := by
    rw [role, new]
    cases c <;> rfl
  rw [role_setCourse, haside, Function.update_eq_self]

theorem role_ask (here : n.course id = some (.going a false)) :
    (n.setCourse id (.going a true)).role = n.role := by
  have hrole : Course.role (.going a true) = n.role id := (role_of_going here).symm
  rw [role_setCourse, hrole, Function.update_eq_self]

theorem staffed_fresh {e : Elector} (hwaiter : e.waiter = .absent) (hkept : e.waiterKept = false) :
    Staffed (fresh e).role (fresh e).elector where
  waiting _ h := nomatch h
  alone _ _ h := nomatch h
  settled h := absurd hwaiter h
  starting _ h := nomatch h
  joining _ h := nomatch h
  collected _ h := h.elim nofun nofun
  stopped _ := hkept

theorem Makes.staffed (h : n.Makes m n') (hc : n.Custody) (hn : Staffed n.role n.elector) :
    Staffed n'.role n'.elector := by
  have hsole : ∀ id id', (n.role id).isInside = true → (n.role id').isInside = true → id = id' :=
    fun _ _ => hc.sole_inside
  have hspawning : ∀ id a asked, n.course id = some (.going a asked) → a.role = .spawning →
      n.elector.started = true := by
    intro id a asked here hrole
    refine hc.balanced.competing id ?_
    rw [stage_of_going here]
    cases a with
    | start p =>
      cases p with
      | spawnWaiter => rfl
      | promote blocking p => cases blocking <;> exact nomatch hrole
      | _ => exact nomatch hrole
    | stop p => cases p <;> exact nomatch hrole
    | await p => exact nomatch hrole
    | notify p => exact nomatch hrole
    | waiter p => exact nomatch hrole
  cases h with
  | @call id c new =>
    rw [role_call c new]
    exact hn
  | @step id w a asked here ready new =>
    have hrole := role_of_going here
    have hturn : Staffed (n.carryOut id (a.step n.elector id)).role
        (a.step n.elector id).elector := by
      rw [role_carryOut]
      refine hn.turn hsole (hrole ▸ Activity.step_tending ready)
        (fun hs => hrole ▸ Activity.halting_of_step hs) (Activity.waiter_ne_absent_of_step ready)
        (Activity.step_passage ready).started ?_ ?_ ?_ ?_
      · rw [hrole]
        exact hspawning id a asked here
      · rw [hrole]
        exact Activity.unstarted_of_step
      · rw [hrole]
        exact Activity.waiterKept_of_step
      · rw [hrole]
        exact Activity.not_waiterKept_of_taking
    rw [spawn_elector]
    unfold Node.spawn
    split
    · next hw =>
      rw [role_setCourse]
      have hactive : (a.step n.elector id).elector.waiter = .active := hw.2
      -- nobody else is a waiter: before this turn the elector had none
      refine hturn.spawn (fun id' hid' => ?_) (by rw [hactive]; exact nofun)
      rw [role_carryOut] at hid'
      by_cases hne : id' = id
      · rw [hne, Function.update_self] at hid'
        have hbefore := (hid' ▸ Activity.step_tending ready).waiting_before.1
        exact hn.waiting id (hrole.trans hbefore) hw.1
      · rw [Function.update_of_ne hne] at hid'
        exact hn.waiting id' hid' hw.1
    · exact hturn
  | @ask id a q here request =>
    have hsame : { n.setCourse id (.going a true) with
        requests := n.requests ++ [q] : Node }.role = n.role := role_ask here
    rw [hsame]
    exact hn
  | @answer id r a q here request =>
    have hrole := role_of_going here
    have hafter : { n.carryOut id (a.reply n.elector r) with
        grants := n.grants + if q.isGranted r then 1 else 0 : Node }.role =
        Function.update n.role id (roleAfter (a.reply n.elector r).next) :=
      role_carryOut n id _
    rw [hafter]
    have ht := Activity.reply_tending (r := r) request
    refine hn.turn hsole (hrole ▸ ht) (fun hs => .inl ?_) (a.waiter_ne_absent_of_reply r)
      (Activity.reply_passage request).started ?_ (fun hne hs => ?_) ?_ fun htaking => ?_
    · exact (a.reply_status n.elector r).symm.trans hs
    · rw [hrole]
      exact hspawning id a true here
    · -- no answer leads a start past its check
      rw [hrole] at hne
      exact absurd (Activity.starting_of_reply request hs) hne
    · intro hk
      exact .inr ((a.reply_waiterKept n.elector r).symm.trans hk)
    · rw [hrole] at htaking
      exact absurd htaking (Activity.role_ne_taking request)
  | @breakOff id a asked here may =>
    obtain ⟨t, w, he⟩ := a.abandon_elector n.elector id
    show Staffed (n.setCourse id .brokenOff).role (a.abandon n.elector id)
    rw [role_setCourse]
    refine hn.breakOff (by rw [he]) (by rw [he]) (by rw [he]) ?_
    rw [role_of_going here]
    by_cases hwaiting : a.role = .waiting
    · exact .inr ⟨hwaiting, Activity.abandon_waiter_ne_absent hwaiting⟩
    · exact .inl (Activity.abandon_waiter hwaiting n.elector id)
  | discard =>
    exact ⟨hn.waiting, hn.alone, hn.settled, hn.starting, hn.joining, hn.collected, hn.stopped⟩

theorem Reachable.staffed {e : Elector} (hstatus : e.status ≠ .running)
    (hwaiter : e.waiter = .absent) (hkept : e.waiterKept = false) (h : Reachable e n) :
    Staffed n.role n.elector := by
  induction h with
  | fresh => exact staffed_fresh hwaiter hkept
  | move before made ih => exact (makes_of_move? made).staffed (before.custody hstatus) ih

/-! ## The waiter of a node -/

/-- An elector that shows an active waiter has one. -/
def Manned (n : Node) : Prop := n.elector.waiter = .active → ∃ id, n.role id = .waiting

theorem going_of_waiting (h : n.role id = .waiting) :
    ∃ p asked, n.course id = some (.going (.waiter p) asked) := by
  unfold role at h
  cases hc : n.course id with
  | none =>
    rw [hc] at h
    exact nomatch h
  | some c =>
    rw [hc] at h
    cases c with
    | going a asked =>
      obtain ⟨p, rfl⟩ := Activity.eq_waiter h
      exact ⟨p, asked, rfl⟩
    | ended r => exact nomatch h
    | brokenOff => exact nomatch h

theorem role_spawn {before : Elector} {w : CallId} (h : n.role id = .waiting) :
    (n.spawn before w).role id = .waiting := by
  rw [Node.spawn]
  split
  · rw [role_setCourse]
    by_cases hid : id = w
    · rw [hid, Function.update_self]
      rfl
    · rw [Function.update_of_ne hid]
      exact h
  · exact h

/-- The waiter that was at work still is if it has not ended. -/
theorem Manned.carryOut (hn : n.Manned) {t : Turn Activity Ending}
    (ht : Tending n.elector t.elector (n.role id) (roleAfter t.next))
    (hbefore : n.elector.waiter = .active) (hactive : t.elector.waiter = .active) :
    ∃ id', (n.carryOut id t).role id' = .waiting := by
  obtain ⟨id', hid'⟩ := hn hbefore
  refine ⟨id', ?_⟩
  rw [role_carryOut]
  by_cases hne : id' = id
  · rw [hne, Function.update_self]
    rw [hne] at hid'
    rw [hid'] at ht
    exact ht.waiting_after hactive
  · rw [Function.update_of_ne hne]
    exact hid'

theorem Makes.manned (h : n.Makes m n') (hs : Staffed n.role n.elector) (hn : n.Manned) :
    n'.Manned := by
  cases h with
  | @call id c new =>
    intro hactive
    rw [role_call c new]
    exact hn hactive
  | @step id w a asked here ready new =>
    intro hactive
    rw [spawn_elector] at hactive
    have ht := Activity.step_tending ready
    rcases ht.active_before hactive with hbefore | hspawning
    · rw [← role_of_going here] at ht
      obtain ⟨id', hid'⟩ := hn.carryOut ht hbefore hactive
      exact ⟨id', role_spawn hid'⟩
    · -- a start that is about to bring a waiter to life has found none
      have habsent : n.elector.waiter = .absent := by
        by_contra hne
        have hnone := (hs.settled hne).2 id
        rw [role_of_going here, hspawning] at hnone
        exact nomatch hnone
      refine ⟨w, ?_⟩
      unfold Node.spawn
      rw [if_pos ⟨habsent, hactive⟩, role_setCourse, Function.update_self]
      rfl
  | @ask id a q here request =>
    intro hactive
    have hsame : { n.setCourse id (.going a true) with
        requests := n.requests ++ [q] : Node }.role = n.role := role_ask here
    rw [hsame]
    exact hn hactive
  | @answer id r a q here request =>
    intro hactive
    have ht := Activity.reply_tending (r := r) request
    rw [← role_of_going here] at ht
    exact hn.carryOut ht (Activity.reply_waiter hactive) hactive
  | @breakOff id a asked here may =>
    intro hactive
    have hwaiting : a.role ≠ .waiting := by
      intro hwaiting
      obtain ⟨p, rfl⟩ := Activity.eq_waiter hwaiting
      exact nomatch hactive
    obtain ⟨id', hid'⟩ := hn ((Activity.abandon_waiter hwaiting n.elector id).symm.trans hactive)
    refine ⟨id', ?_⟩
    have hne : id' ≠ id := by
      rintro rfl
      exact hwaiting ((role_of_going here).symm.trans hid')
    show (n.setCourse id .brokenOff).role id' = .waiting
    rw [role_setCourse, Function.update_of_ne hne]
    exact hid'
  | discard => exact hn

theorem Reachable.manned {e : Elector} (hstatus : e.status ≠ .running)
    (hwaiter : e.waiter = .absent) (hkept : e.waiterKept = false) (h : Reachable e n) :
    n.Manned := by
  induction h with
  | fresh => exact fun hactive => nomatch hwaiter.symm.trans hactive
  | move before made ih =>
    exact (makes_of_move? made).manned (before.staffed hstatus hwaiter hkept) ih

end Node

end Primacy.Election
