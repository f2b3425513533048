/-
  Primacy.Proofs.Election.Tending

  A start brings the waiter of a standby to life, and a stop waits for its end before it stops the
  elector.  As long as no call is dropped, an elector is therefore not stopped while its waiter is
  at work, nor while a start that is past the turnstile is.
-/
import Primacy.Proofs.Election.Custody

namespace Primacy.Election

/-! ## Roles -/

/-- How an activity stands to the waiter and to the end of an elector. -/
inductive Role where
  | aside
  /-- A start is past the turnstile. -/
  | starting
  /-- It is about to bring the waiter to life. -/
  | spawning
  /-- It has yet to put the waiter where a stop collects it. -/
  | keeping
  /-- A stop is about to collect the waiter. -/
  | taking
  /-- It waits for the waiter to end. -/
  | joining
  /-- It is about to stop the elector. -/
  | halting
  /-- The waiter itself. -/
  | waiting
  deriving DecidableEq

namespace Role

/-- A start is at work, and no stop can come in between. -/
def isStarting : Role → Bool
  | starting => true
  | spawning => true
  | keeping => true
  | _ => false

/-- The activity is past the turnstile. -/
def isInside : Role → Bool
  | aside => false
  | waiting => false
  | _ => true

theorem isInside_of_isStarting {ρ : Role} (h : ρ.isStarting = true) : ρ.isInside = true := by
  cases ρ <;> first | rfl | exact nomatch h

end Role

def StartPoint.role : StartPoint → Role
  | connect .. => .starting
  | publish .. => .starting
  | tryLock => .starting
  | standBy => .starting
  | spawnWaiter => .spawning
  | keepWaiter => .keeping
  | promote false _ => .starting
  | _ => .aside

def StopPoint.role : StopPoint → Role
  | takeWaiter => .taking
  | join => .joining
  | halt => .halting
  | _ => .aside

namespace Activity

def role : Activity → Role
  | start p => p.role
  | stop p => p.role
  | waiter _ => .waiting
  | _ => .aside

end Activity

/-- The role that a turn leads to. -/
def roleAfter : Activity ⊕ Ending → Role := Sum.elim Activity.role fun _ => .aside

/-- The elector's waiter is as it was, and a stop collects it or not as it did. -/
def SameWaiter (e e' : Elector) : Prop := e'.waiter = e.waiter ∧ e'.waiterKept = e.waiterKept

/-- A turn of an activity leads from one role to another and changes the elector from `e` to
`e'`. -/
inductive Tending (e e' : Elector) : Role → Role → Prop where
  | stay {ρ : Role} (apart : ρ.isInside = true → ρ = .starting) (same : SameWaiter e e') :
      Tending e e' ρ ρ
  | begin (alive : e.status ≠ .stopped) (same : SameWaiter e e') : Tending e e' .aside .starting
  | retire (same : SameWaiter e e') : Tending e e' .starting .aside
  | ready (same : SameWaiter e e') : Tending e e' .starting .spawning
  | spawn (waiter : e'.waiter = .active) : Tending e e' .spawning .keeping
  | keep (kept : e'.waiterKept = true) (waiter : e'.waiter = e.waiter) :
      Tending e e' .keeping .aside
  | come (same : SameWaiter e e') : Tending e e' .aside .taking
  | take (kept : e.waiterKept = true) (waiter : e'.waiter = e.waiter) :
      Tending e e' .taking .joining
  | skip (unkept : e.waiterKept = false) (waiter : e'.waiter = e.waiter)
      (kept : e'.waiterKept = e.waiterKept) : Tending e e' .taking .halting
  | join (inactive : e.waiter ≠ .active) (waiter : e'.waiter = e.waiter) :
      Tending e e' .joining .halting
  | halt (same : SameWaiter e e') : Tending e e' .halting .aside
  | finish (inactive : e'.waiter ≠ .active) : Tending e e' .waiting .aside

theorem Tending.outside {e e' : Elector} {ρ : Role} (apart : ρ.isInside = false)
    (same : SameWaiter e e') : Tending e e' ρ ρ :=
  .stay (fun h => absurd (apart.symm.trans h) Bool.false_ne_true) same

/-! ## The roles of turns -/

/-- A promotion keeps a start that does not block at its work, or ends that. -/
theorem StartPoint.promote_tending {e : Elector} {blocking : Bool} {p : PromotionPoint}
    {t : Turn PromotionPoint Promotion} (same : SameWaiter e t.elector) :
    Tending e t.elector (promote blocking p).role
      ((t.within (promote blocking) (afterPromotion blocking)).next.elim role fun _ => .aside) := by
  rw [Turn.elim_within]
  cases blocking with
  | true =>
    have haside : (t.next.elim (fun p => (promote true p).role) fun r =>
        (afterPromotion true r).elim role fun _ => .aside) = .aside := by
      rcases t.next with p | r
      · rfl
      · cases r <;> rfl
    rw [haside]
    exact .outside rfl same
  | false =>
    rcases t.next with p | r
    · exact .stay (fun _ => rfl) same
    · cases r <;> exact .retire same

theorem StartPoint.step_tending (e : Elector) (me : CallId) (p : StartPoint)
    (hready : p.isReady e me = true) :
    Tending e (p.step e me).elector p.role
      ((p.step e me).next.elim StartPoint.role fun _ => .aside) := by
  cases p with
  | arrive address blocking =>
    by_cases h : (e.init.arrive me).isInside me = true
    · simpa [step, h, Turn.go, role] using .outside rfl ⟨rfl, rfl⟩
    · simpa [step, h, Turn.go, role] using .outside rfl ⟨rfl, rfl⟩
  | queue address blocking => exact .outside rfl ⟨rfl, rfl⟩
  | check address blocking =>
    by_cases h : (e.started || e.status != .uninitialized) = true
    · simpa [step, h, Turn.go, role] using .outside rfl ⟨rfl, rfl⟩
    · have hs : e.status = .uninitialized := by simp_all
      have halive : e.status ≠ .stopped := by
        rw [hs]
        decide
      simpa [step, h, Turn.go, role] using .begin halive ⟨rfl, rfl⟩
  | connect address blocking => simp [isReady, request?] at hready
  | publish writes blocking =>
    cases blocking with
    | true => exact .retire ⟨rfl, rfl⟩
    | false => exact .stay (fun _ => rfl) ⟨rfl, rfl⟩
  | tryLock => simp [isReady, request?] at hready
  | standBy =>
    by_cases h : e.status.canBecome .standby = true
    · simpa [step, h, Turn.go, role] using .ready ⟨rfl, rfl⟩
    · simpa [step, h, Turn.go, role] using .retire ⟨rfl, rfl⟩
  | spawnWaiter => exact .spawn rfl
  | keepWaiter => exact .keep rfl rfl
  | leaveEarly => exact .outside rfl ⟨rfl, rfl⟩
  | await => exact .outside rfl ⟨rfl, rfl⟩
  | checkShutdown =>
    by_cases h : e.shutdown = true
    · simpa [step, h, Turn.go, role] using .outside rfl ⟨rfl, rfl⟩
    · simpa [step, h, Turn.go, role] using .outside rfl ⟨rfl, rfl⟩
  | unlockStopped => simp [isReady, request?] at hready
  | promote blocking p =>
    obtain ⟨s, g, c, h⟩ := p.step_elector .immediate e
    have hsame : SameWaiter e (p.step .immediate e).elector := by
      rw [h]
      exact ⟨rfl, rfl⟩
    exact promote_tending hsame
  | unlockRefused blocking => simp [isReady, request?] at hready
  | readStatus blocking => cases blocking <;> exact .outside rfl ⟨rfl, rfl⟩
  | leave result => exact .outside rfl ⟨rfl, rfl⟩

theorem StartPoint.reply_tending (e : Elector) (r : Reply) (p : StartPoint) (q : Request)
    (hq : p.request? e = some q) :
    Tending e (p.reply e r).elector p.role
      ((p.reply e r).next.elim StartPoint.role fun _ => .aside) := by
  cases p with
  | connect address blocking =>
    cases r with
    | ok granted => exact .stay (fun _ => rfl) ⟨rfl, rfl⟩
    | error err => exact .retire ⟨rfl, rfl⟩
  | publish writes blocking =>
    cases writes with
    | nil => simp [request?] at hq
    | cons write writes => cases r <;> exact .stay (fun _ => rfl) ⟨rfl, rfl⟩
  | tryLock =>
    cases r with
    | ok granted => cases granted <;> exact .stay (fun _ => rfl) ⟨rfl, rfl⟩
    | error err => exact .retire ⟨rfl, rfl⟩
  | await => cases r <;> exact .outside rfl ⟨rfl, rfl⟩
  | unlockStopped => cases r <;> exact .outside rfl ⟨rfl, rfl⟩
  | unlockRefused blocking => cases r <;> exact .outside rfl ⟨rfl, rfl⟩
  | promote blocking p =>
    have hsame : SameWaiter e (p.reply e r).elector := by
      rw [p.reply_elector]
      exact ⟨rfl, rfl⟩
    exact promote_tending hsame
  | _ => simp [request?] at hq

theorem StopPoint.step_tending (e : Elector) (me : CallId) (p : StopPoint)
    (hready : p.isReady e me = true) :
    Tending e (p.step e me).elector p.role
      ((p.step e me).next.elim StopPoint.role fun _ => .aside) := by
  cases p with
  | request => exact .outside rfl ⟨rfl, rfl⟩
  | arrive =>
    by_cases h : (e.init.arrive me).isInside me = true
    · simpa [step, h, Turn.go, role] using .come ⟨rfl, rfl⟩
    · simpa [step, h, Turn.go, role] using .outside rfl ⟨rfl, rfl⟩
  | queue => exact .come ⟨rfl, rfl⟩
  | takeWaiter =>
    cases h : e.waiterKept with
    | true => simpa [step, h, Turn.go, role] using .take h rfl
    | false => simpa [step, h, Turn.go, role] using .skip h rfl (by simp [h])
  | join =>
    refine .join ?_ rfl
    intro hactive
    simp [isReady, hactive] at hready
  | halt => exact .halt ⟨rfl, rfl⟩
  | closeGate before => cases before <;> exact .outside rfl ⟨rfl, rfl⟩
  | unlock => simp [isReady] at hready
  | leave result => exact .outside rfl ⟨rfl, rfl⟩

theorem StopPoint.reply_tending (e : Elector) (r : Reply) (p : StopPoint) (q : Request)
    (hq : p.request? = some q) :
    Tending e (p.reply e r).elector p.role
      ((p.reply e r).next.elim StopPoint.role fun _ => .aside) := by
  cases p with
  | unlock => cases r <;> exact .outside rfl ⟨rfl, rfl⟩
  | _ => simp [request?] at hq

theorem WaiterPoint.settlePromotion_tending {e : Elector} {t : Turn PromotionPoint Promotion}
    (same : SameWaiter e t.elector) :
    Tending e (settlePromotion t).elector .waiting
      ((settlePromotion t).next.elim (fun _ => .waiting) fun _ => .aside) := by
  rcases settlePromotion_elector_next t with ⟨q, hn, ht⟩ | ⟨hn, ht⟩ | ⟨hn, ht⟩
  · rw [ht]
    exact .outside rfl same
  · rw [ht]
    exact .outside rfl same
  · rw [ht]
    exact .finish (by rintro ⟨⟩)

theorem WaiterPoint.step_tending (e : Elector) (p : WaiterPoint) (hready : p.isReady e = true) :
    Tending e (p.step e).elector .waiting
      ((p.step e).next.elim (fun _ => .waiting) fun _ => .aside) := by
  cases p with
  | await => exact .finish (by rintro ⟨⟩)
  | checkShutdown =>
    by_cases h : e.shutdown = true
    · simpa [step, h, Turn.go] using .outside rfl ⟨rfl, rfl⟩
    · simpa [step, h, Turn.go] using .outside rfl ⟨rfl, rfl⟩
  | promote p =>
    obtain ⟨s, g, c, he⟩ := p.step_elector .deferred e
    refine settlePromotion_tending ?_
    rw [he]
    exact ⟨rfl, rfl⟩
  | unlockStopped => simp [isReady, request?] at hready
  | unlockRefused => simp [isReady, request?] at hready

theorem WaiterPoint.reply_tending (e : Elector) (r : Reply) (p : WaiterPoint) (q : Request)
    (hq : p.request? e = some q) :
    Tending e (p.reply e r).elector .waiting
      ((p.reply e r).next.elim (fun _ => .waiting) fun _ => .aside) := by
  cases p with
  | await =>
    cases r with
    | ok granted => exact .outside rfl ⟨rfl, rfl⟩
    | error err => exact .finish (by rintro ⟨⟩)
  | unlockStopped => cases r <;> exact .finish (by rintro ⟨⟩)
  | promote p =>
    refine settlePromotion_tending ?_
    rw [p.reply_elector]
    exact ⟨rfl, rfl⟩
  | unlockRefused => cases r <;> exact .finish (by rintro ⟨⟩)
  | checkShutdown => simp [request?] at hq

namespace Activity

variable {e : Elector} {me : CallId} {a : Activity} {q : Request} {r : Reply}

theorem step_tending (hready : a.isReady e me = true) :
    Tending e (a.step e me).elector a.role (roleAfter (a.step e me).next) := by
  cases a with
  | start p =>
    rw [step, roleAfter, Turn.elim_within]
    exact p.step_tending e me hready
  | stop p =>
    rw [step, roleAfter, Turn.elim_within]
    exact p.step_tending e me hready
  | await p =>
    have haside : roleAfter ((await p).step e me).next = .aside :=
      Turn.elim_within_const (fun _ => rfl) fun _ => rfl
    have hsame : SameWaiter e (p.step e).elector := by
      rw [p.step_elector]
      exact ⟨rfl, rfl⟩
    rw [haside]
    exact .outside rfl hsame
  | notify p =>
    have haside : roleAfter ((notify p).step e me).next = .aside :=
      Turn.elim_within_const (fun _ => rfl) fun _ => rfl
    have hsame : SameWaiter e (p.step e).elector := by
      obtain ⟨c, h⟩ := p.step_elector e
      rw [h]
      exact ⟨rfl, rfl⟩
    rw [haside]
    exact .outside rfl hsame
  | waiter p =>
    rw [step, roleAfter, Turn.elim_within]
    exact p.step_tending e hready

theorem reply_tending (hq : a.request? e = some q) :
    Tending e (a.reply e r).elector a.role (roleAfter (a.reply e r).next) := by
  cases a with
  | start p =>
    rw [reply, roleAfter, Turn.elim_within]
    exact p.reply_tending e r q hq
  | stop p =>
    rw [reply, roleAfter, Turn.elim_within]
    exact p.reply_tending e r q hq
  | waiter p =>
    rw [reply, roleAfter, Turn.elim_within]
    exact p.reply_tending e r q hq
  | await p => simp [request?] at hq
  | notify p => simp [request?] at hq

theorem isInside_of_role (h : a.role.isInside = true) : a.isInside = true := by
  cases a with
  | start p =>
    cases p with
    | promote blocking p =>
      cases blocking with
      | true => exact nomatch h
      | false => rfl
    | connect address blocking => rfl
    | publish writes blocking => rfl
    | tryLock => rfl
    | standBy => rfl
    | spawnWaiter => rfl
    | keepWaiter => rfl
    | _ => exact nomatch h
  | stop p =>
    cases p with
    | takeWaiter => rfl
    | join => rfl
    | halt => rfl
    | _ => exact nomatch h
  | _ => exact nomatch h

end Activity

/-! ## When the elector stops -/

theorem PromotionPoint.step_status (route : Route) (e : Elector) (p : PromotionPoint) :
    (p.step route e).elector.status = e.status ∨ (p.step route e).elector.status = .running := by
  cases p with
  | run =>
    simp only [step]
    split
    · exact .inr rfl
    · exact .inl rfl
  | checkShutdown =>
    simp only [step]
    split <;> exact .inl rfl
  | openGate =>
    simp only [step]
    split <;> exact .inl rfl
  | callBack =>
    simp only [step, Elector.fire]
    split <;> exact .inl rfl
  | putHost => exact .inl rfl
  | putPort => exact .inl rfl

namespace Activity

variable {e : Elector} {me : CallId} {a : Activity} {r : Reply}

/-- Only a stop makes an elector stopped. -/
theorem halting_of_step (hstopped : (a.step e me).elector.status = .stopped) :
    e.status = .stopped ∨ a.role = .halting := by
  have hpromotion : ∀ {s s' : State}, s = s' ∨ s = .running → s = .stopped → s' = .stopped := by
    rintro s s' (rfl | rfl) h
    · exact h
    · cases h
  cases a with
  | start p =>
    refine .inl ?_
    cases p with
    | check address blocking =>
      simp only [step, StartPoint.step] at hstopped
      split at hstopped <;> exact hstopped
    | standBy =>
      simp only [step, StartPoint.step] at hstopped
      split at hstopped
      · cases hstopped
      · exact hstopped
    | promote blocking p => exact hpromotion (p.step_status .immediate e) hstopped
    | readStatus blocking => cases blocking <;> exact hstopped
    | _ => exact hstopped
  | stop p =>
    cases p with
    | halt => exact .inr rfl
    | takeWaiter =>
      simp only [step, StopPoint.step] at hstopped
      split at hstopped <;> exact .inl hstopped
    | closeGate before => cases before <;> exact .inl hstopped
    | _ => exact .inl hstopped
  | await p =>
    rw [step, Turn.within_elector, p.step_elector] at hstopped
    exact .inl hstopped
  | notify p =>
    obtain ⟨c, he⟩ := p.step_elector e
    rw [step, Turn.within_elector, he] at hstopped
    exact .inl hstopped
  | waiter p =>
    refine .inl ?_
    cases p with
    | checkShutdown =>
      simp only [step, WaiterPoint.step] at hstopped
      split at hstopped <;> exact hstopped
    | promote p =>
      obtain ⟨w, hw⟩ := WaiterPoint.settlePromotion_elector (p.step .deferred e)
      refine hpromotion (p.step_status .deferred e) ?_
      have hstatus := congrArg Elector.status hw
      exact hstatus.symm.trans hstopped
    | _ => exact hstopped

theorem reply_status (a : Activity) (e : Elector) (r : Reply) :
    (a.reply e r).elector.status = e.status := by
  cases a with
  | start p =>
    obtain ⟨_, h⟩ := p.reply_elector e r
    rw [reply, Turn.within_elector, h]
  | stop p => rw [reply, Turn.within_elector, p.reply_elector]
  | waiter p =>
    obtain ⟨_, _, h⟩ := p.reply_elector e r
    rw [reply, Turn.within_elector, h]
  | _ => rfl

end Activity

/-! ## Shelter -/

namespace Tending

variable {e e' : Elector} {s s' : Role}

/-- Nothing but a start brings a waiter to life. -/
theorem active_before (h : Tending e e' s s') (hactive : e'.waiter = .active) :
    e.waiter = .active ∨ s = .spawning := by
  cases h with
  | stay apart same => exact .inl (same.1.symm.trans hactive)
  | begin alive same => exact .inl (same.1.symm.trans hactive)
  | retire same => exact .inl (same.1.symm.trans hactive)
  | ready same => exact .inl (same.1.symm.trans hactive)
  | spawn waiter => exact .inr rfl
  | keep kept waiter => exact .inl (waiter.symm.trans hactive)
  | come same => exact .inl (same.1.symm.trans hactive)
  | take kept waiter => exact .inl (waiter.symm.trans hactive)
  | skip unkept waiter => exact .inl (waiter.symm.trans hactive)
  | join inactive waiter => exact absurd (waiter.symm.trans hactive) inactive
  | halt same => exact .inl (same.1.symm.trans hactive)
  | finish inactive => exact absurd hactive inactive

/-- A waiter stays one until it ends. -/
theorem waiting_before (h : Tending e e' s .waiting) : s = .waiting ∧ e'.waiter = e.waiter := by
  cases h with
  | stay apart same => exact ⟨rfl, same.1⟩

/-- Nobody but the waiter itself ends it. -/
theorem active_after (h : Tending e e' s s') (hactive : e.waiter = .active) :
    e'.waiter = .active ∨ s = .waiting := by
  cases h with
  | stay apart same => exact .inl (same.1.trans hactive)
  | begin alive same => exact .inl (same.1.trans hactive)
  | retire same => exact .inl (same.1.trans hactive)
  | ready same => exact .inl (same.1.trans hactive)
  | spawn waiter => exact .inl waiter
  | keep kept waiter => exact .inl (waiter.trans hactive)
  | come same => exact .inl (same.1.trans hactive)
  | take kept waiter => exact .inl (waiter.trans hactive)
  | skip unkept waiter => exact .inl (waiter.trans hactive)
  | join inactive waiter => exact absurd hactive inactive
  | halt same => exact .inl (same.1.trans hactive)
  | finish inactive => exact .inr rfl

/-- A start begins while the elector is not stopped. -/
theorem starting_before (h : Tending e e' s s') (hs : s'.isStarting = true) :
    s.isStarting = true ∨ s = .aside ∧ e.status ≠ .stopped := by
  cases h with
  | stay apart same => exact .inl hs
  | begin alive same => exact .inr ⟨rfl, alive⟩
  | ready same => exact .inl rfl
  | spawn waiter => exact .inl rfl
  | _ => exact nomatch hs

/-- No start is past the turnstile of a stopped elector after a turn if none was before. -/
theorem alive_of_starting {ρ : CallId → Role} {id : CallId}
    (hstarting : ∀ id, (ρ id).isStarting = true → e.status ≠ .stopped)
    (hsole : ∀ id id', (ρ id).isInside = true → (ρ id').isInside = true → id = id')
    (ht : Tending e e' (ρ id) s')
    (hstopped : e'.status = .stopped → e.status = .stopped ∨ ρ id = .halting) :
    ∀ id', (Function.update ρ id s' id').isStarting = true → e'.status ≠ .stopped := by
  intro id' h' hs
  by_cases hne : id' = id
  · rw [hne, Function.update_self] at h'
    rcases ht.starting_before h' with hbefore | ⟨haside, halive⟩
    · rcases hstopped hs with hs | hhalting
      · exact hstarting id hbefore hs
      · rw [hhalting] at hbefore
        exact nomatch hbefore
    · rcases hstopped hs with hs | hhalting
      · exact halive hs
      · exact nomatch haside.symm.trans hhalting
  · rw [Function.update_of_ne hne] at h'
    rcases hstopped hs with hbefore | hhalting
    · exact hstarting id' h' hbefore
    · exact hne (hsole id' id (Role.isInside_of_isStarting h') (by rw [hhalting]; rfl))

end Tending

/-- Nobody stops the elector while its waiter, or a start past the turnstile, is at work; `ρ` gives
the role of each activity. -/
structure Sheltered (ρ : CallId → Role) (e : Elector) : Prop where
  waiting : ∀ id, ρ id = .waiting → e.waiter = .active
  alone : ∀ id id', ρ id = .waiting → ρ id' = .waiting → id = id'
  /-- Some stop will wait for the waiter, or waits for it. -/
  collected : e.waiter = .active →
    e.waiterKept = true ∨ ∃ id, ρ id = .keeping ∨ ρ id = .joining
  halting : ∀ id, ρ id = .halting → e.waiter ≠ .active
  stopped : e.status = .stopped → e.waiter ≠ .active
  starting : ∀ id, (ρ id).isStarting = true → e.status ≠ .stopped

namespace Sheltered

variable {ρ : CallId → Role} {e e' : Elector} {id : CallId} {s : Role}

/-- Some stop will still wait for the waiter after a turn. -/
theorem collected_turn (h : Sheltered ρ e) (ht : Tending e e' (ρ id) s)
    (hactive : e'.waiter = .active) : e'.waiterKept = true ∨
      ∃ id', Function.update ρ id s id' = .keeping ∨ Function.update ρ id s id' = .joining := by
  have hself : s = .keeping ∨ s = .joining →
      ∃ id', Function.update ρ id s id' = .keeping ∨ Function.update ρ id s id' = .joining :=
    fun hs => ⟨id, by rwa [Function.update_self]⟩
  -- whoever collects it goes on doing so, unless it is the one whose turn it is
  have hkept : e.waiter = .active → e'.waiterKept = e.waiterKept →
      ρ id ≠ .keeping → ρ id ≠ .joining → e'.waiterKept = true ∨
      ∃ id', Function.update ρ id s id' = .keeping ∨ Function.update ρ id s id' = .joining := by
    intro hbefore hsame hkeeping hjoining
    rcases h.collected hbefore with hk | ⟨id', hid'⟩
    · exact .inl (hsame.trans hk)
    · have hne : id' ≠ id := by
        rintro rfl
        exact hid'.elim hkeeping hjoining
      exact .inr ⟨id', by rwa [Function.update_of_ne hne]⟩
  generalize hρ : ρ id = s₀ at ht hkept
  cases ht with
  | stay apart same =>
    refine hkept (same.1.symm.trans hactive) same.2 ?_ ?_
    · rintro rfl
      exact nomatch apart rfl
    · rintro rfl
      exact nomatch apart rfl
  | begin alive same => exact hkept (same.1.symm.trans hactive) same.2 nofun nofun
  | retire same => exact hkept (same.1.symm.trans hactive) same.2 nofun nofun
  | ready same => exact hkept (same.1.symm.trans hactive) same.2 nofun nofun
  | spawn waiter => exact .inr (hself (.inl rfl))
  | keep kept waiter => exact .inl kept
  | come same => exact hkept (same.1.symm.trans hactive) same.2 nofun nofun
  | take kept waiter => exact .inr (hself (.inr rfl))
  | skip unkept waiter kept => exact hkept (waiter.symm.trans hactive) kept nofun nofun
  | join inactive waiter => exact absurd (waiter.symm.trans hactive) inactive
  | halt same => exact hkept (same.1.symm.trans hactive) same.2 nofun nofun
  | finish inactive => exact absurd hactive inactive

/-- Whoever is about to stop the elector has no waiter to fear. -/
theorem not_active_of_halting (h : Sheltered ρ e)
    (hsole : ∀ id id', (ρ id).isInside = true → (ρ id').isInside = true → id = id')
    (ht : Tending e e' (ρ id) .halting) : e'.waiter ≠ .active := by
  intro hactive
  generalize hρ : ρ id = s₀ at ht
  generalize hs : Role.halting = s at ht
  cases ht with
  | stay apart same =>
    subst hs
    exact nomatch apart rfl
  -- nobody has put a waiter where this stop looked, nor is anybody past the turnstile to do so
  | skip unkept waiter kept =>
    rcases h.collected (waiter.symm.trans hactive) with hk | ⟨id', hid'⟩
    · exact nomatch unkept.symm.trans hk
    · have hin : (ρ id').isInside = true := by
        rcases hid' with hid' | hid' <;> rw [hid'] <;> rfl
      obtain rfl := hsole id' id hin (by rw [hρ]; rfl)
      rw [hρ] at hid'
      exact hid'.elim nofun nofun
  | join inactive waiter => exact inactive (waiter.symm.trans hactive)
  | _ => exact nomatch hs

/-- A turn keeps the shelter. -/
theorem turn (h : Sheltered ρ e)
    (hsole : ∀ id id', (ρ id).isInside = true → (ρ id').isInside = true → id = id')
    (ht : Tending e e' (ρ id) s)
    (hstopped : e'.status = .stopped → e.status = .stopped ∨ ρ id = .halting) :
    Sheltered (Function.update ρ id s) e' where
  waiting id' h' := by
    -- a waiter begins apart from any turn, so it was one before
    by_cases hne : id' = id
    · rw [hne, Function.update_self] at h'
      obtain ⟨hbefore, hsame⟩ := (h' ▸ ht).waiting_before
      exact hsame.trans (h.waiting id hbefore)
    · rw [Function.update_of_ne hne] at h'
      rcases ht.active_after (h.waiting id' h') with hactive | hself
      · exact hactive
      · exact absurd (h.alone id' id h' hself) hne
  alone id₁ id₂ h₁ h₂ := by
    have hbefore : ∀ i, Function.update ρ id s i = .waiting → ρ i = .waiting := by
      intro i hi
      by_cases hne : i = id
      · rw [hne, Function.update_self] at hi
        rw [hne]
        exact (hi ▸ ht).waiting_before.1
      · rwa [Function.update_of_ne hne] at hi
    exact h.alone id₁ id₂ (hbefore id₁ h₁) (hbefore id₂ h₂)
  collected hactive := h.collected_turn ht hactive
  halting id' h' hactive := by
    by_cases hne : id' = id
    · rw [hne, Function.update_self] at h'
      exact h.not_active_of_halting hsole (h' ▸ ht) hactive
    · rw [Function.update_of_ne hne] at h'
      rcases ht.active_before hactive with hbefore | hspawning
      · exact h.halting id' h' hbefore
      · exact hne (hsole id' id (by rw [h']; rfl) (by rw [hspawning]; rfl))
  stopped hs hactive := by
    -- whoever stops the elector has seen the waiter end, and no start is in between
    rcases hstopped hs with hbefore | hhalting
    · rcases ht.active_before hactive with ha | hspawning
      · exact h.stopped hbefore ha
      · exact h.starting id (by rw [hspawning]; rfl) hbefore
    · rcases ht.active_before hactive with ha | hspawning
      · exact h.halting id hhalting ha
      · exact nomatch hhalting.symm.trans hspawning
  starting := Tending.alive_of_starting h.starting hsole ht hstopped

/-- A waiter comes to life where there was none. -/
theorem spawn (h : Sheltered ρ e) (hid : ρ id = .aside) (hnone : ∀ id', ρ id' ≠ .waiting)
    (hactive : e.waiter = .active) : Sheltered (Function.update ρ id .waiting) e := by
  have hself : ∀ id', Function.update ρ id .waiting id' = .waiting → id' = id := by
    intro id' h'
    by_contra hne
    rw [Function.update_of_ne hne] at h'
    exact hnone id' h'
  have hother : ∀ id' s, s ≠ .waiting → Function.update ρ id .waiting id' = s → ρ id' = s := by
    intro id' s hs h'
    by_cases hne : id' = id
    · rw [hne, Function.update_self] at h'
      exact absurd h'.symm hs
    · rwa [Function.update_of_ne hne] at h'
  refine ⟨fun _ _ => hactive, ?_, ?_, ?_, h.stopped, ?_⟩
  · intro id₁ id₂ h₁ h₂
    rw [hself id₁ h₁, hself id₂ h₂]
  · intro ha
    rcases h.collected ha with hk | ⟨id', hid'⟩
    · exact .inl hk
    · have hne : id' ≠ id := by
        rintro rfl
        rw [hid] at hid'
        exact hid'.elim nofun nofun
      exact .inr ⟨id', by rwa [Function.update_of_ne hne]⟩
  · exact fun id' h' => h.halting id' (hother id' _ nofun h')
  · intro id' h'
    refine h.starting id' ?_
    by_cases hne : id' = id
    · rw [hne, Function.update_self] at h'
      exact nomatch h'
    · rwa [Function.update_of_ne hne] at h'

end Sheltered

/-! ## The shelter of a node -/

def Course.role : Course → Role
  | going a _ => a.role
  | _ => .aside

namespace Node

def role (n : Node) (id : CallId) : Role := (n.course id).elim .aside Course.role

variable {n n' : Node} {id : CallId} {a : Activity} {asked : Bool}

theorem role_of_going (h : n.course id = some (.going a asked)) : n.role id = a.role := by
  simp [role, h, Course.role]

theorem role_setCourse (n : Node) (id : CallId) (c : Course) :
    (n.setCourse id c).role = Function.update n.role id c.role := by
  funext id'
  by_cases h : id' = id <;> simp [role, setCourse, h]

theorem role_carryOut (n : Node) (id : CallId) (t : Turn Activity Ending) :
    (n.carryOut id t).role = Function.update n.role id (roleAfter t.next) := by
  have h := role_setCourse n id (t.next.elim (.going · false) .ended)
  have hrole : Course.role (t.next.elim (.going · false) .ended) = roleAfter t.next := by
    cases t.next <;> rfl
  rwa [hrole] at h

/-- One activity at a time is past the turnstile. -/
theorem Custody.sole_inside (hn : n.Custody) {id' : CallId} (hid : (n.role id).isInside = true)
    (hid' : (n.role id').isInside = true) : id = id' := by
  have hholder : ∀ i, (n.role i).isInside = true → n.elector.init.holder = some i := by
    intro i hi
    rw [role] at hi
    cases hc : n.course i with
    | none =>
      rw [hc] at hi
      exact nomatch hi
    | some c =>
      rw [hc] at hi
      cases c with
      | going a asked => exact hn.inside i a asked hc (Activity.isInside_of_role hi)
      | ended r => exact nomatch hi
      | brokenOff => exact nomatch hi
  exact Option.some.inj ((hholder id hid).symm.trans (hholder id' hid'))

theorem sheltered_fresh {e : Elector} (h : e.waiter ≠ .active) :
    Sheltered (fresh e).role (fresh e).elector where
  waiting _ h := nomatch h
  alone _ _ h := nomatch h
  collected ha := absurd ha h
  halting _ h := nomatch h
  stopped _ := h
  starting _ h := nomatch h

/-- Every move but breaking off keeps the shelter. -/
theorem Makes.sheltered {m : Move} (h : n.Makes m n') (hm : m.isBreakOff = false) (hc : n.Custody)
    (hn : Sheltered n.role n.elector) : Sheltered n'.role n'.elector := by
  have hsole : ∀ id id', (n.role id).isInside = true → (n.role id').isInside = true → id = id' :=
    fun _ _ => hc.sole_inside
  cases h with
  | @call id c new =>
    have hsame : (n.setCourse id (.going c.activity false)).role = n.role := by
      have haside : Course.role (.going c.activity false) = n.role id := by
        rw [role, new]
        cases c <;> rfl
      rw [role_setCourse, haside, Function.update_eq_self]
    rw [hsame]
    exact hn
  | @step id w a asked here ready new =>
    have ht := Activity.step_tending ready
    rw [← role_of_going here] at ht
    have hturn : Sheltered (n.carryOut id (a.step n.elector id)).role
        (a.step n.elector id).elector := by
      rw [role_carryOut]
      refine hn.turn hsole ht fun hs => ?_
      rw [role_of_going here]
      exact Activity.halting_of_step hs
    rw [spawn_elector, spawn]
    split
    · next hw =>
      have hne : w ≠ id := by
        rintro rfl
        cases new.symm.trans here
      rw [role_setCourse]
      refine hturn.spawn ?_ ?_ hw.2
      · simp [role, carryOut, setCourse, hne, new]
      · intro id' hid'
        rw [role_carryOut] at hid'
        have hbefore : n.elector.waiter = .active := by
          by_cases hid : id' = id
          · rw [hid, Function.update_self] at hid'
            exact hn.waiting id (hid' ▸ ht).waiting_before.1
          · rw [Function.update_of_ne hid] at hid'
            exact hn.waiting id' hid'
        cases hw.1.symm.trans hbefore
    · exact hturn
  | @ask id a q here request =>
    have hsame : (n.setCourse id (.going a true)).role = n.role := by
      have hrole : Course.role (.going a true) = n.role id := (role_of_going here).symm
      rw [role_setCourse, hrole, Function.update_eq_self]
    have hrole : { n.setCourse id (.going a true) with requests := n.requests ++ [q] : Node }.role =
        n.role := hsame
    rw [hrole]
    exact hn
  | @answer id r a q here request =>
    have ht := Activity.reply_tending (r := r) request
    rw [← role_of_going here] at ht
    have hrole : { n.carryOut id (a.reply n.elector r) with
        grants := n.grants + if q.isGranted r then 1 else 0 : Node }.role =
        Function.update n.role id (roleAfter (a.reply n.elector r).next) :=
      role_carryOut n id _
    rw [hrole]
    refine hn.turn hsole ht fun hs => .inl ?_
    exact (a.reply_status n.elector r).symm.trans hs
  | breakOff here may => cases hm
  | discard => exact ⟨hn.waiting, hn.alone, hn.collected, hn.halting, hn.stopped, hn.starting⟩

end Node

/-! ## Promotions -/

namespace Passage

variable {e e' : Elector} {answered granted : Bool} {s s' : Stage}

theorem promoting_before (h : Passage e e' answered granted s .promoting) :
    s = .promoting ∨ answered = false ∧ e'.status = .running := by
  generalize hs : Stage.promoting = s' at h
  cases h with
  | stay free status started => exact .inl rfl
  | run before status started => exact .inr ⟨rfl, status⟩
  | halt status started => split at hs <;> exact nomatch hs
  | _ => exact nomatch hs

/-- A promotion begins where the elector may run. -/
theorem promoting_from (h : Passage e e' answered granted s .promoting) :
    s = .promoting ∨ e.status.canBecome .running = true := by
  generalize hs : Stage.promoting = s' at h
  cases h with
  | stay free status started => exact .inl rfl
  | run before status started => exact .inr before
  | halt status started => split at hs <;> exact nomatch hs
  | _ => exact nomatch hs

/-- An elector that runs goes on running until it is stopped. -/
theorem running_or_stopped (h : Passage e e' answered granted s s')
    (hs : e.status = .running ∨ e.status = .stopped) :
    e'.status = .running ∨ e'.status = .stopped := by
  cases h with
  | standBy before status started =>
    rw [before] at hs
    exact hs.elim nofun nofun
  | run before status started => exact .inl status
  | halt status started => exact .inr status
  | stay free status started => rwa [status]
  | retire free status started => rwa [status]
  | link unstarted status started => rwa [status]
  | connect status started => rwa [status]
  | grant status started => rwa [status]

end Passage

namespace Node

variable {n n' : Node} {id : CallId} {a : Activity} {asked : Bool}

/-- Whoever promotes made the elector run, and only a stop has ended that. -/
def Promotes (n : Node) : Prop :=
  ∀ id a asked, n.course id = some (.going a asked) → a.stage = .promoting →
    n.elector.status = .running ∨ n.elector.status = .stopped

theorem Promotes.carryOut (hn : n.Promotes) {t : Turn Activity Ending} {answered granted : Bool}
    (here : n.course id = some (.going a asked)) (hcourse : n'.course = (n.carryOut id t).course)
    (helector : n'.elector = t.elector)
    (hp : Passage n.elector t.elector answered granted a.stage (stageAfter t.next)) :
    n'.Promotes := by
  intro id' a' asked' h hstage
  rw [hcourse] at h
  rw [helector]
  rcases going_carryOut h with ⟨-, hnext, -⟩ | ⟨-, h⟩
  · have hafter : stageAfter t.next = .promoting := by
      rw [hnext]
      exact hstage
    rw [hafter] at hp
    rcases hp.promoting_before with hbefore | ⟨-, hrunning⟩
    · exact hp.running_or_stopped (hn id a asked here hbefore)
    · exact .inl hrunning
  · exact hp.running_or_stopped (hn id' a' asked' h hstage)

theorem Makes.promotes {m : Move} (h : n.Makes m n') (hn : n.Promotes) : n'.Promotes := by
  cases h with
  | @call id c new =>
    intro id' a' asked' h hstage
    rcases course_setCourse h with ⟨-, hc⟩ | ⟨-, h⟩
    · cases hc
      cases c <;> exact nomatch hstage
    · exact hn id' a' asked' h hstage
  | @step id w a asked here ready new =>
    have hturn : (n.carryOut id (a.step n.elector id)).Promotes :=
      hn.carryOut here rfl rfl (Activity.step_passage ready)
    intro id' a' asked' h hstage
    rw [spawn_elector]
    rcases course_spawn h with ⟨-, -, -, hc⟩ | h
    · cases hc
      exact nomatch hstage
    · exact hturn id' a' asked' h hstage
  | @ask id a q here request =>
    intro id' a' asked' h hstage
    rcases course_setCourse h with ⟨-, hc⟩ | ⟨-, h⟩
    · cases hc
      exact hn id a false here hstage
    · exact hn id' a' asked' h hstage
  | answer here request => exact hn.carryOut here rfl rfl (Activity.reply_passage request)
  | @breakOff id a asked here may =>
    intro id' a' asked' h hstage
    rcases course_setCourse h with ⟨-, hc⟩ | ⟨-, h⟩
    · exact nomatch hc
    · have hstatus := (a.abandon_status_started n.elector id).1
      show (a.abandon n.elector id).status = .running ∨ (a.abandon n.elector id).status = .stopped
      rw [hstatus]
      exact hn id' a' asked' h hstage
  | discard => exact hn

/-- Under shelter the elector runs through its promotion, unless a start that blocks promotes it. -/
theorem Promotes.running (hn : n.Promotes) (hs : Sheltered n.role n.elector)
    (here : n.course id = some (.going a asked)) (hstage : a.stage = .promoting)
    (hroute : ∀ p, a ≠ .start (.promote true p)) : n.elector.status = .running := by
  have halive : n.elector.status ≠ .stopped := by
    have hrole := role_of_going here
    cases a with
    | start p =>
      cases p with
      | promote blocking p =>
        cases blocking with
        | true => exact absurd rfl (hroute p)
        | false => exact hs.starting id (by rw [hrole]; rfl)
      | _ => exact nomatch hstage
    | waiter p => exact fun h => hs.stopped h (hs.waiting id hrole)
    | stop p =>
      cases p with
      | closeGate before => cases before <;> exact nomatch hstage
      | _ => exact nomatch hstage
    | await p => exact nomatch hstage
    | notify p => exact nomatch hstage
  exact (hn id a asked here hstage).resolve_right halive

end Node

end Primacy.Election
