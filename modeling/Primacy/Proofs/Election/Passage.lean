/-
  Primacy.Proofs.Election.Passage

  What one turn of an activity can do, said once for all activities.  An activity is classified by
  its *stage* on the way to the lock and back; `Passage` lists the moves between stages, each with
  what it does to the elector.  The custody of the lock is derived from passages alone, never from
  the points of an activity.
-/
import Mathlib.Data.Sum.Basic
import Primacy.Election.Activity

namespace Primacy.Election

/-! ## Stages -/

/-- How an activity stands to the lock. -/
inductive Stage where
  /-- It has nothing to do with the lock, or nothing any more. -/
  | idle
  /-- It connects to the lock service. -/
  | linking
  /-- It is on its way to ask for the lock, or waits for it. -/
  | waiting
  /-- It was granted the lock, which the elector does not show yet. -/
  | holding
  /-- It made the elector run, and is busy with the rest of the promotion. -/
  | promoting
  /-- It stopped an elector that ran, and has to release the lock. -/
  | releasing
  deriving DecidableEq

namespace Stage

/-- The activity has to give the lock back, unless it makes the elector run. -/
def inHand : Stage → Bool
  | holding => true
  | releasing => true
  | _ => false

/-- The activity competes for the lock, or has it and has yet to show it. -/
def competes : Stage → Bool
  | waiting => true
  | holding => true
  | _ => false

end Stage

def PromotionPoint.stage : PromotionPoint → Stage
  | run => .holding
  | _ => .promoting

/-- What the end of a promotion leaves to do. -/
def Promotion.stage : Promotion → Stage
  | refused => .holding
  | _ => .idle

def StartPoint.stage : StartPoint → Stage
  | connect .. => .linking
  | publish .. => .waiting
  | tryLock => .waiting
  | standBy => .waiting
  | spawnWaiter => .waiting
  | leaveEarly => .waiting
  | await => .waiting
  | checkShutdown => .holding
  | unlockStopped => .holding
  | promote _ p => p.stage
  | unlockRefused _ => .holding
  | _ => .idle

def StopPoint.stage : StopPoint → Stage
  | closeGate .running => .releasing
  | unlock => .releasing
  | _ => .idle

def WaiterPoint.stage : WaiterPoint → Stage
  | await => .waiting
  | promote p => p.stage
  | _ => .holding

namespace Activity

def stage : Activity → Stage
  | start p => p.stage
  | stop p => p.stage
  | waiter p => p.stage
  | _ => .idle

end Activity

/-- The stage that a turn leads to. -/
def stageAfter : Activity ⊕ Ending → Stage := Sum.elim Activity.stage fun _ => .idle

/-- The answer to this request grants the lock. -/
def Request.isGranted : Request → Reply → Bool
  | tryLock, .ok granted => granted
  | lock, .ok _ => true
  | _, _ => false

/-! ## What turns leave alone -/

/-- What an elector is given when it is made: who it is, the name under which it competes, and where
it is reached. -/
def Elector.card (e : Elector) : Identity × String × Nat × Option String :=
  (e.identity, e.owner, e.port, e.nodeDir)

theorem PromotionPoint.step_elector (route : Route) (e : Elector) (p : PromotionPoint) :
    ∃ s g c, (p.step route e).elector = { e with status := s, gate := g, callback := c } := by
  cases p with
  | run =>
    by_cases h : e.status.canBecome .running = true
    · exact ⟨.running, e.gate, e.callback, by simp [step, h, Turn.go]⟩
    · exact ⟨e.status, e.gate, e.callback, by simp [step, h, Turn.finish]⟩
  | checkShutdown =>
    refine ⟨e.status, e.gate, e.callback, ?_⟩
    simp only [step]
    split <;> rfl
  | openGate =>
    cases h : e.gate.release with
    | mk opened gate =>
      cases opened with
      | true => exact ⟨e.status, gate, e.callback, by simp [step, h, Turn.go]⟩
      | false => exact ⟨e.status, e.gate, e.callback, by simp [step, h, Turn.finish]⟩
  | callBack =>
    refine ⟨e.status, e.gate, none, ?_⟩
    cases h : e.callback <;> simp [step, Elector.fire, h, Turn.finish]
    rw [← h]
  | putHost => exact ⟨e.status, e.gate, e.callback, rfl⟩
  | putPort => exact ⟨e.status, e.gate, e.callback, rfl⟩

theorem PromotionPoint.reply_elector (e : Elector) (r : Reply) (p : PromotionPoint) :
    (p.reply e r).elector = e := by
  cases p <;> cases r <;> rfl

theorem AwaitPoint.step_elector (e : Elector) (p : AwaitPoint) : (p.step e).elector = e := by
  cases p with
  | check => cases hs : e.status <;> simp [step, hs, Turn.go, Turn.finish]
  | gate => rfl
  | readStatus => rfl

theorem NotifyPoint.step_elector (e : Elector) (p : NotifyPoint) :
    ∃ c, (p.step e).elector = { e with callback := c } := by
  cases p with
  | register callback => exact ⟨some callback, rfl⟩
  | readGate =>
    refine ⟨e.callback, ?_⟩
    simp only [step]
    split <;> rfl
  | callBack =>
    refine ⟨none, ?_⟩
    cases h : e.callback <;> simp [step, Elector.fire, h, Turn.finish]
    rw [← h]

theorem StartPoint.step_elector (e : Elector) (me : CallId) (p : StartPoint) :
    ∃ s g c t w k, (p.step e me).elector =
      { e with
        status := s, gate := g, callback := c, init := t, waiter := w, waiterKept := k } := by
  cases p with
  | check address blocking =>
    simp only [step]
    split <;> exact ⟨_, _, _, _, _, _, rfl⟩
  | standBy =>
    simp only [step]
    split <;> exact ⟨_, _, _, _, _, _, rfl⟩
  | promote blocking p =>
    obtain ⟨s, g, c, h⟩ := p.step_elector .immediate e
    exact ⟨s, g, c, e.init, e.waiter, e.waiterKept, h⟩
  | readStatus blocking => cases blocking <;> exact ⟨_, _, _, _, _, _, rfl⟩
  | _ => exact ⟨_, _, _, _, _, _, rfl⟩

theorem StartPoint.reply_elector (e : Elector) (r : Reply) (p : StartPoint) :
    ∃ b, (p.reply e r).elector = { e with started := b } := by
  cases p with
  | publish writes blocking => cases writes <;> cases r <;> exact ⟨_, rfl⟩
  | tryLock =>
    cases r with
    | ok granted => cases granted <;> exact ⟨_, rfl⟩
    | error err => exact ⟨_, rfl⟩
  | promote blocking p => exact ⟨e.started, p.reply_elector e r⟩
  | _ => cases r <;> exact ⟨_, rfl⟩

theorem StopPoint.step_elector (e : Elector) (me : CallId) (p : StopPoint) :
    ∃ s g t d k, (p.step e me).elector =
      { e with status := s, gate := g, init := t, shutdown := d, waiterKept := k } := by
  cases p with
  | takeWaiter =>
    simp only [step]
    split <;> exact ⟨_, _, _, _, _, rfl⟩
  | closeGate before => cases before <;> exact ⟨_, _, _, _, _, rfl⟩
  | _ => exact ⟨_, _, _, _, _, rfl⟩

theorem StopPoint.reply_elector (e : Elector) (r : Reply) (p : StopPoint) :
    (p.reply e r).elector = e := by
  cases p <;> cases r <;> rfl

theorem WaiterPoint.settlePromotion_elector_next (t : Turn PromotionPoint Promotion) :
    (∃ p, t.next = .inl p ∧ settlePromotion t = .go t.elector (promote p) t.events) ∨
    (t.next = .inr .refused ∧ settlePromotion t = .go t.elector unlockRefused t.events) ∨
    ((t.next = .inr .promoted ∨ t.next = .inr .superseded) ∧
      settlePromotion t = conclude t.elector false t.events) := by
  unfold settlePromotion
  cases t.next with
  | inl p => simp
  | inr r => cases r <;> simp

theorem WaiterPoint.settlePromotion_elector (t : Turn PromotionPoint Promotion) :
    ∃ w, (settlePromotion t).elector = { t.elector with waiter := w } := by
  rcases settlePromotion_elector_next t with ⟨_, _, ht⟩ | ⟨_, ht⟩ | ⟨_, ht⟩ <;> rw [ht] <;>
    exact ⟨_, rfl⟩

theorem WaiterPoint.step_elector (e : Elector) (p : WaiterPoint) :
    ∃ s g c w, (p.step e).elector =
      { e with status := s, gate := g, callback := c, waiter := w } := by
  cases p with
  | checkShutdown =>
    simp only [step]
    split <;> exact ⟨_, _, _, _, rfl⟩
  | promote p =>
    obtain ⟨s, g, c, h⟩ := p.step_elector .deferred e
    obtain ⟨w, hw⟩ := settlePromotion_elector (p.step .deferred e)
    exact ⟨s, g, c, w, hw.trans (by rw [h])⟩
  | _ => exact ⟨_, _, _, _, rfl⟩

theorem WaiterPoint.reply_elector (e : Elector) (r : Reply) (p : WaiterPoint) :
    ∃ w f, (p.reply e r).elector = { e with waiter := w, waiterFailure := f } := by
  cases p with
  | promote p =>
    obtain ⟨w, hw⟩ := settlePromotion_elector (p.reply e r)
    exact ⟨w, e.waiterFailure, hw.trans (by rw [p.reply_elector])⟩
  | _ => cases r <;> exact ⟨_, _, rfl⟩

namespace Activity

/-- No step changes what an elector was given. -/
theorem step_card (a : Activity) (e : Elector) (me : CallId) :
    (a.step e me).elector.card = e.card := by
  cases a with
  | start p =>
    obtain ⟨_, _, _, _, _, _, h⟩ := p.step_elector e me
    rw [step, Turn.within_elector, h, Elector.card, Elector.card]
  | stop p =>
    obtain ⟨_, _, _, _, _, h⟩ := p.step_elector e me
    rw [step, Turn.within_elector, h, Elector.card, Elector.card]
  | await p => rw [step, Turn.within_elector, p.step_elector]
  | notify p =>
    obtain ⟨_, h⟩ := p.step_elector e
    rw [step, Turn.within_elector, h, Elector.card, Elector.card]
  | waiter p =>
    obtain ⟨_, _, _, _, h⟩ := p.step_elector e
    rw [step, Turn.within_elector, h, Elector.card, Elector.card]

theorem reply_card (a : Activity) (e : Elector) (r : Reply) :
    (a.reply e r).elector.card = e.card := by
  cases a with
  | start p =>
    obtain ⟨_, h⟩ := p.reply_elector e r
    rw [reply, Turn.within_elector, h, Elector.card, Elector.card]
  | stop p => rw [reply, Turn.within_elector, p.reply_elector]
  | waiter p =>
    obtain ⟨_, _, h⟩ := p.reply_elector e r
    rw [reply, Turn.within_elector, h, Elector.card, Elector.card]
  | _ => rfl

/-- No answer brings a waiter to life. -/
theorem reply_waiter {a : Activity} {e : Elector} {r : Reply}
    (h : (a.reply e r).elector.waiter = .active) : e.waiter = .active := by
  cases a with
  | start p =>
    obtain ⟨_, hp⟩ := p.reply_elector e r
    rw [reply, Turn.within_elector, hp] at h
    exact h
  | stop p =>
    rw [reply, Turn.within_elector, p.reply_elector] at h
    exact h
  | waiter p =>
    rw [reply, Turn.within_elector] at h
    cases p with
    | promote p =>
      have hp : (p.reply e r).elector.waiter = e.waiter := by rw [p.reply_elector]
      rcases WaiterPoint.settlePromotion_elector_next (p.reply e r) with
        ⟨_, _, ht⟩ | ⟨_, ht⟩ | ⟨_, ht⟩
      · exact hp.symm.trans ((congrArg (·.elector.waiter) ht).symm.trans h)
      · exact hp.symm.trans ((congrArg (·.elector.waiter) ht).symm.trans h)
      · cases (congrArg (·.elector.waiter) ht).symm.trans h
    | checkShutdown => exact h
    | _ =>
      cases r with
      | ok granted => first | exact h | cases h
      | error err => cases h
  | _ => exact h

theorem abandon_elector (a : Activity) (e : Elector) (me : CallId) :
    ∃ t w, a.abandon e me = { e with init := t, waiter := w } := by
  cases a with
  | start p =>
    by_cases h : p.isInside = true <;> cases p <;>
      simp only [abandon, StartPoint.abandon, h] <;> exact ⟨_, _, rfl⟩
  | stop p =>
    by_cases h : p.isInside = true <;> cases p <;>
      simp only [abandon, StopPoint.abandon, h] <;> exact ⟨_, _, rfl⟩
  | _ => exact ⟨_, _, rfl⟩

end Activity

/-! ## Passages -/

/-- A turn moves an activity from one stage to another and changes the elector from `e` to `e'`.
`answered` says that it goes on with the answer to a request, `granted` that the answer grants
the lock. -/
inductive Passage (e e' : Elector) : (answered granted : Bool) → Stage → Stage → Prop where
  | stay {answered : Bool} {s : Stage} (free : s.inHand = true → answered = false)
      (status : e'.status = e.status) (started : e'.started = e.started) :
      Passage e e' answered false s s
  /-- What is in hand is given back by an answered request. -/
  | retire {answered : Bool} {s : Stage} (free : s.inHand = true → answered = true)
      (status : e'.status = e.status) (started : e'.started = e.started) :
      Passage e e' answered false s .idle
  | link (unstarted : e.started = false)
      (status : e'.status = e.status) (started : e'.started = e.started) :
      Passage e e' false false .idle .linking
  | connect (status : e'.status = e.status) (started : e'.started = true) :
      Passage e e' true false .linking .waiting
  | standBy (before : e.status = .uninitialized) (status : e'.status = .standby)
      (started : e'.started = e.started) : Passage e e' false false .waiting .waiting
  | grant (status : e'.status = e.status) (started : e'.started = e.started) :
      Passage e e' true true .waiting .holding
  | run (before : e.status.canBecome .running = true) (status : e'.status = .running)
      (started : e'.started = e.started) : Passage e e' false false .holding .promoting
  | halt (status : e'.status = .stopped) (started : e'.started = e.started) :
      Passage e e' false false .idle (if e.status = .running then .releasing else .idle)

/-- Of the elector a passage reads only the status and whether it was started. -/
theorem Passage.congr {e e' e'' : Elector} {answered granted : Bool} {s s' : Stage}
    (h : Passage e e' answered granted s s') (hstatus : e''.status = e'.status)
    (hstarted : e''.started = e'.started) : Passage e e'' answered granted s s' := by
  cases h with
  | stay free status started => exact .stay free (hstatus.trans status) (hstarted.trans started)
  | retire free status started =>
    exact .retire free (hstatus.trans status) (hstarted.trans started)
  | link unstarted status started =>
    exact .link unstarted (hstatus.trans status) (hstarted.trans started)
  | connect status started => exact .connect (hstatus.trans status) (hstarted.trans started)
  | standBy before status started =>
    exact .standBy before (hstatus.trans status) (hstarted.trans started)
  | grant status started => exact .grant (hstatus.trans status) (hstarted.trans started)
  | run before status started => exact .run before (hstatus.trans status) (hstarted.trans started)
  | halt status started => exact .halt (hstatus.trans status) (hstarted.trans started)

theorem PromotionPoint.step_passage (route : Route) (e : Elector) (p : PromotionPoint) :
    Passage e (p.step route e).elector false false p.stage
      ((p.step route e).next.elim PromotionPoint.stage Promotion.stage) := by
  cases p with
  | run =>
    by_cases h : e.status.canBecome .running = true
    · simpa [step, h, Turn.go, stage] using .run h rfl rfl
    · simpa [step, h, Turn.finish, stage, Promotion.stage] using .stay (fun _ => rfl) rfl rfl
  | checkShutdown =>
    by_cases h : e.shutdown = true
    · simpa [step, h, Turn.finish, stage, Promotion.stage] using .retire nofun rfl rfl
    · simpa [step, h, Turn.go, stage] using .stay (fun _ => rfl) rfl rfl
  | openGate =>
    cases h : e.gate.release with
    | mk opened gate =>
      cases opened with
      | true => simpa [step, h, Turn.go, stage] using .stay (fun _ => rfl) rfl rfl
      | false => simpa [step, h, Turn.finish, stage, Promotion.stage] using .retire nofun rfl rfl
  | callBack =>
    cases h : e.callback <;>
      simpa [step, Elector.fire, h, Turn.finish, stage, Promotion.stage] using
        .retire nofun rfl rfl
  | putHost => simpa [step, Turn.go, stage] using .stay (fun _ => rfl) rfl rfl
  | putPort => simpa [step, Turn.go, stage] using .stay (fun _ => rfl) rfl rfl

theorem PromotionPoint.reply_passage (e : Elector) (r : Reply) (p : PromotionPoint) (q : Request)
    (hq : p.request? e = some q) :
    Passage e (p.reply e r).elector true (q.isGranted r) p.stage
      ((p.reply e r).next.elim PromotionPoint.stage Promotion.stage) := by
  cases p with
  | putHost =>
    obtain rfl : q = .put Registry.primaryHostKey e.identity.host := by
      simpa [request?, eq_comm] using hq
    cases r <;> exact .stay nofun rfl rfl
  | putPort =>
    obtain rfl : q = .put Registry.primaryPortKey (toString e.port) := by
      simpa [request?, eq_comm] using hq
    cases r <;> exact .stay nofun rfl rfl
  | _ => simp [request?] at hq

theorem StartPoint.stage_afterPromotion (blocking : Bool) (r : Promotion) :
    ((afterPromotion blocking r).elim stage fun _ => .idle) = r.stage := by
  cases r <;> cases blocking <;> rfl

theorem StartPoint.step_passage (e : Elector) (me : CallId) (p : StartPoint)
    (hready : p.isReady e me = true) :
    Passage e (p.step e me).elector false false p.stage
      ((p.step e me).next.elim StartPoint.stage fun _ => .idle) := by
  cases p with
  | arrive address blocking =>
    by_cases h : (e.init.arrive me).isInside me = true
    · simpa [step, h, Turn.go, stage] using .stay (fun _ => rfl) rfl rfl
    · simpa [step, h, Turn.go, stage] using .stay (fun _ => rfl) rfl rfl
  | queue address blocking => exact .stay (fun _ => rfl) rfl rfl
  | check address blocking =>
    -- only an elector that was never started gets connected
    by_cases h : (e.started || e.status != .uninitialized) = true
    · simpa [step, h, Turn.go, stage] using .stay (fun _ => rfl) rfl rfl
    · have hs : e.started = false := by simp_all
      simpa [step, h, Turn.go, stage] using .link hs rfl rfl
  | connect address blocking => simp [isReady, request?] at hready
  | publish writes blocking => cases blocking <;> exact .stay (fun _ => rfl) rfl rfl
  | tryLock => simp [isReady, request?] at hready
  | standBy =>
    -- refused unless nothing has happened to the elector, and then the start fails
    cases hs : e.status with
    | uninitialized => simpa [step, hs, State.canBecome, Turn.go, stage] using .standBy hs rfl rfl
    | standby =>
      simpa [step, hs, State.canBecome, Turn.go, stage] using .retire nofun rfl rfl
    | running =>
      simpa [step, hs, State.canBecome, Turn.go, stage] using .retire nofun rfl rfl
    | stopped =>
      simpa [step, hs, State.canBecome, Turn.go, stage] using .retire nofun rfl rfl
  -- from here on the waiter competes, and the start no longer does
  | spawnWaiter => exact .retire nofun rfl rfl
  | keepWaiter => exact .stay (fun _ => rfl) rfl rfl
  | leaveEarly => exact .stay (fun _ => rfl) rfl rfl
  | await => exact .retire nofun rfl rfl
  | checkShutdown =>
    by_cases h : e.shutdown = true
    · simpa [step, h, Turn.go, stage] using .stay (fun _ => rfl) rfl rfl
    · simpa [step, h, Turn.go, stage, PromotionPoint.stage] using .stay (fun _ => rfl) rfl rfl
  | unlockStopped => simp [isReady, request?] at hready
  | promote blocking p =>
    rw [step, Turn.elim_within]
    simp only [stage_afterPromotion]
    exact p.step_passage .immediate e
  | unlockRefused blocking => simp [isReady, request?] at hready
  | readStatus blocking => cases blocking <;> exact .stay (fun _ => rfl) rfl rfl
  | leave result => exact .stay (fun _ => rfl) rfl rfl

theorem StartPoint.reply_passage (e : Elector) (r : Reply) (p : StartPoint) (q : Request)
    (hq : p.request? e = some q) :
    Passage e (p.reply e r).elector true (q.isGranted r) p.stage
      ((p.reply e r).next.elim StartPoint.stage fun _ => .idle) := by
  cases p with
  | connect address blocking =>
    obtain rfl : q = .connect address := by simpa [request?, eq_comm] using hq
    cases r with
    | ok granted => exact .connect rfl rfl
    | error err => exact .retire nofun rfl rfl
  | publish writes blocking =>
    cases writes with
    | nil => simp [request?] at hq
    | cons write writes =>
      obtain ⟨key, value⟩ := write
      obtain rfl : q = .put key value := by simpa [request?, eq_comm] using hq
      cases r <;> exact .stay nofun rfl rfl
  | tryLock =>
    obtain rfl : q = .tryLock := by simpa [request?, eq_comm] using hq
    cases r with
    | ok granted =>
      cases granted with
      | true => exact .grant rfl rfl
      | false => exact .stay nofun rfl rfl
    | error err => exact .retire nofun rfl rfl
  | await =>
    obtain rfl : q = .lock := by simpa [request?, eq_comm] using hq
    cases r with
    | ok granted => exact .grant rfl rfl
    | error err => exact .retire nofun rfl rfl
  | unlockStopped =>
    obtain rfl : q = .unlock := by simpa [request?, eq_comm] using hq
    cases r <;> exact .retire (fun _ => rfl) rfl rfl
  | unlockRefused blocking =>
    obtain rfl : q = .unlock := by simpa [request?, eq_comm] using hq
    cases r <;> exact .retire (fun _ => rfl) rfl rfl
  | promote blocking p =>
    rw [reply, Turn.elim_within]
    simp only [stage_afterPromotion]
    exact p.reply_passage e r q hq
  | _ => simp [request?] at hq

theorem StopPoint.step_passage (e : Elector) (me : CallId) (p : StopPoint)
    (hready : p.isReady e me = true) :
    Passage e (p.step e me).elector false false p.stage
      ((p.step e me).next.elim StopPoint.stage fun _ => .idle) := by
  cases p with
  | request => exact .stay (fun _ => rfl) rfl rfl
  | arrive =>
    by_cases h : (e.init.arrive me).isInside me = true
    · simpa [step, h, Turn.go, stage] using .stay (fun _ => rfl) rfl rfl
    · simpa [step, h, Turn.go, stage] using .stay (fun _ => rfl) rfl rfl
  | queue => exact .stay (fun _ => rfl) rfl rfl
  | takeWaiter =>
    by_cases h : e.waiterKept = true
    · simpa [step, h, Turn.go, stage] using .stay (fun _ => rfl) rfl rfl
    · simpa [step, h, Turn.go, stage] using .stay (fun _ => rfl) rfl rfl
  | join => exact .stay (fun _ => rfl) rfl rfl
  | halt =>
    -- a stop has the lock to give back exactly if the elector ran
    have h : stage (.closeGate e.status) = if e.status = .running then .releasing else .idle := by
      cases e.status <;> rfl
    simpa [step, Turn.go, h] using .halt rfl rfl
  | closeGate before =>
    cases before with
    | running => exact .stay (fun _ => rfl) rfl rfl
    | uninitialized => exact .stay (fun _ => rfl) rfl rfl
    | standby => exact .stay (fun _ => rfl) rfl rfl
    | stopped => exact .stay (fun _ => rfl) rfl rfl
  | unlock => simp [isReady] at hready
  | leave result => exact .stay (fun _ => rfl) rfl rfl

theorem StopPoint.reply_passage (e : Elector) (r : Reply) (p : StopPoint) (q : Request)
    (hq : p.request? = some q) :
    Passage e (p.reply e r).elector true (q.isGranted r) p.stage
      ((p.reply e r).next.elim StopPoint.stage fun _ => .idle) := by
  cases p with
  | unlock =>
    obtain rfl : q = .unlock := by simpa [request?, eq_comm] using hq
    cases r <;> exact .retire (fun _ => rfl) rfl rfl
  | _ => simp [request?] at hq

/-- The waiter passes on what its promotion does. -/
theorem WaiterPoint.settlePromotion_passage {e : Elector} {answered granted : Bool}
    {p : PromotionPoint} {t : Turn PromotionPoint Promotion}
    (h : Passage e t.elector answered granted p.stage
      (t.next.elim PromotionPoint.stage Promotion.stage)) :
    Passage e (settlePromotion t).elector answered granted p.stage
      ((settlePromotion t).next.elim WaiterPoint.stage fun _ => .idle) := by
  rcases settlePromotion_elector_next t with ⟨q, hn, ht⟩ | ⟨hn, ht⟩ | ⟨hn, ht⟩
  · rw [hn] at h
    rw [ht]
    exact h
  · rw [hn] at h
    rw [ht]
    exact h
  · -- promoted or superseded, the waiter is over, and its end is marked in the elector
    rw [ht]
    have hidle : t.next.elim PromotionPoint.stage Promotion.stage = .idle := by
      rcases hn with hn | hn <;> rw [hn] <;> rfl
    rw [hidle] at h
    exact h.congr rfl rfl

theorem WaiterPoint.step_passage (e : Elector) (p : WaiterPoint) (hready : p.isReady e = true) :
    Passage e (p.step e).elector false false p.stage
      ((p.step e).next.elim WaiterPoint.stage fun _ => .idle) := by
  cases p with
  | await => exact .retire nofun rfl rfl
  | checkShutdown =>
    by_cases h : e.shutdown = true
    · simpa [step, h, Turn.go, stage] using .stay (fun _ => rfl) rfl rfl
    · simpa [step, h, Turn.go, stage, PromotionPoint.stage] using .stay (fun _ => rfl) rfl rfl
  | promote p => exact settlePromotion_passage (p.step_passage .deferred e)
  | unlockStopped => simp [isReady, request?] at hready
  | unlockRefused => simp [isReady, request?] at hready

theorem WaiterPoint.reply_passage (e : Elector) (r : Reply) (p : WaiterPoint) (q : Request)
    (hq : p.request? e = some q) :
    Passage e (p.reply e r).elector true (q.isGranted r) p.stage
      ((p.reply e r).next.elim WaiterPoint.stage fun _ => .idle) := by
  cases p with
  | await =>
    obtain rfl : q = .lock := by simpa [request?, eq_comm] using hq
    cases r with
    | ok granted => exact .grant rfl rfl
    | error err => exact .retire nofun rfl rfl
  | unlockStopped =>
    obtain rfl : q = .unlock := by simpa [request?, eq_comm] using hq
    cases r <;> exact .retire (fun _ => rfl) rfl rfl
  | promote p => exact settlePromotion_passage (p.reply_passage e r q hq)
  | unlockRefused =>
    obtain rfl : q = .unlock := by simpa [request?, eq_comm] using hq
    cases r <;> exact .retire (fun _ => rfl) rfl rfl
  | checkShutdown => simp [request?] at hq

namespace Activity

variable {e : Elector} {me : CallId} {a : Activity} {q : Request} {r : Reply}

/-- The passage of a step of an activity. -/
theorem step_passage (hready : a.isReady e me = true) :
    Passage e (a.step e me).elector false false a.stage (stageAfter (a.step e me).next) := by
  cases a with
  | start p =>
    rw [step, stageAfter, Turn.elim_within]
    exact p.step_passage e me hready
  | stop p =>
    rw [step, stageAfter, Turn.elim_within]
    exact p.step_passage e me hready
  | await p =>
    have hidle : stageAfter ((await p).step e me).next = .idle :=
      Turn.elim_within_const (fun _ => rfl) fun _ => rfl
    rw [hidle]
    have h := p.step_elector e
    exact .stay (fun _ => rfl) (congrArg Elector.status h) (congrArg Elector.started h)
  | notify p =>
    have hidle : stageAfter ((notify p).step e me).next = .idle :=
      Turn.elim_within_const (fun _ => rfl) fun _ => rfl
    rw [hidle]
    obtain ⟨c, h⟩ := p.step_elector e
    have hstatus : (p.step e).elector.status = e.status := by rw [h]
    have hstarted : (p.step e).elector.started = e.started := by rw [h]
    exact .stay (fun _ => rfl) hstatus hstarted
  | waiter p =>
    rw [step, stageAfter, Turn.elim_within]
    exact p.step_passage e hready

/-- The passage of an activity that goes on with the answer to its request. -/
theorem reply_passage (hq : a.request? e = some q) :
    Passage e (a.reply e r).elector true (q.isGranted r) a.stage
      (stageAfter (a.reply e r).next) := by
  cases a with
  | start p =>
    rw [reply, stageAfter, Turn.elim_within]
    exact p.reply_passage e r q hq
  | stop p =>
    rw [reply, stageAfter, Turn.elim_within]
    exact p.reply_passage e r q hq
  | waiter p =>
    rw [reply, stageAfter, Turn.elim_within]
    exact p.reply_passage e r q hq
  | await p => simp [request?] at hq
  | notify p => simp [request?] at hq

/-- Breaking an activity off changes neither the status nor whether the elector was started. -/
theorem abandon_status_started (a : Activity) (e : Elector) (me : CallId) :
    (a.abandon e me).status = e.status ∧ (a.abandon e me).started = e.started := by
  obtain ⟨_, _, h⟩ := a.abandon_elector e me
  rw [h]
  exact ⟨rfl, rfl⟩

end Activity

end Primacy.Election
