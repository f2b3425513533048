/-
  Primacy.Proofs.Election.Deed

  What the steps of activities do to what others see of an elector, and what they announce.  Others
  see its status, its gate and the callback that waits; an announcement is the marker of a
  promotion or a callback that is called.  A step is one of a handful of deeds, or it does nothing
  of the kind; answers do nothing of the kind either.  What holds of every run is derived from the
  deeds, never from the points of an activity.
-/
import Primacy.Proofs.Election.Passage

namespace Primacy.Election

/-! ## Deeds -/

/-- What others see of an elector. -/
structure Face where
  status : State
  gate : Gate
  callback : Option String
  deriving DecidableEq

def Elector.face (e : Elector) : Face := ⟨e.status, e.gate, e.callback⟩

theorem Gate.settle_of_ne {g : Gate} (h : g ≠ .pending) (next : Gate) :
    g.settle next = (false, g) := by
  cases g with
  | pending => exact absurd rfl h
  | released => rfl
  | closed => rfl

namespace Event

/-- The callback that is called. -/
def fired? : Event → Option String
  | fired callback => some callback
  | _ => none

/-- The event announces a promotion, by a marker or by a callback. -/
def isAnnouncement (ev : Event) : Bool := ev.isMarker || ev.fired?.isSome

end Event

inductive Deed where
  | standBy
  | run
  | halt
  | openGate (route : Route)
  | closeGate
  | register (callback : String)
  | callBack
  deriving DecidableEq

namespace Deed

def apply (f : Face) : Deed → Face
  | standBy => if f.status.canBecome .standby then { f with status := .standby } else f
  | run => if f.status.canBecome .running then { f with status := .running } else f
  | halt => { f with status := .stopped }
  | openGate _ => { f with gate := f.gate.release.2 }
  | closeGate => { f with gate := f.gate.close.2 }
  | register callback => { f with callback := some callback }
  | callBack => { f with callback := none }

theorem apply_standBy (f : Face) : standBy.apply f =
    if f.status.canBecome .standby then { f with status := .standby } else f := rfl

theorem apply_run (f : Face) : run.apply f =
    if f.status.canBecome .running then { f with status := .running } else f := rfl

/-- What a deed announces. -/
def announces (f : Face) : Deed → List Event
  | openGate route => if f.gate.release.1 then [route.marker] else []
  | callBack => f.callback.toList.map .fired
  | _ => []

variable {f : Face} {d : Deed}

/-- The moves of the status. -/
theorem status_apply (d : Deed) (f : Face) : (d.apply f).status = f.status ∨
    f.status.canBecome (d.apply f).status = true ∨ (d.apply f).status = .stopped := by
  cases d with
  | standBy =>
    by_cases h : f.status.canBecome .standby = true
    · exact .inr (.inl (by rw [apply_standBy, if_pos h]; exact h))
    · exact .inl (by rw [apply_standBy, if_neg h])
  | run =>
    by_cases h : f.status.canBecome .running = true
    · exact .inr (.inl (by rw [apply_run, if_pos h]; exact h))
    · exact .inl (by rw [apply_run, if_neg h])
  | halt => exact .inr (.inr rfl)
  | _ => exact .inl rfl

/-- A gate that is settled stays as it is. -/
theorem gate_apply (hf : f.gate ≠ .pending) (d : Deed) : (d.apply f).gate = f.gate := by
  cases d with
  | openGate route => exact congrArg Prod.snd (Gate.settle_of_ne hf .released)
  | closeGate => exact congrArg Prod.snd (Gate.settle_of_ne hf .closed)
  | standBy =>
    rw [apply_standBy]
    split <;> rfl
  | run =>
    rw [apply_run]
    split <;> rfl
  | _ => rfl

/-- Only the two deeds about the gate touch it. -/
theorem gate_apply_of_ne (hopen : ∀ route, d ≠ openGate route) (hclose : d ≠ closeGate) :
    (d.apply f).gate = f.gate := by
  cases d with
  | openGate route => exact absurd rfl (hopen route)
  | closeGate => exact absurd rfl hclose
  | standBy =>
    rw [apply_standBy]
    split <;> rfl
  | run =>
    rw [apply_run]
    split <;> rfl
  | _ => rfl

theorem gate_closeGate_ne_pending : (closeGate.apply f).gate ≠ .pending := by
  show f.gate.close.2 ≠ .pending
  cases f.gate <;> decide

/-- Only the two deeds about a callback touch the slot. -/
theorem callback_apply_of_ne (hregister : ∀ c, d ≠ register c) (hcall : d ≠ callBack) :
    (d.apply f).callback = f.callback := by
  cases d with
  | register c => exact absurd rfl (hregister c)
  | callBack => exact absurd rfl hcall
  | standBy =>
    rw [apply_standBy]
    split <;> rfl
  | run =>
    rw [apply_run]
    split <;> rfl
  | _ => rfl

/-- Only opening the gate and calling back announce something. -/
theorem announces_eq_nil (hopen : ∀ route, d ≠ openGate route) (hcall : d ≠ callBack) :
    d.announces f = [] := by
  cases d with
  | openGate route => exact absurd rfl (hopen route)
  | callBack => exact absurd rfl hcall
  | _ => rfl

theorem announces_openGate_of_ne (hf : f.gate ≠ .pending) (route : Route) :
    (openGate route).announces f = [] := by
  have hshut : f.gate.release.1 = false := congrArg Prod.fst (Gate.settle_of_ne hf .released)
  rw [announces, hshut, if_neg Bool.false_ne_true]

end Deed

/-! ## The deeds of activities -/

def PromotionPoint.deed? (route : Route) : PromotionPoint → Option Deed
  | run => some .run
  | openGate => some (.openGate route)
  | callBack => some .callBack
  | _ => none

namespace Activity

/-- The promotion that the activity is busy with. -/
def promotion? : Activity → Option (Route × PromotionPoint)
  | start (.promote _ p) => some (.immediate, p)
  | waiter (.promote p) => some (.deferred, p)
  | _ => none

/-- What the next step of the activity does. -/
def deed? : Activity → Option Deed
  | start .standBy => some .standBy
  | start (.promote _ p) => p.deed? .immediate
  | stop .halt => some .halt
  | stop (.closeGate _) => some .closeGate
  | notify (.register callback) => some (.register callback)
  | notify .callBack => some .callBack
  | waiter (.promote p) => p.deed? .deferred
  | _ => none

end Activity

/-- What others see after a step with the given deed, if it is one. -/
def Face.after (f : Face) (d : Option Deed) : Face := d.elim f (·.apply f)

/-- What such a step announces. -/
def Face.news (f : Face) (d : Option Deed) : List Event := d.elim [] (·.announces f)

theorem Face.news_openGate {f : Face} (hf : f.gate = .pending) (route : Route) :
    f.news (some (.openGate route)) = [route.marker] := by
  show (if f.gate.release.1 then [route.marker] else []) = _
  rw [hf]
  rfl

/-- The announcements among the events of a turn. -/
def Turn.announced {π ρ : Type} (t : Turn π ρ) : List Event := t.events.filter Event.isAnnouncement

@[simp] theorem Turn.within_announced {π π' ρ ρ' : Type} (t : Turn π ρ) (point : π → π')
    (result : ρ → π' ⊕ ρ') : (t.within point result).announced = t.announced := rfl

theorem Elector.fire_face (e : Elector) : e.fire.1.face = Deed.callBack.apply e.face := by
  rw [fire]
  cases hc : e.callback with
  | none =>
    show e.face = ⟨e.status, e.gate, none⟩
    rw [← hc]
    rfl
  | some callback => rfl

theorem Elector.fire_announced (e : Elector) :
    e.fire.2.filter Event.isAnnouncement = Deed.callBack.announces e.face := by
  rw [fire]
  show _ = e.callback.toList.map Event.fired
  cases e.callback <;> rfl

/-- A promotion does its deed. -/
theorem PromotionPoint.step_deed (route : Route) (e : Elector) (p : PromotionPoint) :
    (p.step route e).elector.face = e.face.after (p.deed? route) ∧
    (p.step route e).announced = e.face.news (p.deed? route) := by
  cases p with
  | run =>
    have hrun : e.face.after (deed? route .run) =
        if e.status.canBecome .running then { e.face with status := .running } else e.face := rfl
    rw [hrun]
    by_cases h : e.status.canBecome .running = true
    · rw [step, if_pos h, if_pos h]
      exact ⟨rfl, rfl⟩
    · rw [step, if_neg h, if_neg h]
      exact ⟨rfl, rfl⟩
  | checkShutdown =>
    rw [step]
    split <;> exact ⟨rfl, rfl⟩
  | openGate =>
    have hface : e.face.after (deed? route .openGate) =
        { e.face with gate := e.gate.release.2 } := rfl
    have hnews : e.face.news (deed? route .openGate) =
        if e.gate.release.1 then [route.marker] else [] := rfl
    rw [hface, hnews]
    have hmarker : [route.marker].filter Event.isAnnouncement = [route.marker] := by
      cases route <;> rfl
    by_cases hg : e.gate = .pending
    · have hrelease : e.gate.release = (true, .released) := by
        rw [hg]
        rfl
      simp only [step, hrelease]
      exact ⟨rfl, hmarker⟩
    · have hrelease : e.gate.release = (false, e.gate) := Gate.settle_of_ne hg .released
      simp only [step, hrelease]
      exact ⟨rfl, rfl⟩
  | callBack => exact ⟨e.fire_face, e.fire_announced⟩
  | putHost => exact ⟨rfl, rfl⟩
  | putPort => exact ⟨rfl, rfl⟩

theorem PromotionPoint.reply_announced (e : Elector) (r : Reply) (p : PromotionPoint) :
    (p.reply e r).announced = [] := by
  cases p <;> cases r <;> rfl

namespace WaiterPoint

theorem settlePromotion_face (t : Turn PromotionPoint Promotion) :
    (settlePromotion t).elector.face = t.elector.face := by
  obtain ⟨w, hw⟩ := settlePromotion_elector t
  rw [hw]
  rfl

theorem settlePromotion_announced (t : Turn PromotionPoint Promotion) :
    (settlePromotion t).announced = t.announced := by
  rcases settlePromotion_elector_next t with ⟨_, _, ht⟩ | ⟨_, ht⟩ | ⟨_, ht⟩ <;> rw [ht] <;> rfl

end WaiterPoint

namespace Activity

variable {e : Elector} {me : CallId} {a : Activity} {r : Reply}

/-- Every step does the deed of its activity, and nothing else that others see. -/
theorem step_deed (a : Activity) (e : Elector) (me : CallId) :
    (a.step e me).elector.face = e.face.after a.deed? ∧
    (a.step e me).announced = e.face.news a.deed? := by
  cases a with
  | start p =>
    rw [step, Turn.within_elector, Turn.within_announced]
    cases p with
    | check address blocking =>
      rw [StartPoint.step]
      split <;> exact ⟨rfl, rfl⟩
    | standBy =>
      have hface : e.face.after (deed? (start .standBy)) =
          if e.status.canBecome .standby then { e.face with status := .standby } else e.face := rfl
      rw [hface, StartPoint.step]
      by_cases h : e.status.canBecome .standby = true
      · rw [if_pos h, if_pos h]
        exact ⟨rfl, rfl⟩
      · rw [if_neg h, if_neg h]
        exact ⟨rfl, rfl⟩
    | promote blocking p => exact p.step_deed .immediate e
    | readStatus blocking => cases blocking <;> exact ⟨rfl, rfl⟩
    | _ => exact ⟨rfl, rfl⟩
  | stop p =>
    rw [step, Turn.within_elector, Turn.within_announced]
    cases p with
    | takeWaiter =>
      rw [StopPoint.step]
      split <;> exact ⟨rfl, rfl⟩
    | join =>
      refine ⟨rfl, ?_⟩
      rw [StopPoint.step]
      split <;> rfl
    | closeGate before => cases before <;> exact ⟨rfl, rfl⟩
    | _ => exact ⟨rfl, rfl⟩
  | await p =>
    rw [step, Turn.within_elector, Turn.within_announced, p.step_elector]
    refine ⟨rfl, ?_⟩
    cases p with
    | check => cases hs : e.status <;> rw [AwaitPoint.step, hs] <;> rfl
    | gate =>
      rw [AwaitPoint.step]
      split <;> rfl
    | readStatus => rfl
  | notify p =>
    rw [step, Turn.within_elector, Turn.within_announced]
    cases p with
    | register callback => exact ⟨rfl, rfl⟩
    | readGate =>
      rw [NotifyPoint.step]
      split <;> exact ⟨rfl, rfl⟩
    | callBack => exact ⟨e.fire_face, e.fire_announced⟩
  | waiter p =>
    rw [step, Turn.within_elector, Turn.within_announced]
    cases p with
    | checkShutdown =>
      rw [WaiterPoint.step]
      split <;> exact ⟨rfl, rfl⟩
    | promote p =>
      rw [WaiterPoint.step, WaiterPoint.settlePromotion_face, WaiterPoint.settlePromotion_announced]
      exact p.step_deed .deferred e
    | _ => exact ⟨rfl, rfl⟩

theorem reply_face (a : Activity) (e : Elector) (r : Reply) :
    (a.reply e r).elector.face = e.face := by
  cases a with
  | start p =>
    obtain ⟨_, h⟩ := p.reply_elector e r
    rw [reply, Turn.within_elector, h]
    rfl
  | stop p => rw [reply, Turn.within_elector, p.reply_elector]
  | waiter p =>
    obtain ⟨_, _, h⟩ := p.reply_elector e r
    rw [reply, Turn.within_elector, h]
    rfl
  | _ => rfl

/-- No answer makes an activity announce anything. -/
theorem reply_announced (a : Activity) (e : Elector) (r : Reply) :
    (a.reply e r).announced = [] := by
  cases a with
  | start p =>
    rw [reply, Turn.within_announced]
    cases p with
    | publish writes blocking => cases writes <;> cases r <;> rfl
    | tryLock =>
      cases r with
      | ok granted => cases granted <;> rfl
      | error err => rfl
    | promote blocking p => exact p.reply_announced e r
    | _ => cases r <;> rfl
  | stop p => cases p <;> cases r <;> rfl
  | waiter p =>
    rw [reply, Turn.within_announced]
    cases p with
    | promote p =>
      rw [WaiterPoint.reply, WaiterPoint.settlePromotion_announced]
      exact p.reply_announced e r
    | _ => cases r <;> rfl
  | _ => rfl

theorem abandon_face (a : Activity) (e : Elector) (me : CallId) :
    (a.abandon e me).face = e.face := by
  obtain ⟨_, _, h⟩ := a.abandon_elector e me
  rw [h]
  rfl

/-! ## Requests to stop -/

/-- A stop that was requested stays requested. -/
theorem step_shutdown (h : e.shutdown = true) (a : Activity) (me : CallId) :
    (a.step e me).elector.shutdown = true := by
  cases a with
  | start p =>
    obtain ⟨_, _, _, _, _, _, hp⟩ := p.step_elector e me
    rw [step, Turn.within_elector, hp]
    exact h
  | stop p =>
    rw [step, Turn.within_elector]
    cases p with
    | request => rfl
    | takeWaiter =>
      rw [StopPoint.step]
      split <;> exact h
    | closeGate before => cases before <;> exact h
    | _ => exact h
  | await p =>
    rw [step, Turn.within_elector, p.step_elector]
    exact h
  | notify p =>
    obtain ⟨_, hp⟩ := p.step_elector e
    rw [step, Turn.within_elector, hp]
    exact h
  | waiter p =>
    obtain ⟨_, _, _, _, hp⟩ := p.step_elector e
    rw [step, Turn.within_elector, hp]
    exact h

theorem reply_shutdown (a : Activity) (e : Elector) (r : Reply) :
    (a.reply e r).elector.shutdown = e.shutdown := by
  cases a with
  | start p =>
    obtain ⟨_, h⟩ := p.reply_elector e r
    rw [reply, Turn.within_elector, h]
  | stop p => rw [reply, Turn.within_elector, p.reply_elector]
  | waiter p =>
    obtain ⟨_, _, h⟩ := p.reply_elector e r
    rw [reply, Turn.within_elector, h]
  | _ => rfl

end Activity

end Primacy.Election
