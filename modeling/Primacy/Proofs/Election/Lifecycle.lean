/-
  Primacy.Proofs.Election.Lifecycle

  The life of an elector.  Its status and its gate are two cells, written by starts, promotions and
  stops with suspensions in between; what the two may show together, and how they may move, is
  derived from the deeds of activities.  A start that comes after a stop has ended is turned away.
-/
import Primacy.Proofs.Election.Chronicle
import Primacy.Proofs.Election.Release
import Primacy.Proofs.Election.Tending

namespace Primacy.Election

/-! ## The course of a life -/

/-- The moves of a status. -/
inductive State.Leads : State → State → Prop where
  | standBy : Leads .uninitialized .standby
  | run : Leads .uninitialized .running
  | promote : Leads .standby .running
  | stop (s : State) : Leads s .stopped

theorem State.leads_of_canBecome {s s' : State} (h : s.canBecome s' = true) : s.Leads s' := by
  cases s with
  | uninitialized =>
    cases s' with
    | standby => exact .standBy
    | running => exact .run
    | uninitialized => exact nomatch h
    | stopped => exact nomatch h
  | standby =>
    cases s' with
    | running => exact .promote
    | uninitialized => exact nomatch h
    | standby => exact nomatch h
    | stopped => exact nomatch h
  | running => cases s' <;> exact nomatch h
  | stopped => cases s' <;> exact nomatch h

/-- Moves made one after the other come to one of the moves. -/
theorem State.Leads.trans {s s' s'' : State} (h : s.Leads s') (h' : s'.Leads s'') :
    s.Leads s'' := by
  cases h' with
  | standBy => exact nomatch h
  | run => exact nomatch h
  | promote =>
    cases h with
    | standBy => exact .run
  | stop => exact .stop s

/-- Between `f` and `f'` the status made moves of a life, and a settled gate stayed as it was. -/
structure Face.Precedes (f f' : Face) : Prop where
  status : f'.status = f.status ∨ f.status.Leads f'.status
  gate : f.gate ≠ .pending → f'.gate = f.gate

namespace Face.Precedes

variable {f f' f'' : Face}

theorem refl (f : Face) : f.Precedes f := ⟨.inl rfl, fun _ => rfl⟩

theorem trans (h : f.Precedes f') (h' : f'.Precedes f'') : f.Precedes f'' where
  status := by
    rcases h'.status with hsame | hleads
    · rw [hsame]
      exact h.status
    · rcases h.status with hsame | hfirst
      · rw [← hsame]
        exact .inr hleads
      · exact .inr (hfirst.trans hleads)
  gate hf := by
    have hgate := h.gate hf
    rw [← hgate] at hf ⊢
    exact h'.gate hf

theorem apply (f : Face) (d : Deed) : f.Precedes (d.apply f) where
  status := by
    rcases d.status_apply f with hsame | hcan | hstopped
    · exact .inl hsame
    · exact .inr (State.leads_of_canBecome hcan)
    · rw [hstopped]
      exact .inr (.stop _)
  gate hf := d.gate_apply hf

theorem after (f : Face) (d : Option Deed) : f.Precedes (f.after d) := by
  cases d with
  | none => exact .refl f
  | some d => exact .apply f d

/-- An elector that runs goes on running until it is stopped. -/
theorem running_or_stopped (h : f.Precedes f') (hf : f.status = .running ∨ f.status = .stopped) :
    f'.status = .running ∨ f'.status = .stopped := by
  rcases h.status with hsame | hleads
  · rwa [hsame]
  · generalize f.status = s, f'.status = s' at hf hleads ⊢
    cases hleads with
    | stop => exact .inr rfl
    | promote => exact .inl rfl
    | run => exact .inl rfl
    | standBy => exact hf.elim nofun nofun

theorem stopped (h : f.Precedes f') (hf : f.status = .stopped) : f'.status = .stopped := by
  rcases h.status with hsame | hleads
  · exact hsame.trans hf
  · rw [hf] at hleads
    generalize f'.status = s' at hleads ⊢
    cases hleads
    rfl

theorem released (h : f.Precedes f') (hf : f.gate = .released) : f'.gate = .released := by
  have hsettled : f.gate ≠ .pending := by
    rw [hf]
    exact nofun
  exact (h.gate hsettled).trans hf

end Face.Precedes

/-! ## What status and gate show together -/

/-- The gate of an elector that never ran is pending, and the gate of one that runs is not
closed. -/
structure Face.Consistent (f : Face) : Prop where
  waiting : f.status = .uninitialized ∨ f.status = .standby → f.gate = .pending
  running : f.status = .running → f.gate ≠ .closed

/-- The deed is done where it may be done: only an elector that ran opens its gate, and only one
that was stopped closes it. -/
def Deed.IsTimely (f : Face) : Deed → Prop
  | openGate _ => f.status = .running ∨ f.status = .stopped
  | closeGate => f.status = .stopped
  | _ => True

theorem Deed.eq_halt {f : Face} {d : Deed} (before : f.status ≠ .stopped)
    (after : (d.apply f).status = .stopped) : d = .halt := by
  cases d with
  | halt => rfl
  | standBy =>
    rw [apply_standBy] at after
    split at after
    · cases after
    · exact absurd after before
  | run =>
    rw [apply_run] at after
    split at after
    · cases after
    · exact absurd after before
  | _ => exact absurd after before

/-- Only opening the gate releases it. -/
theorem Deed.eq_openGate {f : Face} {d : Deed} (before : f.gate ≠ .released)
    (after : (d.apply f).gate = .released) : ∃ route, d = .openGate route := by
  by_contra hne
  by_cases hclose : d = .closeGate
  · subst hclose
    have hgate : f.gate.close.2 = .released := after
    cases hg : f.gate with
    | released => exact before hg
    | pending =>
      rw [hg] at hgate
      exact nomatch hgate
    | closed =>
      rw [hg] at hgate
      exact nomatch hgate
  · have hsame := Deed.gate_apply_of_ne (f := f) (fun route h => hne ⟨route, h⟩) hclose
    exact before (hsame.symm.trans after)

theorem Face.Consistent.apply {f : Face} (hf : f.Consistent) {d : Deed} (hd : d.IsTimely f) :
    (d.apply f).Consistent := by
  cases d with
  | standBy =>
    rw [Deed.apply_standBy]
    split
    · next h =>
      have hgate : f.gate = .pending := by
        generalize hs : f.status = s at h
        cases s with
        | uninitialized => exact hf.waiting (.inl hs)
        | _ => cases h
      exact ⟨fun _ => hgate, nofun⟩
    · exact hf
  | run =>
    rw [Deed.apply_run]
    split
    · next h =>
      have hgate : f.gate = .pending := by
        generalize hs : f.status = s at h
        cases s with
        | uninitialized => exact hf.waiting (.inl hs)
        | standby => exact hf.waiting (.inr hs)
        | _ => cases h
      refine ⟨fun h => h.elim nofun nofun, fun _ => ?_⟩
      show f.gate ≠ .closed
      rw [hgate]
      exact nofun
    · exact hf
  | halt => exact ⟨fun h => h.elim nofun nofun, nofun⟩
  | openGate route =>
    have hran : f.status = .running ∨ f.status = .stopped := hd
    refine ⟨fun h => ?_, fun h => ?_⟩
    · have hs : f.status = .uninitialized ∨ f.status = .standby := h
      rcases hran with hran | hran <;> rw [hran] at hs <;> exact hs.elim nofun nofun
    · show f.gate.release.2 ≠ .closed
      have hgate := hf.running h
      cases hg : f.gate with
      | closed => exact absurd hg hgate
      | _ => exact nofun
  | closeGate =>
    have hstopped : f.status = .stopped := hd
    refine ⟨fun h => ?_, fun h => ?_⟩
    · have hs : f.status = .uninitialized ∨ f.status = .standby := h
      rw [hstopped] at hs
      exact hs.elim nofun nofun
    · exact nomatch hstopped.symm.trans h
  | register callback => exact ⟨hf.waiting, hf.running⟩
  | callBack => exact ⟨hf.waiting, hf.running⟩

/-! ## What the points of activities tell -/

theorem PromotionPoint.released_of_step {route : Route} {e : Elector} {p : PromotionPoint}
    (h : (p.step route e).next = .inl .callBack) : (p.step route e).elector.gate = .released := by
  cases p with
  | run =>
    simp only [step] at h
    split at h <;> cases h
  | checkShutdown =>
    simp only [step] at h
    split at h <;> cases h
  | openGate =>
    by_cases hg : e.gate = .pending
    · have hrelease : e.gate.release = (true, .released) := by
        rw [hg]
        rfl
      simp only [step, hrelease]
      rfl
    · have hrelease : e.gate.release = (false, e.gate) := Gate.settle_of_ne hg .released
      simp only [step, hrelease] at h
      cases h
  | putHost => cases h
  | putPort => cases h
  | callBack => cases h

theorem PromotionPoint.reply_ne_callBack {e : Elector} {r : Reply} {p : PromotionPoint}
    {q : Request} (hq : p.request? e = some q) : (p.reply e r).next ≠ .inl .callBack := by
  cases p with
  | putHost => cases r <;> exact nofun
  | putPort => cases r <;> exact nofun
  | _ => exact nomatch hq

theorem NotifyPoint.released_of_step {e : Elector} {p : NotifyPoint}
    (h : (p.step e).next = .inl .callBack) : (p.step e).elector.gate = .released := by
  cases p with
  | readGate =>
    by_cases hg : e.gate = .released
    · rw [step, if_pos hg]
      exact hg
    · rw [step, if_neg hg] at h
      cases h
  | register callback => cases h
  | callBack => cases h

theorem PromotionPoint.deed?_eq_callBack {route : Route} {p : PromotionPoint}
    (h : p.deed? route = some .callBack) : p = .callBack := by
  cases p <;> first | rfl | exact nomatch h

theorem PromotionPoint.stage_of_openGate {route route' : Route} {p : PromotionPoint}
    (h : p.deed? route = some (.openGate route')) : p.stage = .promoting := by
  cases p <;> first | rfl | exact nomatch h

section Promote

variable {e : Elector} {me : CallId} {r : Reply} {p : PromotionPoint}

/-- A start goes to a promotion from the look for a request, or stays in one. -/
theorem StartPoint.promote_of_step {s : StartPoint} {blocking : Bool}
    (h : (s.step e me).next = .inl (.promote blocking p)) :
    p = .run ∨ ∃ p', s = .promote blocking p' ∧ (p'.step .immediate e).next = .inl p := by
  cases s with
  | promote blocking' p' =>
    rcases Turn.of_within h with ⟨p'', hp', heq⟩ | ⟨r, _, hr⟩
    · cases heq
      exact .inr ⟨p', rfl, hp'⟩
    · cases r <;> cases blocking' <;> cases hr
  | arrive address blocking =>
    simp only [StartPoint.step, Turn.go] at h
    split at h <;> cases h
  | check address blocking =>
    simp only [StartPoint.step] at h
    split at h <;> cases h
  | publish writes blocking => cases blocking <;> cases h
  | standBy =>
    simp only [StartPoint.step] at h
    split at h <;> cases h
  | checkShutdown =>
    simp only [StartPoint.step, Turn.go] at h
    split at h
    · cases h
    · cases h
      exact .inl rfl
  | readStatus blocking => cases blocking <;> cases h
  | _ => cases h

/-- It also gets there from the answer that grants the lock. -/
theorem StartPoint.promote_of_reply {s : StartPoint} {blocking : Bool}
    (h : (s.reply e r).next = .inl (.promote blocking p)) :
    p = .run ∨ ∃ p', s = .promote blocking p' ∧ (p'.reply e r).next = .inl p := by
  cases s with
  | promote blocking' p' =>
    rcases Turn.of_within h with ⟨p'', hp', heq⟩ | ⟨r, _, hr⟩
    · cases heq
      exact .inr ⟨p', rfl, hp'⟩
    · cases r <;> cases blocking' <;> cases hr
  | publish writes blocking => cases writes <;> cases r <;> cases h
  | tryLock =>
    cases r with
    | ok granted =>
      cases granted with
      | true =>
        cases h
        exact .inl rfl
      | false => cases h
    | error err => cases h
  | _ => cases r <;> cases h

/-- The end of a promotion leads into no other one. -/
theorem WaiterPoint.promote_of_settle {t : Turn PromotionPoint Promotion}
    (h : (settlePromotion t).next = .inl (.promote p)) : t.next = .inl p := by
  rcases settlePromotion_elector_next t with ⟨p', hn, ht⟩ | ⟨_, ht⟩ | ⟨_, ht⟩
  · rw [ht] at h
    cases h
    exact hn
  · rw [ht] at h
    cases h
  · rw [ht] at h
    cases h

theorem WaiterPoint.promote_of_step {s : WaiterPoint}
    (h : (s.step e).next = .inl (.promote p)) :
    p = .run ∨ ∃ p', s = .promote p' ∧ (p'.step .deferred e).next = .inl p := by
  cases s with
  | promote p' => exact .inr ⟨p', rfl, promote_of_settle h⟩
  | checkShutdown =>
    simp only [WaiterPoint.step] at h
    split at h
    · cases h
    · cases h
      exact .inl rfl
  | _ => cases h

theorem WaiterPoint.promote_of_reply {s : WaiterPoint}
    (h : (s.reply e r).next = .inl (.promote p)) :
    ∃ p', s = .promote p' ∧ (p'.reply e r).next = .inl p := by
  cases s with
  | promote p' => exact ⟨p', rfl, promote_of_settle h⟩
  | _ => cases r <;> cases h

end Promote

namespace Activity

variable {e : Elector} {me : CallId} {a b : Activity} {f f' : Face} {q : Request} {r : Reply}
  {route : Route} {p p' : PromotionPoint}

theorem promotion?_start {p' : StartPoint} (h : (start p').promotion? = some (route, p)) :
    ∃ blocking, p' = .promote blocking p ∧ route = .immediate := by
  cases p' with
  | promote blocking p' =>
    cases h
    exact ⟨blocking, rfl, rfl⟩
  | _ => exact nomatch h

theorem promotion?_waiter {p' : WaiterPoint} (h : (waiter p').promotion? = some (route, p)) :
    p' = .promote p ∧ route = .deferred := by
  cases p' with
  | promote p' =>
    cases h
    exact ⟨rfl, rfl⟩
  | _ => exact nomatch h

theorem deed?_of_promotion (h : a.promotion? = some (route, p)) : a.deed? = p.deed? route := by
  cases a with
  | start s =>
    obtain ⟨blocking, rfl, rfl⟩ := promotion?_start h
    rfl
  | waiter s =>
    obtain ⟨rfl, rfl⟩ := promotion?_waiter h
    rfl
  | _ => exact nomatch h

theorem request?_of_promotion (h : a.promotion? = some (route, p)) :
    a.request? e = p.request? e := by
  cases a with
  | start s =>
    obtain ⟨blocking, rfl, -⟩ := promotion?_start h
    rfl
  | waiter s =>
    obtain ⟨rfl, -⟩ := promotion?_waiter h
    rfl
  | _ => exact nomatch h

theorem stage_of_promotion (h : a.promotion? = some (route, p)) : a.stage = p.stage := by
  cases a with
  | start s =>
    obtain ⟨blocking, rfl, -⟩ := promotion?_start h
    rfl
  | waiter s =>
    obtain ⟨rfl, -⟩ := promotion?_waiter h
    rfl
  | _ => exact nomatch h

theorem mayRest_of_promotion (h : a.promotion? = some (route, p)) (asked : Bool) :
    a.mayRest asked = asked := by
  cases a with
  | start s =>
    obtain ⟨blocking, rfl, -⟩ := promotion?_start h
    rfl
  | waiter s =>
    obtain ⟨rfl, -⟩ := promotion?_waiter h
    rfl
  | _ => exact nomatch h

/-- An activity goes on with its promotion. -/
theorem step_of_promotion (me : CallId) (h : a.promotion? = some (route, p))
    (hp : (p.step route e).next = .inl p') :
    ∃ b, (a.step e me).next = .inl b ∧ b.promotion? = some (route, p') := by
  cases a with
  | start s =>
    obtain ⟨blocking, rfl, rfl⟩ := promotion?_start h
    refine ⟨.start (.promote blocking p'), ?_, rfl⟩
    simp only [step, StartPoint.step, Turn.within, hp]
  | waiter s =>
    obtain ⟨rfl, rfl⟩ := promotion?_waiter h
    refine ⟨.waiter (.promote p'), ?_, rfl⟩
    simp only [step, WaiterPoint.step, WaiterPoint.settlePromotion, Turn.within, hp, Turn.go]
  | _ => cases h

theorem reply_of_promotion (h : a.promotion? = some (route, p))
    (hp : (p.reply e r).next = .inl p') :
    ∃ b, (a.reply e r).next = .inl b ∧ b.promotion? = some (route, p') := by
  cases a with
  | start s =>
    obtain ⟨blocking, rfl, rfl⟩ := promotion?_start h
    refine ⟨.start (.promote blocking p'), ?_, rfl⟩
    simp only [reply, StartPoint.reply, Turn.within, hp]
  | waiter s =>
    obtain ⟨rfl, rfl⟩ := promotion?_waiter h
    refine ⟨.waiter (.promote p'), ?_, rfl⟩
    simp only [reply, WaiterPoint.reply, WaiterPoint.settlePromotion, Turn.within, hp, Turn.go]
  | _ => cases h

/-- A step leads into a promotion only at its beginning, or from the promotion itself. -/
theorem promotion?_of_step (h : (a.step e me).next = .inl b)
    (hb : b.promotion? = some (route, p)) :
    p = .run ∨ ∃ p', a.promotion? = some (route, p') ∧ (p'.step route e).next = .inl p := by
  cases a with
  | start s =>
    rcases Turn.of_within h with ⟨s', hs, rfl⟩ | ⟨_, _, hr⟩
    · obtain ⟨blocking, rfl, rfl⟩ := promotion?_start hb
      rcases s.promote_of_step hs with hrun | ⟨p', rfl, hp'⟩
      · exact .inl hrun
      · exact .inr ⟨p', rfl, hp'⟩
    · cases hr
  | waiter s =>
    rcases Turn.of_within h with ⟨s', hs, rfl⟩ | ⟨_, _, hr⟩
    · obtain ⟨rfl, rfl⟩ := promotion?_waiter hb
      rcases s.promote_of_step hs with hrun | ⟨p', rfl, hp'⟩
      · exact .inl hrun
      · exact .inr ⟨p', rfl, hp'⟩
    · cases hr
  | stop s =>
    rcases Turn.of_within h with ⟨_, _, rfl⟩ | ⟨_, _, hr⟩
    · cases hb
    · cases hr
  | await s =>
    rcases Turn.of_within h with ⟨_, _, rfl⟩ | ⟨_, _, hr⟩
    · cases hb
    · cases hr
  | notify s =>
    rcases Turn.of_within h with ⟨_, _, rfl⟩ | ⟨_, _, hr⟩
    · cases hb
    · cases hr

/-- So does an answer. -/
theorem promotion?_of_reply (h : (a.reply e r).next = .inl b)
    (hb : b.promotion? = some (route, p)) :
    p = .run ∨ ∃ p', a.promotion? = some (route, p') ∧ (p'.reply e r).next = .inl p := by
  cases a with
  | start s =>
    rcases Turn.of_within h with ⟨s', hs, rfl⟩ | ⟨_, _, hr⟩
    · obtain ⟨blocking, rfl, rfl⟩ := promotion?_start hb
      rcases s.promote_of_reply hs with hrun | ⟨p', rfl, hp'⟩
      · exact .inl hrun
      · exact .inr ⟨p', rfl, hp'⟩
    · cases hr
  | waiter s =>
    rcases Turn.of_within h with ⟨s', hs, rfl⟩ | ⟨_, _, hr⟩
    · obtain ⟨rfl, rfl⟩ := promotion?_waiter hb
      obtain ⟨p', rfl, hp'⟩ := s.promote_of_reply hs
      exact .inr ⟨p', rfl, hp'⟩
    · cases hr
  | stop s =>
    rcases Turn.of_within h with ⟨_, _, rfl⟩ | ⟨_, _, hr⟩
    · cases hb
    · cases hr
  | await s =>
    cases h
    cases hb
  | notify s =>
    cases h
    cases hb

theorem step_face_of_promotion (e : Elector) (me : CallId)
    (ha : a.promotion? = some (route, p)) :
    (a.step e me).elector.face = (p.step route e).elector.face := by
  rw [(a.step_deed e me).1, (p.step_deed route e).1, deed?_of_promotion ha]

/-- Whoever calls back promotes, or has just registered a callback. -/
theorem deed?_eq_callBack (h : a.deed? = some .callBack) :
    (∃ route, a.promotion? = some (route, .callBack)) ∨ a = notify .callBack := by
  cases a with
  | start p =>
    cases p with
    | promote blocking p =>
      have hp : p = .callBack := PromotionPoint.deed?_eq_callBack h
      exact .inl ⟨.immediate, by rw [hp]; rfl⟩
    | _ => exact nomatch h
  | stop p => cases p <;> exact nomatch h
  | await p => exact nomatch h
  | notify p =>
    cases p with
    | callBack => exact .inr rfl
    | _ => exact nomatch h
  | waiter p =>
    cases p with
    | promote p =>
      have hp : p = .callBack := PromotionPoint.deed?_eq_callBack h
      exact .inl ⟨.deferred, by rw [hp]; rfl⟩
    | _ => exact nomatch h

/-- Whoever goes on to call back has seen the gate open. -/
theorem released_of_step (h : (a.step e me).next = .inl b) (hb : b.deed? = some .callBack) :
    (a.step e me).elector.gate = .released := by
  rcases deed?_eq_callBack hb with ⟨route, hb⟩ | rfl
  · rcases promotion?_of_step h hb with hp | ⟨p, ha, hp⟩
    · exact nomatch hp
    · have hface := step_face_of_promotion e me ha
      exact (congrArg Face.gate hface).trans (PromotionPoint.released_of_step hp)
  · cases a with
    | notify p =>
      rcases Turn.of_within h with ⟨p', hp, heq⟩ | ⟨_, _, hr⟩
      · cases heq
        exact NotifyPoint.released_of_step hp
      · exact nomatch hr
    | _ =>
      rcases Turn.of_within h with ⟨_, _, heq⟩ | ⟨_, _, hr⟩
      · exact nomatch heq
      · exact nomatch hr

theorem reply_ne_callBack (hq : a.request? e = some q) (h : (a.reply e r).next = .inl b) :
    b.deed? ≠ some .callBack := by
  intro hb
  rcases deed?_eq_callBack hb with ⟨route, hb⟩ | rfl
  · rcases promotion?_of_reply h hb with hp | ⟨p, ha, hp⟩
    · exact nomatch hp
    · have hrequest : p.request? e = some q := by
        cases a with
        | start p' =>
          obtain ⟨blocking, rfl, -⟩ := promotion?_start ha
          exact hq
        | waiter p' =>
          obtain ⟨rfl, -⟩ := promotion?_waiter ha
          exact hq
        | _ => exact nomatch ha
      exact PromotionPoint.reply_ne_callBack hrequest hp
  · cases a with
    | notify p => exact nomatch hq
    | await p => exact nomatch hq
    | _ =>
      rcases Turn.of_within h with ⟨_, _, heq⟩ | ⟨_, _, hr⟩
      · exact nomatch heq
      · exact nomatch hr

/-- Only a promotion under way opens the gate. -/
theorem stage_of_openGate (h : a.deed? = some (.openGate route)) : a.stage = .promoting := by
  cases a with
  | start p =>
    cases p with
    | promote blocking p => exact PromotionPoint.stage_of_openGate h
    | _ => exact nomatch h
  | stop p => cases p <;> exact nomatch h
  | await p => exact nomatch h
  | notify p => cases p <;> exact nomatch h
  | waiter p =>
    cases p with
    | promote p => exact PromotionPoint.stage_of_openGate h
    | _ => exact nomatch h

/-- Only a stop that has made the elector stopped closes the gate. -/
theorem isPastHalt_of_closeGate (h : a.deed? = some .closeGate) :
    a.isPastHalt = true := by
  cases a with
  | stop p =>
    cases p with
    | closeGate before => rfl
    | _ => exact nomatch h
  | start p =>
    cases p with
    | promote blocking p => cases p <;> exact nomatch h
    | _ => exact nomatch h
  | await p => exact nomatch h
  | notify p => cases p <;> exact nomatch h
  | waiter p =>
    cases p with
    | promote p => cases p <;> exact nomatch h
    | _ => exact nomatch h

/-- What the point of an activity tells about the elector. -/
structure Fits (f : Face) (a : Activity) : Prop where
  promoting : a.stage = .promoting → f.status = .running ∨ f.status = .stopped
  halted : a.isPastHalt = true → f.status = .stopped
  calling : a.deed? = some .callBack → f.gate = .released

/-- What it tells does not go stale. -/
theorem Fits.precedes (h : a.Fits f) (hf : f.Precedes f') : a.Fits f' where
  promoting hstage := hf.running_or_stopped (h.promoting hstage)
  halted hpast := hf.stopped (h.halted hpast)
  calling hdeed := hf.released (h.calling hdeed)

theorem Fits.isTimely (h : a.Fits f) {d : Deed} (hd : a.deed? = some d) : d.IsTimely f := by
  cases d with
  | openGate route => exact h.promoting (stage_of_openGate hd)
  | closeGate => exact h.halted (isPastHalt_of_closeGate hd)
  | _ => trivial

theorem fits_entry (c : Entry) (f : Face) : c.activity.Fits f := by
  cases c <;> exact ⟨nofun, nofun, nofun⟩

theorem fits_await (f : Face) : (waiter .await).Fits f := ⟨nofun, nofun, nofun⟩

/-- After a step the next point fits as well. -/
theorem Fits.step (h : a.Fits e.face) (ready : a.isReady e me = true)
    (hb : (a.step e me).next = .inl b) : b.Fits (a.step e me).elector.face where
  promoting hstage := by
    have hpassage := step_passage ready
    have hafter : stageAfter (a.step e me).next = .promoting := by
      rw [hb]
      exact hstage
    rw [hafter] at hpassage
    rcases hpassage.promoting_before with hbefore | ⟨-, hrunning⟩
    · exact hpassage.running_or_stopped (h.promoting hbefore)
    · exact .inl hrunning
  halted hpast := by
    have hafter : pastHaltAfter (a.step e me).next = true := by
      rw [hb]
      exact hpast
    rcases isPastHalt_of_step hafter with hbefore | hstopped
    · exact (step_passage ready).stopped (h.halted hbefore)
    · exact hstopped
  calling hdeed := released_of_step hb hdeed

theorem Fits.reply (h : a.Fits e.face) (hq : a.request? e = some q)
    (hb : (a.reply e r).next = .inl b) : b.Fits e.face where
  promoting hstage := by
    have hpassage := reply_passage (r := r) hq
    have hafter : stageAfter (a.reply e r).next = .promoting := by
      rw [hb]
      exact hstage
    rw [hafter] at hpassage
    rcases hpassage.promoting_before with hbefore | ⟨hanswered, -⟩
    · exact h.promoting hbefore
    · exact nomatch hanswered
  halted hpast := by
    have hafter : pastHaltAfter (a.reply e r).next = true := by
      rw [hb]
      exact hpast
    exact h.halted (isPastHalt_of_reply hafter)
  calling hdeed := absurd hdeed (reply_ne_callBack hq hb)

theorem eq_halt (h : a.deed? = some .halt) : a = stop .halt := by
  cases a with
  | stop p =>
    cases p with
    | halt => rfl
    | _ => exact nomatch h
  | start p =>
    cases p with
    | promote blocking p => cases p <;> exact nomatch h
    | _ => exact nomatch h
  | await p => exact nomatch h
  | notify p => cases p <;> exact nomatch h
  | waiter p =>
    cases p with
    | promote p => cases p <;> exact nomatch h
    | _ => exact nomatch h

end Activity

/-! ## What holds throughout a run -/

namespace Node

variable {n n' : Node} {i : Incident} {is js : List Incident} {id : CallId} {a : Activity}
  {asked : Bool} {c c' : Chronicle}

theorem Undergoes.precedes (h : n.Undergoes i n') :
    n.elector.face.Precedes n'.elector.face := by
  rw [h.face]
  exact .after _ _

theorem live?_precedes (h : n.live? is = some (n', c)) :
    n.elector.face.Precedes n'.elector.face :=
  live?_keeps (P := fun m => n.elector.face.Precedes m.elector.face)
    (fun hu hm => hm.trans hu.precedes) h (.refl _)

/-- A call that has ended has ended before, or by the incident. -/
theorem Undergoes.of_ended (h : n.Undergoes i n') {r : Ending}
    (here : n'.course id = some (.ended r)) :
    n.course id = some (.ended r) ∨ ∃ a asked, n.course id = some (.going a asked) ∧
      ((a.step n.elector id).next = .inr r ∧ n'.elector = (a.step n.elector id).elector ∨
        ∃ x, (a.reply n.elector x).next = .inr r) := by
  cases h with
  | move made =>
    cases made with
    | call new =>
      rcases course_setCourse here with ⟨-, hc⟩ | ⟨-, here⟩
      · exact nomatch hc
      · exact .inl here
    | @step id' w a asked here' ready new =>
      rcases course_spawn here with ⟨-, -, -, hc⟩ | here
      · exact nomatch hc
      · rcases ended_carryOut here with ⟨rfl, hnext⟩ | ⟨-, here⟩
        · exact .inr ⟨a, asked, here', .inl ⟨hnext, spawn_elector ..⟩⟩
        · exact .inl here
    | ask here' request =>
      rcases course_setCourse here with ⟨-, hc⟩ | ⟨-, here⟩
      · exact nomatch hc
      · exact .inl here
    | @answer id' r a q here' request =>
      rcases ended_carryOut here with ⟨rfl, hnext⟩ | ⟨-, here⟩
      · exact .inr ⟨a, true, here', .inr ⟨r, hnext⟩⟩
      · exact .inl here
    | breakOff here' may =>
      rcases course_setCourse here with ⟨-, hc⟩ | ⟨-, here⟩
      · exact nomatch hc
      · exact .inl here
    | discard => exact .inl here
  | collapse here' =>
    rcases course_setCourse here with ⟨-, hc⟩ | ⟨-, here⟩
    · exact nomatch hc
    · exact .inl here

/-- A deed is done in a step of an activity. -/
theorem step_of_deed? {d : Deed} (hd : n.deed? i = some d) :
    ∃ id w a asked, i = .move (.step id w) ∧ n.course id = some (.going a asked) ∧
      a.deed? = some d := by
  cases i with
  | move m =>
    cases m with
    | step id w =>
      obtain ⟨a, ha, hd⟩ := Option.bind_eq_some_iff.mp hd
      rw [activity?] at ha
      split at ha
      · next b asked here =>
        cases ha
        exact ⟨id, w, a, asked, rfl, here, hd⟩
      · cases ha
    | _ => cases hd
  | collapse id => cases hd

/-- An elector becomes stopped by a step of a stop. -/
theorem Undergoes.halting (h : n.Undergoes i n') (before : n.elector.status ≠ .stopped)
    (after : n'.elector.status = .stopped) :
    ∃ id w asked, i = .move (.step id w) ∧ n.course id = some (.going (.stop .halt) asked) := by
  have hface : (n.elector.face.after (n.deed? i)).status = .stopped := by
    rw [← h.face]
    exact after
  have hdeed : n.deed? i = some .halt := by
    cases hd : n.deed? i with
    | none =>
      rw [hd] at hface
      exact absurd hface before
    | some d =>
      rw [hd] at hface
      rw [Deed.eq_halt before hface]
  obtain ⟨id, w, a, asked, hi, here, ha⟩ := step_of_deed? hdeed
  obtain rfl := Activity.eq_halt ha
  exact ⟨id, w, asked, hi, here⟩

/-- The incident at which an elector becomes stopped leaves a stop about to close the gate. -/
theorem Undergoes.closing (h : n.Undergoes i n') (before : n.elector.status ≠ .stopped)
    (after : n'.elector.status = .stopped) :
    ∃ id s, n'.course id = some (.going (.stop (.closeGate s)) false) := by
  obtain ⟨id, w, asked, rfl, here⟩ := h.halting before after
  exact ⟨id, n.elector.status, (h.course_elector_of_step here).1⟩

/-- What holds of a node throughout a run. -/
structure Coherent (n : Node) : Prop where
  consistent : n.elector.face.Consistent
  fits : ∀ id a asked, n.course id = some (.going a asked) → a.Fits n.elector.face
  ended : ∀ id r, n.course id = some (.ended (.stopped r)) → n.elector.status = .stopped
  /-- A stop writes the status and the gate without being suspended in between. -/
  closing : n.elector.status = .stopped → n.elector.gate = .pending →
    ∃ id s, n.course id = some (.going (.stop (.closeGate s)) false)

theorem coherent_fresh (i : Identity) (owner : String) (port : Nat) (dir : Option String) :
    (fresh (.fresh i owner port dir)).Coherent where
  consistent := ⟨fun _ => rfl, nofun⟩
  fits := nofun
  ended := nofun
  closing := nofun

theorem Coherent.undergoes (hn : n.Coherent) (h : n.Undergoes i n') : n'.Coherent where
  consistent := by
    rw [h.face]
    cases hd : n.deed? i with
    | none => exact hn.consistent
    | some d =>
      obtain ⟨id, w, a, asked, -, here, ha⟩ := step_of_deed? hd
      exact hn.consistent.apply ((hn.fits id a asked here).isTimely ha)
  fits := by
    refine h.forall_going (P := fun a _ => a.Fits n.elector.face)
      (Q := fun a _ => a.Fits n'.elector.face) hn.fits
      (fun a _ ha => ha.precedes h.precedes) (fun c => Activity.fits_entry c _)
      (Activity.fits_await _) (fun a q _ ha => ha.precedes h.precedes) ?_ ?_
    · intro id w a asked b hi here ready hnext ha
      subst hi
      have hface := h.face
      rw [deed?_of_step here, ← (a.step_deed n.elector id).1] at hface
      rw [hface]
      exact ha.step ready hnext
    · intro a q r b request hnext ha
      exact (ha.reply request hnext).precedes h.precedes
  ended id r here := by
    rcases h.of_ended here with here | ⟨a, asked, here, ⟨hnext, helector⟩ | ⟨x, hnext⟩⟩
    · exact h.precedes.stopped (hn.ended id r here)
    · have hafter : Activity.pastHaltAfter (a.step n.elector id).next = true := by
        rw [hnext]
        rfl
      rcases Activity.isPastHalt_of_step hafter with hpast | hstopped
      · exact h.precedes.stopped ((hn.fits id a asked here).halted hpast)
      · rw [helector]
        exact hstopped
    · exact absurd hnext Activity.reply_ne_stopped
  closing hstopped hpending := by
    by_cases hs : n.elector.status = .stopped
    · have hg : n.elector.gate = .pending := by
        by_contra hsettled
        have hsame := h.precedes.gate hsettled
        exact hsettled (hsame.symm.trans hpending)
      obtain ⟨id, s, here⟩ := hn.closing hs hg
      rcases h.stays here rfl rfl with here' | ⟨w, hi⟩
      · exact ⟨id, s, here'⟩
      · -- the stop goes on, and then the gate is settled
        subst hi
        have hface := h.face
        rw [deed?_of_step here] at hface
        have hgate := congrArg Face.gate hface
        exact absurd (hgate.symm.trans hpending) Deed.gate_closeGate_ne_pending
    · exact h.closing hs hstopped

theorem coherent_of_live? {i : Identity} {owner : String} {port : Nat} {dir : Option String}
    (h : (fresh (.fresh i owner port dir)).live? is = some (n, c)) : n.Coherent :=
  live?_keeps (fun hu hn => hn.undergoes hu) h (coherent_fresh i owner port dir)

end Node

/-! ## Starts that come too late -/

/-- What a start is told when its elector is stopped. -/
def StartResult.refusal : StartResult := .error (ElectionError.alreadyStarted .stopped)

/-- Where a start can be that was called when its elector was stopped. -/
def StartPoint.IsTurnedAway : StartPoint → Prop
  | arrive .. => True
  | queue .. => True
  | check .. => True
  | leave r => r = StartResult.refusal
  | _ => False

/-- Such a start makes no request, and if it ends it was refused. -/
def Course.IsTurnedAway : Course → Prop
  | going (.start p) asked => asked = false ∧ p.IsTurnedAway
  | ended r => r = .started StartResult.refusal
  | brokenOff => True
  | _ => False

theorem StartPoint.IsTurnedAway.request? {p : StartPoint} (h : p.IsTurnedAway) (e : Elector) :
    p.request? e = none := by
  cases p with
  | arrive address blocking => rfl
  | queue address blocking => rfl
  | check address blocking => rfl
  | leave r => rfl
  | _ => exact h.elim

theorem StartPoint.IsTurnedAway.step {p : StartPoint} (h : p.IsTurnedAway) {e : Elector}
    (hs : e.status = .stopped) (me : CallId) :
    (((Activity.start p).step e me).next.elim (Course.going · false) .ended).IsTurnedAway := by
  cases p with
  | arrive address blocking =>
    simp only [Activity.step, StartPoint.step, Turn.go, Turn.within]
    split <;> exact ⟨rfl, trivial⟩
  | queue address blocking => exact ⟨rfl, trivial⟩
  | check address blocking =>
    have hkept : (e.started || e.status != .uninitialized) = true := by
      rw [hs]
      exact Bool.or_true _
    have hstep : (check address blocking).step e me =
        .go e (leave (.error (ElectionError.alreadyStarted e.status))) := if_pos hkept
    rw [Activity.step, hstep, hs]
    exact ⟨rfl, rfl⟩
  | leave r =>
    have hr : r = StartResult.refusal := h
    exact congrArg Ending.started hr
  | _ => exact h.elim

namespace Node

variable {n n' : Node} {i : Incident} {js : List Incident} {id : CallId} {x y : Course}
  {c : Chronicle}

/-- Whatever happens to a start that is turned away, it stays away. -/
theorem Fate.isTurnedAway (h : n.Fate id i x y) (hx : x.IsTurnedAway)
    (hs : n.elector.status = .stopped) : y.IsTurnedAway ∧ i ≠ .move (.ask id) := by
  cases h with
  | aside ask => exact ⟨hx, ask⟩
  | @step w a asked ready =>
    cases a with
    | start p => exact ⟨hx.2.step hs id, nofun⟩
    | _ => exact hx.elim
  | @ask a q request =>
    cases a with
    | start p => exact nomatch (hx.2.request? n.elector).symm.trans request
    | _ => exact hx.elim
  | @answer a q r request =>
    cases a with
    | start p => exact nomatch hx.1
    | _ => exact hx.elim
  | breakOff may => exact ⟨trivial, nofun⟩
  | collapse => exact hx.elim

theorem live?_isTurnedAway (h : n.live? js = some (n', c)) (hs : n.elector.status = .stopped)
    (here : n.course id = some x) (hx : x.IsTurnedAway) :
    .move (.ask id) ∉ js ∧ ∃ y, n'.course id = some y ∧ y.IsTurnedAway := by
  induction js generalizing n c x with
  | nil =>
    obtain ⟨rfl, -⟩ := of_live?_nil h
    exact ⟨List.not_mem_nil, x, here, hx⟩
  | cons i js ih =>
    obtain ⟨n₁, c₁, hi, hlive, -⟩ := of_live?_cons h
    have hu := undergoes_of_undergo? hi
    obtain ⟨y, hy, hfate⟩ := hu.fate here
    obtain ⟨haway, hne⟩ := hfate.isTurnedAway hx hs
    obtain ⟨hask, hend⟩ := ih hlive (hu.precedes.stopped hs) hy haway
    refine ⟨fun hmem => ?_, hend⟩
    rcases List.mem_cons.mp hmem with heq | hmem
    · exact hne heq.symm
    · exact hask hmem

/-- Whoever is ready can take its step. -/
theorem exists_step {w : CallId} {a : Activity} {asked : Bool}
    (here : n.course id = some (.going a asked)) (ready : a.isReady n.elector id = true)
    (hw : w ≠ id) (neww : n.course w = none)
    (same : (a.step n.elector id).elector.waiter = n.elector.waiter) :
    ∃ n', n.undergo? (.move (.step id w)) = some n' ∧
      n'.elector = (a.step n.elector id).elector ∧ n'.course w = none ∧
      n'.course id = some ((a.step n.elector id).next.elim (.going · false) .ended) := by
  refine ⟨_, move?_of_makes (.step here ready neww), spawn_elector .., ?_,
    course_step n.elector here neww⟩
  have hnobody : ¬ (n.elector.waiter = .absent ∧
      (n.carryOut id (a.step n.elector id)).elector.waiter = .active) := by
    rintro ⟨habsent, hactive⟩
    exact nomatch (hactive.symm.trans same).trans habsent
  rw [spawn, if_neg hnobody]
  exact (Function.update_of_ne hw ..).trans neww

/-- With nobody at the turnstile a start goes through it at once, and comes to look at the status. -/
theorem exists_arrival (free : n.elector.init.holder = none) {w : CallId} (hw : w ≠ id)
    (neww : n.course w = none) (address : String) (blocking : Bool) :
    ∃ n', (n.setCourse id (.going (.start (.arrive address blocking)) false)).undergo?
        (.move (.step id w)) = some n' ∧
      n'.elector = { n.elector with init := n.elector.init.arrive id } ∧ n'.course w = none ∧
      n'.course id = some (.going (.start (.check address blocking)) false) := by
  obtain ⟨n', hmove, helector, neww', here⟩ :=
    exists_step (n := n.setCourse id (.going (.start (.arrive address blocking)) false))
      (Function.update_self ..) rfl hw ((Function.update_of_ne hw ..).trans neww) rfl
  refine ⟨n', hmove, helector, neww', here.trans ?_⟩
  have hinside : (n.elector.init.arrive id).isInside id = true := by
    rw [Turnstile.arrive, free]
    exact beq_self_eq_true _
  have hnext : ((Activity.start (.arrive address blocking)).step n.elector id).next =
      .inl (.start (.check address blocking)) := by
    simp only [Activity.step, StartPoint.step, Turn.go, Turn.within, hinside, if_true]
  exact congrArg (fun x => some (x.elim (Course.going · false) .ended)) hnext

/-- With nobody at the turnstile a start is turned away in three steps. -/
theorem exists_refusal (hs : n.elector.status = .stopped) (free : n.elector.init.holder = none)
    (new : n.course id = none) {w : CallId} (hw : w ≠ id) (neww : n.course w = none)
    (address : String) (blocking : Bool) :
    ∃ n' c, n.live? [.move (.call id (.start address blocking)), .move (.step id w),
        .move (.step id w), .move (.step id w)] = some (n', c) ∧
      n'.course id = some (.ended (.started StartResult.refusal)) := by
  have hcall := move?_of_makes (.call (c := .start address blocking) new)
  -- it goes through the turnstile, looks at the status, and leaves
  obtain ⟨n₂, hmove₂, helector₂, neww₂, here₂⟩ := exists_arrival free hw neww address blocking
  have hs₂ : n₂.elector.status = .stopped := by
    rw [helector₂]
    exact hs
  have hkept : (n₂.elector.started || n₂.elector.status != .uninitialized) = true := by
    rw [hs₂]
    exact Bool.or_true _
  have hcheck : (StartPoint.check address blocking).step n₂.elector id =
      .go n₂.elector (.leave StartResult.refusal) := by
    rw [StartPoint.step, if_pos hkept, hs₂]
    rfl
  have hturn : (Activity.start (.check address blocking)).step n₂.elector id =
      .go n₂.elector (.start (.leave StartResult.refusal)) := by
    rw [Activity.step, hcheck]
    rfl
  obtain ⟨n₃, hmove₃, -, neww₃, here₃⟩ := exists_step here₂ rfl hw neww₂ (by rw [hturn]; rfl)
  rw [hturn] at here₃
  obtain ⟨n₄, hmove₄, -, -, here₄⟩ := exists_step here₃ rfl hw neww₃ rfl
  exact ⟨n₄, _, live?_cons hcall (live?_cons hmove₂ (live?_cons hmove₃ (live?_cons hmove₄ rfl))),
    here₄⟩

/-! ## The life of an elector -/

/-- Against any lock service and any registry, and however calls, the waiter and dropped calls
interleave, the status of an elector and its gate keep to this: the status makes the moves of a
life, a settled gate stays as it is, and whenever everybody may be suspended the two fit together.
Once a stop has ended, a start makes no request; if it ends it was refused, and it ends in three
steps if nobody else is at the turnstile. -/
theorem lifecycle {i : Identity} {owner : String} {port : Nat} {dir : Option String}
    {is : List Incident}
    (reached : (fresh (.fresh i owner port dir)).live? is = some (n, c)) :
    ((n.elector.status = .uninitialized ∨ n.elector.status = .standby →
        n.elector.gate = .pending) ∧
      (n.elector.status = .running →
        n.elector.gate = .pending ∨ n.elector.gate = .released) ∧
      (n.AtRest → n.elector.status = .stopped →
        n.elector.gate = .released ∨ n.elector.gate = .closed)) ∧
    (∀ js n' c', n.live? js = some (n', c') →
      (n'.elector.status = n.elector.status ∨ n.elector.status.Leads n'.elector.status) ∧
      (n.elector.gate ≠ .pending → n'.elector.gate = n.elector.gate)) ∧
    ∀ before r, n.course before = some (.ended (.stopped r)) → ∀ id address blocking,
      (∀ js n' c', n.live? (.move (.call id (.start address blocking)) :: js) = some (n', c') →
        .move (.ask id) ∉ js ∧ ∃ x, n'.course id = some x ∧ x.IsTurnedAway) ∧
      (n.elector.init.holder = none → n.course id = none →
        ∀ w, w ≠ id → n.course w = none → ∃ n' c',
          n.live? [.move (.call id (.start address blocking)), .move (.step id w),
            .move (.step id w), .move (.step id w)] = some (n', c') ∧
          n'.course id = some (.ended (.started StartResult.refusal))) := by
  have hn := coherent_of_live? reached
  refine ⟨⟨hn.consistent.waiting, fun hrunning => ?_, fun hrest hstopped => ?_⟩, ?_, ?_⟩
  · have hopen : n.elector.gate ≠ .closed := hn.consistent.running hrunning
    cases hg : n.elector.gate with
    | pending => exact .inl rfl
    | released => exact .inr rfl
    | closed => exact absurd hg hopen
  · cases hg : n.elector.gate with
    | pending =>
      -- a stop would be between its two writes, where it is not suspended
      obtain ⟨id, s, here⟩ := hn.closing hstopped hg
      exact nomatch (mayRest_of_going here).symm.trans (hrest id)
    | released => exact .inl rfl
    | closed => exact .inr rfl
  · intro js n' c' h
    have hprecedes := live?_precedes h
    exact ⟨hprecedes.status, hprecedes.gate⟩
  · intro before r hended id address blocking
    have hs := hn.ended before r hended
    refine ⟨fun js n' c' h => ?_, fun free new w hw neww =>
      exists_refusal hs free new hw neww address blocking⟩
    obtain ⟨n₁, c₁, hi, hlive, -⟩ := of_live?_cons h
    cases undergoes_of_undergo? hi with
    | move made =>
      cases made with
      | call new =>
        exact live?_isTurnedAway (x := .going (.start (.arrive address blocking)) false) hlive hs
          (Function.update_self ..) ⟨rfl, trivial⟩

/-- A start wins the lock, a stop comes and ends, and another start is made. -/
def secondLife : List Incident :=
  List.map .move
    [.call 0 (.start "memory" false), .step 0 9, .step 0 9, .ask 0, .answer 0 (.ok true), .ask 0,
     .answer 0 (.ok true), .ask 0, .answer 0 (.ok true), .step 0 9, .ask 0, .answer 0 (.ok true),
     .step 0 9, .step 0 9, .ask 0, .answer 0 (.ok true), .ask 0, .answer 0 (.ok true), .step 0 9,
     .step 0 9, .step 0 9, .step 0 9, .call 1 .stop, .step 1 9, .step 1 9, .step 1 9, .step 1 9,
     .step 1 9, .ask 1, .answer 1 (.ok true), .step 1 9]

theorem lifecycle_secondLife :
    (blank.after secondLife).1.elector.status = .stopped ∧
    (blank.after secondLife).1.elector.gate = .released ∧
    ∃ n' c', (blank.after secondLife).1.live? [.move (.call 2 (.start "memory" false)),
        .move (.step 2 9), .move (.step 2 9), .move (.step 2 9)] = some (n', c') ∧
      n'.course 2 = some (.ended (.started StartResult.refusal)) := by
  have hreached : blank.live? secondLife = some (blank.after secondLife) := rfl
  obtain ⟨-, -, hlate⟩ := lifecycle hreached
  have hstopped : (blank.after secondLife).1.course 1 = some (.ended (.stopped (.ok ()))) := rfl
  obtain ⟨-, hrefused⟩ := hlate 1 (.ok ()) hstopped 2 "memory" false
  exact ⟨rfl, rfl, hrefused rfl rfl 9 (by decide) rfl⟩

end Node

end Primacy.Election
