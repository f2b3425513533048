/-
  Primacy.Proofs.Election.Candidacy

  What is certain of a start at each of its points.  A start that is past its look at the status
  keeps every stop out as long as it keeps the turnstile; behind an open gate the promotion that is
  under way is about to call back; a promotion is refused only once the elector is stopped.
-/
import Primacy.Proofs.Election.Delivery
import Primacy.Proofs.Election.Record

namespace Primacy.Election

/-! ## Ends of promotions -/

/-- Where a promotion ends, and how. -/
inductive PromotionPoint.Ends (e : Elector) : PromotionPoint → Promotion → Prop where
  | refused (may : e.status.canBecome .running = false) : Ends e .run .refused
  | requested (shutdown : e.shutdown = true) : Ends e .checkShutdown .superseded
  | settled (gate : e.gate ≠ .pending) : Ends e .openGate .superseded
  | promoted : Ends e .callBack .promoted

theorem PromotionPoint.ends_of_step {route : Route} {e : Elector} {p : PromotionPoint}
    {x : Promotion} (h : (p.step route e).next = .inr x) : p.Ends e x := by
  cases p with
  | run =>
    by_cases hmay : e.status.canBecome .running = true
    · rw [step, if_pos hmay] at h
      cases h
    · rw [step, if_neg hmay] at h
      cases h
      exact .refused (Bool.eq_false_iff.mpr hmay)
  | checkShutdown =>
    by_cases hs : e.shutdown = true
    · rw [step, if_pos hs] at h
      cases h
      exact .requested hs
    · rw [step, if_neg hs] at h
      cases h
  | openGate =>
    by_cases hg : e.gate = .pending
    · have hrelease : e.gate.release = (true, .released) := by
        rw [hg]
        rfl
      simp only [step, hrelease] at h
      cases h
    · have hrelease : e.gate.release = (false, e.gate) := Gate.settle_of_ne hg .released
      simp only [step, hrelease] at h
      cases h
      exact .settled hg
  | putHost => cases h
  | putPort => cases h
  | callBack =>
    cases h
    exact .promoted

/-- No answer ends a promotion. -/
theorem PromotionPoint.reply_ne_inr {e : Elector} {r : Reply} {p : PromotionPoint} {x : Promotion} :
    (p.reply e r).next ≠ .inr x := by
  cases p <;> cases r <;> exact nofun

/-! ## The ways of a start -/

namespace StartPoint

/-- Where a step of its own leads a start. -/
inductive Leads (e : Elector) : StartPoint → StartPoint ⊕ StartResult → Prop where
  | enter {address : String} {blocking : Bool} :
      Leads e (arrive address blocking) (.inl (check address blocking))
  | queueUp {address : String} {blocking : Bool} :
      Leads e (arrive address blocking) (.inl (queue address blocking))
  | pass {address : String} {blocking : Bool} :
      Leads e (queue address blocking) (.inl (check address blocking))
  | reject {address : String} {blocking : Bool} (err : Error) :
      Leads e (check address blocking) (.inl (leave (.error err)))
  | begin {address : String} {blocking : Bool} (fresh : e.status = .uninitialized) :
      Leads e (check address blocking) (.inl (connect address blocking))
  | compete {writes : List (String × String)} : Leads e (publish writes false) (.inl tryLock)
  | letThrough {writes : List (String × String)} : Leads e (publish writes true) (.inl leaveEarly)
  | standBy : Leads e standBy (.inl spawnWaiter)
  | fail (err : Error) : Leads e standBy (.inl (leave (.error err)))
  | spawn : Leads e spawnWaiter (.inl keepWaiter)
  | keep : Leads e keepWaiter (.inl (leave (.ok .standby)))
  | leaveEarly : Leads e leaveEarly (.inl await)
  | interrupt : Leads e await (.inr (.ok .stopped))
  | giveUp : Leads e checkShutdown (.inl unlockStopped)
  | goOn : Leads e checkShutdown (.inl (promote true .run))
  | promote {blocking : Bool} {x y : PromotionPoint} (step : (x.step .immediate e).next = .inl y) :
      Leads e (promote blocking x) (.inl (promote blocking y))
  | refused {blocking : Bool} (may : e.status.canBecome .running = false) :
      Leads e (promote blocking .run) (.inl (unlockRefused blocking))
  | promoted : Leads e (promote true .callBack) (.inr (.ok .running))
  | primary : Leads e (promote false .callBack) (.inl (readStatus false))
  | superseded {x : PromotionPoint} (step : (x.step .immediate e).next = .inr .superseded) :
      Leads e (promote true x) (.inr (.ok .stopped))
  | overtaken {x : PromotionPoint} (step : (x.step .immediate e).next = .inr .superseded) :
      Leads e (promote false x) (.inl (readStatus false))
  | read : Leads e (readStatus false) (.inl (leave (.ok e.status)))
  | tell : Leads e (readStatus true) (.inr (.ok e.status))
  | leave (r : StartResult) : Leads e (leave r) (.inr r)

/-- Where the answer to its request leads a start. -/
inductive Resumes (e : Elector) (r : Reply) : StartPoint → StartPoint ⊕ StartResult → Prop where
  | connected {address : String} {blocking : Bool} :
      Resumes e r (connect address blocking) (.inl (publish e.endpoints blocking))
  | unreachable {address : String} {blocking : Bool} (err : Error) :
      Resumes e r (connect address blocking) (.inl (leave (.error err)))
  | published {write : String × String} {writes : List (String × String)} {blocking : Bool} :
      Resumes e r (publish (write :: writes) blocking) (.inl (publish writes blocking))
  | granted : Resumes e r tryLock (.inl (promote false .run))
  | denied : Resumes e r tryLock (.inl standBy)
  | failed (err : Error) : Resumes e r tryLock (.inl (leave (.error err)))
  | acquired : Resumes e r await (.inl checkShutdown)
  | lost (err : Error) : Resumes e r await (.inr (.error err))
  | gaveUp : Resumes e r unlockStopped (.inr (.ok .stopped))
  | written {blocking : Bool} {x y : PromotionPoint} (reply : (x.reply e r).next = .inl y) :
      Resumes e r (promote blocking x) (.inl (promote blocking y))
  | gaveBack {blocking : Bool} :
      Resumes e r (unlockRefused blocking) (.inl (readStatus blocking))

variable {e : Elector} {me : CallId} {r : Reply} {p p' : StartPoint} {q : Request}

theorem leads_of_step (ready : p.isReady e me = true) : p.Leads e (p.step e me).next := by
  cases p with
  | arrive address blocking =>
    simp only [step, Turn.go]
    split
    · exact .enter
    · exact .queueUp
  | queue address blocking => exact .pass
  | check address blocking =>
    by_cases hkept : (e.started || e.status != .uninitialized) = true
    · rw [step, if_pos hkept]
      exact .reject _
    · rw [step, if_neg hkept]
      rw [Bool.or_eq_true, not_or, bne_iff_ne, not_not] at hkept
      exact .begin hkept.2
  | publish writes blocking =>
    cases blocking with
    | true => exact .letThrough
    | false => exact .compete
  | standBy =>
    rw [step]
    split
    · exact .standBy
    · exact .fail _
  | spawnWaiter => exact .spawn
  | keepWaiter => exact .keep
  | leaveEarly => exact .leaveEarly
  | await => exact .interrupt
  | checkShutdown =>
    simp only [step, Turn.go]
    split
    · exact .giveUp
    · exact .goOn
  | promote blocking x =>
    simp only [step, Turn.within]
    cases hx : (x.step .immediate e).next with
    | inl y => exact .promote hx
    | inr y =>
      have hends := PromotionPoint.ends_of_step hx
      cases y with
      | promoted =>
        cases hends
        cases blocking with
        | true => exact .promoted
        | false => exact .primary
      | refused =>
        cases hends with
        | refused may => exact .refused may
      | superseded =>
        cases blocking with
        | true => exact .superseded hx
        | false => exact .overtaken hx
  | readStatus blocking =>
    cases blocking with
    | true => exact .tell
    | false => exact .read
  | leave r => exact .leave r
  | connect address blocking => cases ready
  | tryLock => cases ready
  | unlockStopped => cases ready
  | unlockRefused blocking => cases ready

theorem resumes_of_reply (hq : p.request? e = some q) (r : Reply) :
    p.Resumes e r (p.reply e r).next := by
  cases p with
  | connect address blocking =>
    cases r with
    | ok granted => exact .connected
    | error err => exact .unreachable err
  | publish writes blocking =>
    cases writes with
    | nil => cases hq
    | cons write writes => cases r <;> exact .published
  | tryLock =>
    cases r with
    | ok granted =>
      cases granted with
      | true => exact .granted
      | false => exact .denied
    | error err => exact .failed err
  | await =>
    cases r with
    | ok granted => exact .acquired
    | error err => exact .lost err
  | unlockStopped => exact .gaveUp
  | promote blocking x =>
    simp only [reply, Turn.within]
    cases hx : (x.reply e r).next with
    | inl y => exact .written hx
    | inr y => exact absurd hx PromotionPoint.reply_ne_inr
  | unlockRefused blocking => exact .gaveBack
  | _ => cases hq

/-! ## What the points of a start tell -/

/-- Where a start comes to return as primary. -/
theorem running_of_step (h : p.Leads e (.inr (.ok .running))) :
    p = leave (.ok .running) ∨ p = promote true .callBack ∨
      p = readStatus true ∧ e.status = .running := by
  generalize hr : (Except.ok State.running : StartResult) = r at h
  cases h with
  | leave => exact .inl rfl
  | promoted => exact .inr (.inl rfl)
  | tell => exact .inr (.inr ⟨rfl, (Except.ok.inj hr).symm⟩)
  | interrupt => exact nomatch hr
  | superseded => exact nomatch hr

theorem Resumes.ne_running (h : p.Resumes e r (.inr (.ok .running))) : False := by
  generalize hr : (Except.ok State.running : StartResult) = r' at h
  cases h <;> exact nomatch hr

/-- The promotion of the start was refused, and it blocks or has yet to give the lock back. -/
def isRefused : StartPoint → Bool
  | unlockRefused _ => true
  | readStatus true => true
  | _ => false

/-- A start is refused where the elector may not run. -/
theorem isRefused_of_step (h : p.Leads e (.inl p')) (hp' : p'.isRefused = true) :
    ∃ blocking, p = promote blocking .run ∧ e.status.canBecome .running = false := by
  cases h with
  | @refused blocking may => exact ⟨blocking, rfl, may⟩
  | _ => exact nomatch hp'

theorem isRefused_of_reply (h : p.Resumes e r (.inl p')) (hp' : p'.isRefused = true) :
    p.isRefused = true := by
  cases h with
  | gaveBack => rfl
  | _ => exact nomatch hp'

/-- The start has opened the gate, or was superseded, and is on its way to return as primary. -/
def isVouched : StartPoint → Bool
  | promote _ .callBack => true
  | readStatus false => true
  | leave (.ok .running) => true
  | _ => false

theorem eq_callBack_of_isVouched {blocking : Bool} {x : PromotionPoint}
    (h : (promote blocking x).isVouched = true) : x = .callBack := by
  cases x <;> first | rfl | exact nomatch h

/-- A start gets on that way by opening the gate, or by a stop that supersedes it. -/
theorem isVouched_of_step (h : p.Leads e (.inl p')) (hp' : p'.isVouched = true) :
    p.isVouched = true ∨ (∃ blocking, p = promote blocking .openGate ∧ e.gate = .pending) ∨
      ∃ x, p = promote false x ∧ (x.step .immediate e).next = .inr .superseded := by
  cases h with
  | @promote blocking x y step =>
    obtain rfl := eq_callBack_of_isVouched hp'
    obtain ⟨rfl, hgate⟩ := PromotionPoint.eq_openGate_of_step step
    exact .inr (.inl ⟨blocking, rfl, hgate⟩)
  | primary => exact .inl rfl
  | @overtaken x step => exact .inr (.inr ⟨x, rfl, step⟩)
  | read => exact .inl rfl
  | _ => exact nomatch hp'

/-- No answer puts a start on that way, but the one that gives a refused lock back. -/
theorem isVouched_of_reply (hq : p.request? e = some q) (h : p.Resumes e r (.inl p'))
    (hp' : p'.isVouched = true) : p = unlockRefused false := by
  cases h with
  | written reply =>
    obtain rfl := eq_callBack_of_isVouched hp'
    exact absurd reply (PromotionPoint.reply_ne_callBack hq)
  | @gaveBack blocking =>
    cases blocking with
    | false => rfl
    | true => exact nomatch hp'
  | _ => exact nomatch hp'

/-- The start is past its look at the status, and keeps the turnstile. -/
def isSteady : StartPoint → Bool
  | check .. => false
  | leave (.error _) => false
  | p => p.isInside

theorem isInside_of_isSteady (h : p.isSteady = true) : p.isInside = true := by
  cases p with
  | check address blocking => exact nomatch h
  | leave r => rfl
  | _ => exact h

/-- Past its look at the status a start is steady only if nothing had happened to the elector. -/
theorem isSteady_of_step (h : p.Leads e (.inl p')) (hp' : p'.isSteady = true) :
    p.isSteady = true ∨ e.status = .uninitialized := by
  cases h with
  | begin fresh => exact .inr fresh
  | promote => exact .inl hp'
  | refused => exact .inl hp'
  | enter => exact nomatch hp'
  | queueUp => exact nomatch hp'
  | pass => exact nomatch hp'
  | reject => exact nomatch hp'
  | giveUp => exact nomatch hp'
  | goOn => exact nomatch hp'
  | _ => exact .inl rfl

theorem isSteady_of_reply (h : p.Resumes e r (.inl p')) (hp' : p'.isSteady = true) :
    p.isSteady = true := by
  cases h with
  | written => exact hp'
  | gaveBack => exact hp'
  | acquired => exact nomatch hp'
  | _ => rfl

end StartPoint

namespace Activity

variable {e : Elector} {me : CallId} {r : Reply} {a : Activity} {p : StartPoint} {x : StartResult}
  {q : Request}

/-- What returns as a start does is a start. -/
theorem eq_start_of_ended (ready : a.isReady e me = true)
    (h : (a.step e me).next = .inr (.started x)) : ∃ p, a = start p ∧ p.Leads e (.inr x) := by
  cases a with
  | start p =>
    obtain ⟨y, hy, hr⟩ := Turn.ended_of_within h
    cases hr
    exact ⟨p, rfl, hy ▸ StartPoint.leads_of_step ready⟩
  | _ =>
    obtain ⟨_, -, hr⟩ := Turn.ended_of_within h
    cases hr

theorem eq_start_of_reply_ended (hq : a.request? e = some q)
    (h : (a.reply e r).next = .inr (.started x)) : ∃ p, a = start p ∧ p.Resumes e r (.inr x) := by
  cases a with
  | start p =>
    obtain ⟨y, hy, hr⟩ := Turn.ended_of_within h
    cases hr
    exact ⟨p, rfl, hy ▸ StartPoint.resumes_of_reply hq r⟩
  | await p => exact nomatch hq
  | notify p => exact nomatch hq
  | _ =>
    obtain ⟨_, -, hr⟩ := Turn.ended_of_within h
    cases hr

/-- A start comes from a start. -/
theorem eq_start_of_step (ready : a.isReady e me = true)
    (h : (a.step e me).next = .inl (start p)) : ∃ p', a = start p' ∧ p'.Leads e (.inl p) := by
  cases a with
  | start p' =>
    rcases Turn.of_within h with ⟨p'', hp, heq⟩ | ⟨_, _, hr⟩
    · cases heq
      exact ⟨p', rfl, hp ▸ StartPoint.leads_of_step ready⟩
    · cases hr
  | _ =>
    rcases Turn.of_within h with ⟨_, _, heq⟩ | ⟨_, _, hr⟩
    · cases heq
    · cases hr

theorem eq_start_of_reply (hq : a.request? e = some q) (h : (a.reply e r).next = .inl (start p)) :
    ∃ p', a = start p' ∧ p'.request? e = some q ∧ p'.Resumes e r (.inl p) := by
  cases a with
  | start p' =>
    rcases Turn.of_within h with ⟨p'', hp, heq⟩ | ⟨_, _, hr⟩
    · cases heq
      exact ⟨p', rfl, hq, hp ▸ StartPoint.resumes_of_reply hq r⟩
    · cases hr
  | await p' => exact nomatch hq
  | notify p' => exact nomatch hq
  | _ =>
    rcases Turn.of_within h with ⟨_, _, heq⟩ | ⟨_, _, hr⟩
    · cases heq
    · cases hr

/-- Whoever promotes is past the look at the status. -/
theorem exists_promotion (h : a.stage = .promoting) :
    ∃ route x, a.promotion? = some (route, x) ∧ x ≠ .run := by
  rcases promote_of_promoting h with ⟨blocking, x, rfl⟩ | ⟨x, rfl⟩
  · refine ⟨.immediate, x, rfl, ?_⟩
    rintro rfl
    exact nomatch h
  · refine ⟨.deferred, x, rfl, ?_⟩
    rintro rfl
    exact nomatch h

end Activity

namespace Node

variable {n n' : Node} {i : Incident} {is : List Incident} {id id' : CallId} {a : Activity}
  {asked : Bool} {c : Chronicle} {p : StartPoint} {ident : Identity} {owner : String} {port : Nat}
  {dir : Option String}

/-- How a start gets to where it is after an incident. -/
inductive StartOrigin (n : Node) (id : CallId) (i : Incident) : StartPoint → Prop where
  | same {p : StartPoint} {asked : Bool}
      (before : n.course id = some (.going (.start p) asked)) : n.StartOrigin id i p
  | call {address : String} {blocking : Bool} : n.StartOrigin id i (.arrive address blocking)
  | step {p p' : StartPoint} {asked : Bool} {w : CallId} (now : i = .move (.step id w))
      (before : n.course id = some (.going (.start p) asked))
      (leads : p.Leads n.elector (.inl p')) : n.StartOrigin id i p'
  | reply {p p' : StartPoint} {q : Request} {r : Reply}
      (before : n.course id = some (.going (.start p) true))
      (request : p.request? n.elector = some q)
      (resumes : p.Resumes n.elector r (.inl p')) : n.StartOrigin id i p'

theorem Undergoes.start_origin (h : n.Undergoes i n')
    (here : n'.course id = some (.going (.start p) asked)) : n.StartOrigin id i p := by
  generalize ha : Activity.start p = a at here
  cases h.origin here with
  | aside other before =>
    subst ha
    exact .same before
  | @call entry =>
    cases entry <;> cases ha
    exact .call
  | spawn => exact nomatch ha
  | step before ready next =>
    subst ha
    obtain ⟨p₁, rfl, hleads⟩ := Activity.eq_start_of_step ready next
    exact .step rfl before hleads
  | ask before request =>
    subst ha
    exact .same before
  | answer before request next =>
    subst ha
    obtain ⟨p₁, rfl, hrequest, hresumes⟩ := Activity.eq_start_of_reply request next
    exact .reply before hrequest hresumes

/-! ## Starts that keep stops out -/

/-- Nobody stops the elector while a start keeps the turnstile. -/
theorem Undergoes.alive_of_inside (hn : n.Custody) (h : n.Undergoes i n')
    (here : n.course id = some (.going (.start p) asked)) (hp : p.isInside = true)
    (alive : n.elector.status ≠ .stopped) : n'.elector.status ≠ .stopped := by
  intro hstopped
  obtain ⟨id', w, asked', -, there⟩ := h.halting alive hstopped
  obtain rfl := hn.eq_of_isInside here hp there rfl
  exact nomatch here.symm.trans there

/-- While a start keeps the turnstile past its look at the status, the elector is not stopped. -/
theorem alive_of_isSteady
    (reached : (fresh (.fresh ident owner port dir)).live? is = some (n, c))
    (here : n.course id = some (.going (.start p) asked)) (hp : p.isSteady = true) :
    n.elector.status ≠ .stopped := by
  induction is using List.reverseRecOn generalizing n c p asked with
  | nil =>
    obtain ⟨rfl, -⟩ := of_live?_nil reached
    exact nofun
  | append_singleton is i ih =>
    obtain ⟨n₁, c₁, hlive, hi, -⟩ := of_live?_concat reached
    have hu := undergoes_of_undergo? hi
    -- whoever is steady before the incident keeps every stop out
    have hkeep : ∀ {p₁ : StartPoint} {asked₁ : Bool},
        n₁.course id = some (.going (.start p₁) asked₁) → p₁.isSteady = true →
        n.elector.status ≠ .stopped := fun hbefore hp₁ =>
      hu.alive_of_inside (custody_of_live? hlive) hbefore (StartPoint.isInside_of_isSteady hp₁)
        (ih hlive hbefore hp₁)
    cases hu.start_origin here with
    | same before => exact hkeep before hp
    | call => exact nomatch hp
    | step now before leads =>
      rcases StartPoint.isSteady_of_step leads hp with hp₁ | hstatus
      · exact hkeep before hp₁
      · intro hstopped
        have halive : n₁.elector.status ≠ .stopped := by
          rw [hstatus]
          exact nofun
        obtain ⟨id', w', asked', hhalt, there⟩ := hu.halting halive hstopped
        cases now.symm.trans hhalt
        exact nomatch before.symm.trans there
    | reply before request resumes =>
      exact hkeep before (StartPoint.isSteady_of_reply resumes hp)

/-! ## A promotion behind an open gate -/

/-- A promotion that is under way behind an open gate is the one that opened it, and is about to
call back. -/
theorem deed?_of_promoting
    (reached : (fresh (.fresh ident owner port dir)).live? is = some (n, c))
    (hgate : n.elector.gate = .released) (here : n.course id = some (.going a asked))
    (hstage : a.stage = .promoting) : a.deed? = some .callBack := by
  induction is using List.reverseRecOn generalizing n c a asked with
  | nil =>
    obtain ⟨rfl, -⟩ := of_live?_nil reached
    exact nomatch hgate
  | append_singleton is i ih =>
    obtain ⟨n₁, c₁, hlive, hi, -⟩ := of_live?_concat reached
    have hu := undergoes_of_undergo? hi
    have hn := coherent_of_live? hlive
    by_cases hopen : n₁.elector.gate = .released
    · have hstay : n₁.elector.status.canBecome .running ≠ true := by
        rcases hn.ran_of_released hopen with hs | hs <;> rw [hs] <;> exact nofun
      have hbefore := (hu.promoting_before ((stage_of_going here).trans hstage)).resolve_right
        fun h => hstay h.2
      obtain ⟨route, x, hpromotion, hx⟩ := Activity.exists_promotion hstage
      cases hu.origin here with
      | aside other before => exact ih hlive hopen before hstage
      | @call entry => cases entry <;> exact nomatch hstage
      | spawn => exact nomatch hstage
      | @step w b _ asked₁ before ready next =>
        -- the last step of a promotion leads into no other
        have hb := ih hlive hopen before ((stage_of_going before).symm.trans hbefore)
        rcases Activity.promotion?_of_step next hpromotion with hrun | ⟨x', hpromotion', hx'⟩
        · exact absurd hrun hx
        · rw [Activity.deed?_of_promotion hpromotion'] at hb
          obtain rfl := PromotionPoint.deed?_eq_callBack hb
          exact nomatch hx'
      | ask before request => exact ih hlive hopen before hstage
      | @answer b _ q r before request next =>
        have hb := ih hlive hopen before ((stage_of_going before).symm.trans hbefore)
        rcases Activity.promotion?_of_reply next hpromotion with hrun | ⟨x', hpromotion', hx'⟩
        · exact absurd hrun hx
        · rw [Activity.deed?_of_promotion hpromotion'] at hb
          obtain rfl := PromotionPoint.deed?_eq_callBack hb
          have hnone := (Activity.busy_of_attends (e := n₁.elector)
            (Activity.attends_of_promotion hpromotion')).2
          exact nomatch hnone.symm.trans request
    · -- the incident opens the gate, and whoever does so goes on to call back
      obtain ⟨id', _, _, _, b, _, -, -, -, -, hcourse, hb⟩ := hu.opening hopen hgate
      have hpromoting : n.ledger.stage id' = .promoting :=
        (stage_of_going hcourse).trans (Activity.stage_of_promotion hb)
      obtain rfl := eq_of_promoting reached ((stage_of_going here).trans hstage) hpromoting
      obtain ⟨rfl, -⟩ := Course.going.inj (Option.some.inj (here.symm.trans hcourse))
      exact Activity.deed?_of_promotion hb

/-! ## Promotions that are refused -/

/-- A promotion is refused only once the elector is stopped: the one that runs had the only lock. -/
theorem stopped_of_isRefused
    (reached : (fresh (.fresh ident owner port dir)).live? is = some (n, c))
    (here : n.course id = some (.going (.start p) asked)) (hp : p.isRefused = true) :
    n.elector.status = .stopped := by
  induction is using List.reverseRecOn generalizing n c p asked with
  | nil =>
    obtain ⟨rfl, -⟩ := of_live?_nil reached
    exact nomatch here
  | append_singleton is i ih =>
    obtain ⟨n₁, c₁, hlive, hi, -⟩ := of_live?_concat reached
    have hu := undergoes_of_undergo? hi
    refine hu.precedes.stopped ?_
    show n₁.elector.status = .stopped
    cases hu.start_origin here with
    | same before => exact ih hlive before hp
    | call => exact nomatch hp
    | @step p₁ _ asked₁ w now before leads =>
      obtain ⟨blocking, rfl, hmay⟩ := StartPoint.isRefused_of_step leads hp
      have hn := custody_of_live? hlive
      have hrunning : n₁.elector.status ≠ .running := by
        intro hrunning
        have hunasked : asked₁ = false := by
          cases asked₁ with
          | false => rfl
          | true => exact nomatch hn.pending id _ before
        have hhand : n₁.ledger.Holds (some id) := by
          refine ⟨?_, (asked_of_going before).trans hunasked⟩
          rw [stage_of_going before]
          rfl
        exact nomatch hn.balanced.sole none (some id) hrunning hhand
      cases hs : n₁.elector.status with
      | stopped => rfl
      | running => exact absurd hs hrunning
      | _ =>
        rw [hs] at hmay
        exact nomatch hmay
    | reply before request resumes =>
      exact ih hlive before (StartPoint.isRefused_of_reply resumes hp)

end Node

end Primacy.Election
