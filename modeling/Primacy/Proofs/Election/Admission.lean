/-
  Primacy.Proofs.Election.Admission

  Who is at the turnstile of an elector.  `Admission` lists what one turn of an activity can do
  there, and `Turnstile.Admits` is the rule that all of them keep: whoever the turnstile is handed
  to is past it or about to go through, everybody in the queue has queued up, and nobody queues at
  a turnstile that is free.
-/
import Primacy.Proofs.Election.Custody

namespace Primacy.Election

/-! ## Places at a turnstile -/

/-- Where an activity stands to the turnstile. -/
inductive Place where
  | outside
  | queueing
  | inside
  deriving DecidableEq

def StartPoint.place : StartPoint → Place
  | queue .. => .queueing
  | p => if p.isInside then .inside else .outside

def StopPoint.place : StopPoint → Place
  | queue => .queueing
  | p => if p.isInside then .inside else .outside

namespace Activity

def place : Activity → Place
  | start p => p.place
  | stop p => p.place
  | _ => .outside

theorem place_eq_inside_iff (a : Activity) : a.place = .inside ↔ a.isInside = true := by
  cases a with
  | start p =>
    show p.place = .inside ↔ p.isInside = true
    cases p with
    | queue address blocking => exact iff_of_false nofun nofun
    | promote blocking p =>
      cases blocking
      · exact iff_of_true rfl rfl
      · exact iff_of_false nofun nofun
    | unlockRefused blocking =>
      cases blocking
      · exact iff_of_true rfl rfl
      · exact iff_of_false nofun nofun
    | readStatus blocking =>
      cases blocking
      · exact iff_of_true rfl rfl
      · exact iff_of_false nofun nofun
    | arrive address blocking => exact iff_of_false nofun nofun
    | await => exact iff_of_false nofun nofun
    | checkShutdown => exact iff_of_false nofun nofun
    | unlockStopped => exact iff_of_false nofun nofun
    | _ => exact iff_of_true rfl rfl
  | stop p => cases p <;> first | exact iff_of_true rfl rfl | exact iff_of_false nofun nofun
  | _ => exact iff_of_false nofun nofun

end Activity

/-- The place that a turn leads to. -/
def placeAfter : Activity ⊕ Ending → Place := Sum.elim Activity.place fun _ => .outside

/-- A turn of the activity `me` leads from one place to another and changes the turnstile from `t`
to `t'`. -/
inductive Admission (me : CallId) (t : Turnstile) : (t' : Turnstile) → Place → Place → Prop where
  | stay {p : Place} : Admission me t t p p
  | enter (free : t.holder = none) : Admission me t (t.arrive me) .outside .inside
  | queueUp (taken : t.holder ≠ none) : Admission me t (t.arrive me) .outside .queueing
  | goThrough (turn : t.holder = some me) : Admission me t t .queueing .inside
  | leave : Admission me t t.leave .inside .outside
  | giveUp : Admission me t (t.abandon me) .queueing .outside

/-- Whoever has the turnstile keeps it until he goes away himself. -/
theorem Admission.keeps {me id : CallId} {t t' : Turnstile} {p p' : Place}
    (h : Admission me t t' p p') (hinside : p = .inside → t.holder = some me)
    (hholder : t.holder = some id) (hne : id ≠ me) : t'.holder = some id := by
  cases h with
  | stay => exact hholder
  | enter free => exact nomatch free.symm.trans hholder
  | queueUp taken => rw [Turnstile.arrive, hholder]
  | goThrough turn => exact hholder
  | leave => exact absurd (Option.some.inj (hholder.symm.trans (hinside rfl))) hne
  | giveUp =>
    have hout : ¬ t.isInside me = true := by
      rw [Turnstile.isInside_iff, hholder]
      exact fun h => hne (Option.some.inj h)
    rw [Turnstile.abandon, if_neg hout]
    exact hholder

namespace Turnstile

variable {t t' : Turnstile} {me id : CallId}

theorem arrive_of_free (h : t.holder = none) : t.arrive me = ⟨some me, t.queue⟩ := by
  rw [arrive, h]

theorem arrive_of_taken {other : CallId} (h : t.holder = some other) :
    t.arrive me = ⟨some other, t.queue ++ [me]⟩ := by
  rw [arrive, h]

theorem isInside_arrive_iff (hme : t.holder ≠ some me) :
    (t.arrive me).isInside me = true ↔ t.holder = none := by
  rw [isInside_iff]
  cases h : t.holder with
  | none =>
    rw [arrive_of_free h]
    exact iff_of_true rfl rfl
  | some other =>
    rw [arrive_of_taken h]
    exact iff_of_false (fun hin => hme (h.trans hin)) nofun

/-- Whoever arrives goes through or queues up. -/
theorem arrive_admission (hme : t.holder ≠ some me) :
    Admission me t (t.arrive me) .outside
      (if (t.arrive me).isInside me then .inside else .queueing) := by
  by_cases h : t.holder = none
  · rw [if_pos ((isInside_arrive_iff hme).mpr h)]
    exact .enter h
  · rw [if_neg fun hin => h ((isInside_arrive_iff hme).mp hin)]
    exact .queueUp h

/-! ## The rule of admission -/

/-- The turnstile and the places of all activities fit together; `ρ` gives the place of each. -/
structure Admits (t : Turnstile) (ρ : CallId → Place) : Prop where
  inside : ∀ id, ρ id = .inside → t.holder = some id
  holder : ∀ id, t.holder = some id → ρ id ≠ .outside
  queued : ∀ id ∈ t.queue, ρ id = .queueing
  queueing : ∀ id, ρ id = .queueing → t.holder = some id ∨ id ∈ t.queue
  free : t.holder = none → t.queue = []
  nodup : t.queue.Nodup
  apart : ∀ id, t.holder = some id → id ∉ t.queue

namespace Admits

variable {ρ : CallId → Place} {p : Place}

theorem free_outside : Turnstile.free.Admits fun _ => .outside where
  inside _ h := nomatch h
  holder _ h := nomatch h
  queued _ h := nomatch h
  queueing _ h := nomatch h
  free _ := rfl
  nodup := List.nodup_nil
  apart _ h := nomatch h

/-- Whoever is elsewhere than at the turnstile does not have it. -/
theorem holder_ne (h : t.Admits ρ) (hme : ρ me = .outside) : t.holder ≠ some me :=
  fun hholder => h.holder me hholder hme

theorem not_mem_queue (h : t.Admits ρ) (hme : ρ me ≠ .queueing) : me ∉ t.queue :=
  fun hmem => hme (h.queued me hmem)

/-- Somebody comes to a free turnstile. -/
theorem enter (h : t.Admits ρ) (hfree : t.holder = none) :
    (t.arrive me).Admits (Function.update ρ me .inside) := by
  have hqueue := h.free hfree
  have harrive : t.arrive me = ⟨some me, []⟩ := by rw [arrive_of_free hfree, hqueue]
  -- nobody else is past a free turnstile or queues up at it
  have hother : ∀ id, id ≠ me → ρ id = .outside := by
    intro id _
    cases hρ : ρ id with
    | outside => rfl
    | inside => exact nomatch hfree.symm.trans (h.inside id hρ)
    | queueing =>
      rcases h.queueing id hρ with hholder | hmem
      · exact nomatch hfree.symm.trans hholder
      · rw [hqueue] at hmem
        exact nomatch hmem
  have hself : ∀ id, Function.update ρ me .inside id ≠ .outside → id = me := by
    intro id hne
    by_contra hid
    rw [Function.update_of_ne hid] at hne
    exact hne (hother id hid)
  rw [harrive]
  constructor
  case inside =>
    intro id hin
    rw [hself id (by rw [hin]; exact nofun)]
  case holder =>
    rintro id ⟨⟩
    rw [Function.update_self]
    exact nofun
  case queueing =>
    intro id hq
    have hid := hself id (by rw [hq]; exact nofun)
    rw [hid, Function.update_self] at hq
    exact nomatch hq
  case nodup => exact List.nodup_nil
  case apart => exact fun _ _ => List.not_mem_nil
  case queued => exact nofun
  case free => exact nofun

/-- Somebody comes to a turnstile that another one has. -/
theorem queueUp (h : t.Admits ρ) (hme : ρ me = .outside) (htaken : t.holder ≠ none) :
    (t.arrive me).Admits (Function.update ρ me .queueing) := by
  obtain ⟨other, hholder⟩ := Option.ne_none_iff_exists'.mp htaken
  have harrive : t.arrive me = ⟨some other, t.queue ++ [me]⟩ := arrive_of_taken hholder
  have hne : other ≠ me := by
    rintro rfl
    exact h.holder_ne hme hholder
  have hnew : me ∉ t.queue := h.not_mem_queue (by rw [hme]; exact nofun)
  rw [harrive]
  constructor
  case inside =>
    intro id hin
    by_cases hid : id = me
    · rw [hid, Function.update_self] at hin
      exact nomatch hin
    · rw [Function.update_of_ne hid] at hin
      exact hholder.symm.trans (h.inside id hin)
  case holder =>
    rintro id ⟨⟩
    rw [Function.update_of_ne hne]
    exact h.holder other hholder
  case queued =>
    intro id hid
    by_cases hself : id = me
    · rw [hself, Function.update_self]
    · rw [Function.update_of_ne hself]
      have hmem := (List.mem_append.mp hid).resolve_right fun hlast =>
        hself (List.mem_singleton.mp hlast)
      exact h.queued id hmem
  case queueing =>
    intro id hq
    by_cases hid : id = me
    · exact .inr (List.mem_append_right _ (List.mem_singleton.mpr hid))
    · rw [Function.update_of_ne hid] at hq
      rcases h.queueing id hq with hhas | hmem
      · exact .inl (hholder.symm.trans hhas)
      · exact .inr (List.mem_append_left _ hmem)
  case free => exact nofun
  case nodup =>
    rw [List.nodup_append]
    refine ⟨h.nodup, List.nodup_cons.mpr ⟨List.not_mem_nil, List.nodup_nil⟩, ?_⟩
    rintro id hid id' hid' rfl
    rw [List.mem_singleton.mp hid'] at hid
    exact hnew hid
  case apart =>
    rintro id ⟨⟩ hmem
    rcases List.mem_append.mp hmem with hmem | hmem
    · exact h.apart other hholder hmem
    · exact hne (List.mem_singleton.mp hmem)

/-- Whoever has the turnstile goes away, and the first in the queue is next. -/
theorem leave (h : t.Admits ρ) (hholder : t.holder = some me) :
    t.leave.Admits (Function.update ρ me .outside) := by
  have hnotin := h.apart me hholder
  have hplace : ∀ id ∈ t.queue, Function.update ρ me .outside id = .queueing := by
    intro id hid
    have hne : id ≠ me := by
      rintro rfl
      exact hnotin hid
    rw [Function.update_of_ne hne]
    exact h.queued id hid
  constructor
  case inside =>
    intro id hin
    by_cases hid : id = me
    · rw [hid, Function.update_self] at hin
      exact nomatch hin
    · rw [Function.update_of_ne hid] at hin
      exact absurd (Option.some.inj (hholder.symm.trans (h.inside id hin))).symm hid
  case holder =>
    intro id hid
    have hhead : t.queue.head? = some id := hid
    rw [hplace id (List.mem_of_mem_head? hhead)]
    exact nofun
  case queued => exact fun id hid => hplace id (List.mem_of_mem_tail hid)
  case queueing =>
    intro id hq
    by_cases hid : id = me
    · rw [hid, Function.update_self] at hq
      exact nomatch hq
    · rw [Function.update_of_ne hid] at hq
      have hmem := (h.queueing id hq).resolve_left fun hhas =>
        hid (Option.some.inj (hholder.symm.trans hhas)).symm
      -- the turnstile is handed to the first, and the others wait on
      show t.queue.head? = some id ∨ id ∈ t.queue.tail
      cases hqueue : t.queue with
      | nil => exact nomatch hqueue ▸ hmem
      | cons first rest =>
        rw [hqueue] at hmem
        rcases List.mem_cons.mp hmem with rfl | hmem
        · exact .inl rfl
        · exact .inr hmem
  case free =>
    intro hnone
    have hhead : t.queue.head? = none := hnone
    show t.queue.tail = []
    rw [List.head?_eq_none_iff.mp hhead]
    rfl
  case nodup => exact h.nodup.tail
  case apart =>
    intro id hid
    have hhead : t.queue.head? = some id := hid
    show id ∉ t.queue.tail
    have hnodup := h.nodup
    cases hqueue : t.queue with
    | nil => exact List.not_mem_nil
    | cons first rest =>
      rw [hqueue] at hhead hnodup
      cases hhead
      exact (List.nodup_cons.mp hnodup).1

/-- Somebody in the queue gives up. -/
theorem giveUp (h : t.Admits ρ) (hme : ρ me = .queueing) :
    (t.abandon me).Admits (Function.update ρ me .outside) := by
  by_cases hin : t.isInside me = true
  · unfold abandon
    rw [if_pos hin]
    exact h.leave ((isInside_iff ..).mp hin)
  · -- it was not his turn yet, so he leaves the queue only
    have hne : t.holder ≠ some me := fun hholder => hin ((isInside_iff ..).mpr hholder)
    have hmem : ∀ id, id ∈ t.queue.filter (· != me) ↔ id ∈ t.queue ∧ id ≠ me := by
      intro id
      rw [List.mem_filter, bne_iff_ne]
    unfold abandon
    rw [if_neg hin]
    constructor
    case inside =>
      intro id hid
      by_cases hself : id = me
      · rw [hself, Function.update_self] at hid
        exact nomatch hid
      · rw [Function.update_of_ne hself] at hid
        exact h.inside id hid
    case holder =>
      intro id hid
      have hself : id ≠ me := by
        rintro rfl
        exact hne hid
      rw [Function.update_of_ne hself]
      exact h.holder id hid
    case queued =>
      intro id hid
      obtain ⟨hbefore, hself⟩ := (hmem id).mp hid
      rw [Function.update_of_ne hself]
      exact h.queued id hbefore
    case queueing =>
      intro id hq
      have hself : id ≠ me := by
        rintro rfl
        rw [Function.update_self] at hq
        exact nomatch hq
      rw [Function.update_of_ne hself] at hq
      rcases h.queueing id hq with hhas | hid
      · exact .inl hhas
      · exact .inr ((hmem id).mpr ⟨hid, hself⟩)
    case free =>
      intro hnone
      show t.queue.filter (· != me) = []
      rw [h.free hnone]
      rfl
    case nodup => exact h.nodup.filter _
    case apart => exact fun id hid hleft => h.apart id hid ((hmem id).mp hleft).1

/-- Every turn keeps the rule. -/
theorem turn (h : t.Admits ρ) (ha : Admission me t t' (ρ me) p) :
    t'.Admits (Function.update ρ me p) := by
  generalize hρ : ρ me = before at ha
  cases ha with
  | stay =>
    rw [← hρ, Function.update_eq_self]
    exact h
  | enter free => exact h.enter free
  | queueUp taken => exact h.queueUp hρ taken
  | goThrough turn =>
    -- only its place changes, and the turnstile is handed to it already
    constructor
    case inside =>
      intro id hin
      by_cases hself : id = me
      · rw [hself]
        exact turn
      · rw [Function.update_of_ne hself] at hin
        exact h.inside id hin
    case holder =>
      intro id hid
      have hself : id = me := Option.some.inj (hid.symm.trans turn)
      rw [hself, Function.update_self]
      exact nofun
    case queued =>
      intro id hid
      have hself : id ≠ me := by
        rintro rfl
        exact h.apart id turn hid
      rw [Function.update_of_ne hself]
      exact h.queued id hid
    case queueing =>
      intro id hq
      have hself : id ≠ me := by
        rintro rfl
        rw [Function.update_self] at hq
        exact nomatch hq
      rw [Function.update_of_ne hself] at hq
      exact h.queueing id hq
    case free => exact h.free
    case nodup => exact h.nodup
    case apart => exact h.apart
  | leave => exact h.leave (h.inside me hρ)
  | giveUp => exact h.giveUp hρ

end Admits

end Turnstile

/-! ## What turns do at the turnstile -/

namespace StartPoint

/-- A promotion leaves its start on the side of the turnstile that it is on. -/
theorem place_of_promote {blocking : Bool} {p : PromotionPoint}
    (t : Turn PromotionPoint Promotion) :
    ((t.within (promote blocking) (afterPromotion blocking)).next.elim place fun _ => .outside) =
      (promote blocking p).place := by
  rw [Turn.elim_within]
  cases t.next with
  | inl q => rfl
  | inr r => cases r <;> cases blocking <;> rfl

theorem step_admission (e : Elector) (me : CallId) (p : StartPoint)
    (hready : p.isReady e me = true) (hme : p.place = .outside → e.init.holder ≠ some me) :
    Admission me e.init (p.step e me).elector.init p.place
      ((p.step e me).next.elim place fun _ => .outside) := by
  cases p with
  | arrive address blocking =>
    have hplace : (((arrive address blocking).step e me).next.elim place fun _ => .outside) =
        if (e.init.arrive me).isInside me then .inside else .queueing :=
      apply_ite place ..
    rw [hplace]
    exact Turnstile.arrive_admission (hme rfl)
  | queue address blocking => exact .goThrough ((Turnstile.isInside_iff ..).mp hready)
  | check address blocking =>
    rw [step]
    split <;> exact .stay
  | connect address blocking => simp [isReady, request?] at hready
  | publish writes blocking => cases blocking <;> exact .stay
  | tryLock => simp [isReady, request?] at hready
  | standBy =>
    rw [step]
    split <;> exact .stay
  | spawnWaiter => exact .stay
  | keepWaiter => exact .stay
  | leaveEarly => exact .leave
  | await => exact .stay
  | checkShutdown =>
    rw [step]
    split <;> exact .stay
  | unlockStopped => simp [isReady, request?] at hready
  | promote blocking p =>
    rw [step, place_of_promote (p := p), Turn.within_elector, p.step_init]
    exact .stay
  | unlockRefused blocking => simp [isReady, request?] at hready
  | readStatus blocking => cases blocking <;> exact .stay
  | leave result => exact .leave

/-- No answer leads past the turnstile or away from it. -/
theorem place_of_reply (e : Elector) (r : Reply) (p : StartPoint) (q : Request)
    (hq : p.request? e = some q) :
    ((p.reply e r).next.elim place fun _ => .outside) = p.place := by
  cases p with
  | connect address blocking => cases r <;> rfl
  | publish writes blocking =>
    cases writes with
    | nil => exact nomatch hq
    | cons w writes => cases r <;> rfl
  | tryLock =>
    cases r with
    | ok granted => cases granted <;> rfl
    | error err => rfl
  | await => cases r <;> rfl
  | unlockStopped => rfl
  | promote blocking p => exact place_of_promote (p.reply e r)
  | unlockRefused blocking => rfl
  | _ => exact nomatch hq

end StartPoint

theorem StopPoint.step_admission (e : Elector) (me : CallId) (p : StopPoint)
    (hready : p.isReady e me = true) (hme : p.place = .outside → e.init.holder ≠ some me) :
    Admission me e.init (p.step e me).elector.init p.place
      ((p.step e me).next.elim place fun _ => .outside) := by
  cases p with
  | request => exact .stay
  | arrive =>
    have hplace : ((arrive.step e me).next.elim place fun _ => .outside) =
        if (e.init.arrive me).isInside me then .inside else .queueing :=
      apply_ite place ..
    rw [hplace]
    exact Turnstile.arrive_admission (hme rfl)
  | queue => exact .goThrough ((Turnstile.isInside_iff ..).mp hready)
  | takeWaiter =>
    rw [step]
    split <;> exact .stay
  | join => exact .stay
  | halt => exact .stay
  | closeGate before => cases before <;> exact .stay
  | unlock => simp [isReady] at hready
  | leave result => exact .leave

namespace Activity

variable {e : Elector} {me : CallId} {a : Activity} {q : Request} {r : Reply}

theorem step_admission (hready : a.isReady e me = true)
    (hme : a.place = .outside → e.init.holder ≠ some me) :
    Admission me e.init (a.step e me).elector.init a.place (placeAfter (a.step e me).next) := by
  cases a with
  | start p =>
    rw [step, placeAfter, Turn.elim_within]
    exact p.step_admission e me hready hme
  | stop p =>
    rw [step, placeAfter, Turn.elim_within]
    exact p.step_admission e me hready hme
  | await p =>
    have houtside : placeAfter ((await p).step e me).next = .outside :=
      Turn.elim_within_const (fun _ => rfl) fun _ => rfl
    have hinit : ((await p).step e me).elector.init = e.init := by
      rw [step, Turn.within_elector, p.step_elector]
    rw [houtside, hinit]
    exact .stay
  | notify p =>
    have houtside : placeAfter ((notify p).step e me).next = .outside :=
      Turn.elim_within_const (fun _ => rfl) fun _ => rfl
    obtain ⟨_, h⟩ := p.step_elector e
    have hinit : ((notify p).step e me).elector.init = e.init := by
      rw [step, Turn.within_elector, h]
    rw [houtside, hinit]
    exact .stay
  | waiter p =>
    have houtside : placeAfter ((waiter p).step e me).next = .outside :=
      Turn.elim_within_const (fun _ => rfl) fun _ => rfl
    obtain ⟨_, _, _, _, h⟩ := p.step_elector e
    have hinit : ((waiter p).step e me).elector.init = e.init := by
      rw [step, Turn.within_elector, h]
    rw [houtside, hinit]
    exact .stay

theorem reply_init (a : Activity) (e : Elector) (r : Reply) :
    (a.reply e r).elector.init = e.init := by
  cases a with
  | start p =>
    obtain ⟨_, h⟩ := p.reply_elector e r
    rw [reply, Turn.within_elector, h]
  | stop p => rw [reply, Turn.within_elector, p.reply_elector]
  | waiter p =>
    obtain ⟨_, _, h⟩ := p.reply_elector e r
    rw [reply, Turn.within_elector, h]
  | _ => rfl

theorem place_of_reply (hq : a.request? e = some q) :
    placeAfter (a.reply e r).next = a.place := by
  cases a with
  | start p =>
    dsimp only [reply, placeAfter]
    rw [Turn.elim_within]
    exact p.place_of_reply e r q hq
  | stop p =>
    dsimp only [reply, placeAfter]
    rw [Turn.elim_within]
    cases p with
    | unlock => cases r <;> rfl
    | _ => exact nomatch hq
  | waiter p => exact Turn.elim_within_const (fun _ => rfl) fun _ => rfl
  | await p => exact nomatch hq
  | notify p => exact nomatch hq

/-- Somebody in the queue has no more to do than to go through when the turnstile is handed to
him. -/
theorem isReady_of_queueing (ha : a.place = .queueing) (e : Elector) (me : CallId) :
    a.isReady e me = e.init.isInside me ∧ a.request? e = none := by
  cases a with
  | start p =>
    cases p with
    | queue address blocking => exact ⟨rfl, rfl⟩
    | promote blocking p => cases blocking <;> exact nomatch ha
    | unlockRefused blocking => cases blocking <;> exact nomatch ha
    | readStatus blocking => cases blocking <;> exact nomatch ha
    | _ => exact nomatch ha
  | stop p =>
    cases p with
    | queue => exact ⟨rfl, rfl⟩
    | _ => exact nomatch ha
  | await p => exact nomatch ha
  | notify p => exact nomatch ha
  | waiter p => exact nomatch ha

/-- Whoever breaks off is not at the turnstile any more. -/
theorem abandon_admission (a : Activity) (e : Elector) (me : CallId) :
    Admission me e.init (a.abandon e me).init a.place .outside := by
  cases a with
  | start p =>
    show Admission me e.init (p.abandon e me).init p.place .outside
    cases p with
    | queue address blocking => exact .giveUp
    | promote blocking p => cases blocking <;> first | exact .stay | exact .leave
    | unlockRefused blocking => cases blocking <;> first | exact .stay | exact .leave
    | readStatus blocking => cases blocking <;> first | exact .stay | exact .leave
    | arrive address blocking => exact .stay
    | await => exact .stay
    | checkShutdown => exact .stay
    | unlockStopped => exact .stay
    | _ => exact .leave
  | stop p =>
    show Admission me e.init (p.abandon e me).init p.place .outside
    cases p with
    | queue => exact .giveUp
    | request => exact .stay
    | arrive => exact .stay
    | _ => exact .leave
  | _ => exact .stay

end Activity

/-! ## The turnstile of a node -/

def Course.place : Course → Place
  | going a _ => a.place
  | _ => .outside

namespace Node

def place (n : Node) (id : CallId) : Place := (n.course id).elim .outside Course.place

variable {n n' : Node} {id : CallId} {a : Activity} {asked : Bool}

theorem place_of_going (h : n.course id = some (.going a asked)) : n.place id = a.place := by
  rw [place, h]
  rfl

theorem place_setCourse (n : Node) (id : CallId) (c : Course) :
    (n.setCourse id c).place = Function.update n.place id c.place := by
  funext id'
  show (Function.update n.course id (some c) id').elim .outside Course.place = _
  by_cases h : id' = id
  · rw [h, Function.update_self, Function.update_self]
    rfl
  · rw [Function.update_of_ne h, Function.update_of_ne h]
    rfl

theorem place_carryOut (n : Node) (id : CallId) (t : Turn Activity Ending) :
    (n.carryOut id t).place = Function.update n.place id (placeAfter t.next) := by
  have hplace : Course.place (t.next.elim (.going · false) .ended) = placeAfter t.next := by
    cases t.next <;> rfl
  rw [← hplace]
  exact place_setCourse n id _

/-- Setting the course of somebody who stays at his place. -/
theorem place_setCourse_same {c : Course} (h : c.place = n.place id) :
    (n.setCourse id c).place = n.place := by
  rw [place_setCourse, h, Function.update_eq_self]

/-- The turnstile of a node and the places of its activities fit together. -/
def Admits (n : Node) : Prop := n.elector.init.Admits n.place

theorem Admits.step_admission (hn : n.Admits) (here : n.course id = some (.going a asked))
    (ready : a.isReady n.elector id = true) :
    Admission id n.elector.init (a.step n.elector id).elector.init (n.place id)
      (placeAfter (a.step n.elector id).next) := by
  rw [place_of_going here]
  refine Activity.step_admission ready fun houtside => hn.holder_ne ?_
  rw [place_of_going here, houtside]

/-- Every move keeps the rule of admission. -/
theorem Admits.makes {m : Move} (hn : n.Admits) (h : n.Makes m n') : n'.Admits := by
  cases h with
  | @call id c new =>
    have hplace : (n.setCourse id (.going c.activity false)).place = n.place := by
      refine place_setCourse_same ?_
      unfold place
      rw [new]
      cases c <;> rfl
    show n.elector.init.Admits (n.setCourse id (.going c.activity false)).place
    rw [hplace]
    exact hn
  | @step id w a asked here ready new =>
    have hadmission := hn.step_admission here ready
    have hturn : (n.carryOut id (a.step n.elector id)).Admits := by
      show (a.step n.elector id).elector.init.Admits _
      rw [place_carryOut]
      exact hn.turn hadmission
    -- a waiter that comes to life keeps away from the turnstile
    unfold spawn
    split
    · have hplace : ((n.carryOut id (a.step n.elector id)).setCourse w
          (.going (.waiter .await) false)).place = (n.carryOut id (a.step n.elector id)).place := by
        refine place_setCourse_same ?_
        have hne : w ≠ id := by
          rintro rfl
          exact nomatch new.symm.trans here
        have hnone : (n.carryOut id (a.step n.elector id)).course w = none :=
          (Function.update_of_ne hne ..).trans new
        unfold place
        rw [hnone]
        rfl
      show (n.carryOut id (a.step n.elector id)).elector.init.Admits
        ((n.carryOut id (a.step n.elector id)).setCourse w (.going (.waiter .await) false)).place
      rw [hplace]
      exact hturn
    · exact hturn
  | @ask id a q here request =>
    have hplace : (n.setCourse id (.going a true)).place = n.place :=
      place_setCourse_same (place_of_going here).symm
    show n.elector.init.Admits (n.setCourse id (.going a true)).place
    rw [hplace]
    exact hn
  | @answer id r a q here request =>
    have hplace : (n.carryOut id (a.reply n.elector r)).place = n.place := by
      rw [place_carryOut, Activity.place_of_reply request, ← place_of_going here,
        Function.update_eq_self]
    show (a.reply n.elector r).elector.init.Admits (n.carryOut id (a.reply n.elector r)).place
    rw [hplace, a.reply_init]
    exact hn
  | @breakOff id a asked here may =>
    have hadmission := a.abandon_admission n.elector id
    rw [← place_of_going here] at hadmission
    show (a.abandon n.elector id).init.Admits (n.setCourse id .brokenOff).place
    rw [place_setCourse]
    exact hn.turn hadmission
  | discard => exact hn

theorem admits_fresh {e : Elector} (h : e.init = .free) : (fresh e).Admits := by
  show e.init.Admits fun _ => .outside
  rw [h]
  exact .free_outside

theorem Reachable.admits {e : Elector} (he : e.init = .free) (h : Reachable e n) : n.Admits := by
  induction h with
  | fresh => exact admits_fresh he
  | move before made ih => exact ih.makes (makes_of_move? made)

/-- A move of somebody else does not take the turnstile from whoever has it. -/
theorem Makes.holder {m : Move} (h : n.Makes m n') (hn : n.Admits) (hm : m.isBreakOff = false)
    (hholder : n.elector.init.holder = some id) (hne : m.actor? ≠ some id) :
    n'.elector.init.holder = some id := by
  cases h with
  | call new => exact hholder
  | @step id' w a asked here ready new =>
    rw [spawn_elector]
    refine (hn.step_admission here ready).keeps (hn.inside id') hholder ?_
    rintro rfl
    exact hne rfl
  | ask here request => exact hholder
  | @answer id' r a q here request => exact (congrArg _ (a.reply_init n.elector r)).trans hholder
  | breakOff here may => cases hm
  | discard => exact hholder

/-- Whoever the turnstile was handed to is at work there. -/
theorem Admits.exists_going (hn : n.Admits) (h : n.elector.init.holder = some id) :
    ∃ a asked, n.course id = some (.going a asked) ∧ (a.place = .queueing ∨ a.isInside = true) := by
  have hplace := hn.holder id h
  cases hc : n.course id with
  | none =>
    rw [place, hc] at hplace
    exact absurd rfl hplace
  | some c =>
    rw [place, hc] at hplace
    cases c with
    | going a asked =>
      refine ⟨a, asked, rfl, ?_⟩
      rw [← a.place_eq_inside_iff]
      have hne : a.place ≠ .outside := hplace
      cases ha : a.place with
      | outside => exact absurd ha hne
      | queueing => exact .inl rfl
      | inside => exact .inr rfl
    | ended r => exact absurd rfl hplace
    | brokenOff => exact absurd rfl hplace

end Node

end Primacy.Election
