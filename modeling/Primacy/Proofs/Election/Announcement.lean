/-
  Primacy.Proofs.Election.Announcement

  What a request to stop means for a promotion that has yet to open the gate.  A promotion looks for
  a request once, before it writes the record; one that has got past this look goes on, and announces
  itself unless a stop closes the gate first.  Whenever nobody is that far, or a stop is at work that
  has no waiter to collect, nothing is announced after the request.
-/
import Primacy.Proofs.Election.Callback
import Primacy.Proofs.Election.History
import Primacy.Proofs.Election.Standstill

namespace Primacy.Election

/-! ## Promotions that are committed -/

/-- The promotion has looked for a request to stop, and has yet to open the gate. -/
def PromotionPoint.isCommitted : PromotionPoint → Bool
  | putHost => true
  | putPort => true
  | openGate => true
  | _ => false

/-- A promotion gets past its look only if no stop was requested. -/
theorem PromotionPoint.isCommitted_of_step {route : Route} {e : Elector} {p p' : PromotionPoint}
    (h : (p.step route e).next = .inl p') (hp : p'.isCommitted = true) :
    p.isCommitted = true ∨ e.shutdown = false := by
  cases p with
  | run =>
    simp only [step] at h
    split at h
    · cases h
      cases hp
    · cases h
  | checkShutdown =>
    by_cases hs : e.shutdown = true
    · rw [step, if_pos hs] at h
      cases h
    · exact .inr (Bool.eq_false_iff.mpr hs)
  | callBack => cases h
  | _ => exact .inl rfl

theorem PromotionPoint.isCommitted_of_reply {e : Elector} {r : Reply} {p p' : PromotionPoint}
    (h : (p.reply e r).next = .inl p') (hp : p'.isCommitted = true) : p.isCommitted = true := by
  cases p with
  | putHost => rfl
  | putPort => rfl
  | _ =>
    cases h
    exact hp

theorem PromotionPoint.stage_of_isCommitted {p : PromotionPoint} (hp : p.isCommitted = true) :
    p.stage = .promoting := by
  cases p <;> first | rfl | exact nomatch hp

namespace Activity

variable {e : Elector} {me : CallId} {a b : Activity} {r : Reply} {route : Route}

def isCommitted (a : Activity) : Bool := a.promotion?.elim false fun x => x.2.isCommitted

theorem exists_of_isCommitted (h : a.isCommitted = true) :
    ∃ route p, a.promotion? = some (route, p) ∧ p.isCommitted = true := by
  rw [isCommitted] at h
  cases ha : a.promotion? with
  | none =>
    rw [ha] at h
    exact nomatch h
  | some x =>
    rw [ha] at h
    exact ⟨x.1, x.2, rfl, h⟩

theorem isCommitted_of_promotion {p : PromotionPoint} (ha : a.promotion? = some (route, p))
    (hp : p.isCommitted = true) : a.isCommitted = true := by
  rw [isCommitted, ha]
  exact hp

theorem isCommitted_of_step (h : (a.step e me).next = .inl b) (hb : b.isCommitted = true) :
    a.isCommitted = true ∨ e.shutdown = false := by
  obtain ⟨route, p, hbp, hp⟩ := exists_of_isCommitted hb
  rcases promotion?_of_step h hbp with rfl | ⟨p', hap, hstep⟩
  · exact nomatch hp
  · rcases PromotionPoint.isCommitted_of_step hstep hp with hp' | hs
    · exact .inl (isCommitted_of_promotion hap hp')
    · exact .inr hs

theorem isCommitted_of_reply (h : (a.reply e r).next = .inl b) (hb : b.isCommitted = true) :
    a.isCommitted = true := by
  obtain ⟨route, p, hbp, hp⟩ := exists_of_isCommitted hb
  rcases promotion?_of_reply h hbp with rfl | ⟨p', hap, hreply⟩
  · exact nomatch hp
  · exact isCommitted_of_promotion hap (PromotionPoint.isCommitted_of_reply hreply hp)

theorem isCommitted_of_openGate (h : a.deed? = some (.openGate route)) :
    a.isCommitted = true :=
  isCommitted_of_promotion (promotion?_of_openGate h) rfl

theorem isCommitted_entry (c : Entry) : c.activity.isCommitted = false := by
  cases c <;> rfl

variable {p : PromotionPoint} {q : Request}

/-- Whoever promotes is ready for a step of its own where it makes no request. -/
theorem isReady_iff_of_promotion (ha : a.promotion? = some (route, p)) :
    a.isReady e me = true ↔ a.request? e = none := by
  cases a with
  | start s =>
    obtain ⟨blocking, rfl, -⟩ := promotion?_start ha
    exact Option.isNone_iff_eq_none
  | waiter s =>
    obtain ⟨rfl, -⟩ := promotion?_waiter ha
    exact Option.isNone_iff_eq_none
  | _ => exact nomatch ha

/-- A promotion that is past its look and its writes is at the gate. -/
theorem eq_openGate_of_isCommitted (ha : a.promotion? = some (route, p))
    (hp : p.isCommitted = true) (request : a.request? e = none) : p = .openGate := by
  rw [request?_of_promotion ha] at request
  cases p with
  | openGate => rfl
  | putHost => exact nomatch request
  | putPort => exact nomatch request
  | _ => exact nomatch hp

/-- Whatever the registry answers, the promotion goes on to the gate. -/
theorem exists_committed_of_reply (ha : a.promotion? = some (route, p))
    (request : a.request? e = some q) (r : Reply) :
    ∃ b p', (a.reply e r).next = .inl b ∧ b.promotion? = some (route, p') ∧
      p'.isCommitted = true := by
  have hpoint : ∃ p', (p.reply e r).next = .inl p' ∧ p'.isCommitted = true := by
    rw [request?_of_promotion ha] at request
    cases p with
    | putHost => cases r <;> exact ⟨_, rfl, rfl⟩
    | putPort => cases r <;> exact ⟨_, rfl, rfl⟩
    | _ => exact nomatch request
  obtain ⟨p', hnext, hp'⟩ := hpoint
  obtain ⟨b, hb, hpromotion⟩ := reply_of_promotion ha hnext
  exact ⟨b, p', hb, hpromotion, hp'⟩

end Activity

namespace Node

variable {n n' : Node} {i : Incident} {js : List Incident} {id : CallId} {a : Activity}
  {asked : Bool} {c : Chronicle}

/-! ## Nodes that are quiet -/

/-- A stop was requested, the gate is not open, and nobody is about to open it or to call back. -/
structure Quiet (n : Node) : Prop where
  shutdown : n.elector.shutdown = true
  gate : n.elector.gate ≠ .released
  idle : ∀ id a asked, n.course id = some (.going a asked) →
    a.isCommitted = false ∧ a.deed? ≠ some .callBack

/-- No deed of a quiet node announces anything, or opens the gate. -/
theorem Quiet.deed (hn : n.Quiet) {d : Deed} (hd : n.deed? i = some d) :
    (∀ route, d ≠ .openGate route) ∧ d ≠ .callBack := by
  obtain ⟨id, w, a, asked, -, here, ha⟩ := step_of_deed? hd
  obtain ⟨hidle, hcall⟩ := hn.idle id a asked here
  refine ⟨?_, ?_⟩
  · rintro route rfl
    exact nomatch hidle.symm.trans (Activity.isCommitted_of_openGate ha)
  · rintro rfl
    exact hcall ha

theorem Quiet.announced (hn : n.Quiet) (h : n.Undergoes i n') :
    (n.chronicle i).announced = [] := by
  rw [h.announced]
  cases hd : n.deed? i with
  | none => rfl
  | some d =>
    obtain ⟨hopen, hcall⟩ := hn.deed hd
    exact Deed.announces_eq_nil hopen hcall

theorem Quiet.undergoes (hn : n.Quiet) (h : n.Undergoes i n') : n'.Quiet := by
  have hgate : n'.elector.gate ≠ .released := by
    intro hreleased
    have hface : (n.elector.face.after (n.deed? i)).gate = .released := by
      rw [← h.face]
      exact hreleased
    cases hd : n.deed? i with
    | none =>
      rw [hd] at hface
      exact hn.gate hface
    | some d =>
      rw [hd] at hface
      obtain ⟨route, rfl⟩ := Deed.eq_openGate hn.gate hface
      exact (hn.deed hd).1 route rfl
  refine ⟨h.shutdown hn.shutdown, hgate, ?_⟩
  refine h.forall_going hn.idle (fun a asked ha => ha)
    (fun c => ⟨Activity.isCommitted_entry c, by cases c <;> exact nofun⟩) ⟨rfl, nofun⟩
    (fun a q _ ha => ha) ?_ ?_
  · intro id w a asked b hi here ready hnext ha
    refine ⟨Bool.eq_false_iff.mpr fun hb => ?_, fun hb => ?_⟩
    · rcases Activity.isCommitted_of_step hnext hb with hcommitted | hs
      · exact nomatch ha.1.symm.trans hcommitted
      · exact nomatch hs.symm.trans hn.shutdown
    · -- whoever goes on to call back has seen the gate open
      subst hi
      have hface := h.face
      rw [deed?_of_step here, ← (a.step_deed n.elector id).1] at hface
      exact hgate ((congrArg Face.gate hface).trans (Activity.released_of_step hnext hb))
  · intro a q r b request hnext ha
    refine ⟨Bool.eq_false_iff.mpr fun hb => ?_, Activity.reply_ne_callBack request hnext⟩
    exact nomatch ha.1.symm.trans (Activity.isCommitted_of_reply hnext hb)

/-- A quiet node stays quiet, and announces nothing. -/
theorem Quiet.live (hn : n.Quiet) (h : n.live? js = some (n', c)) :
    n'.elector.gate ≠ .released ∧ c.announced = [] :=
  ⟨(live?_keeps (fun hu hm => hm.undergoes hu) h hn).gate,
    live?_announced (fun hu hm => hm.undergoes hu) (fun hu hm => hm.announced hu) h hn⟩

/-! ## Gates that are closed -/

/-- Behind a closed gate nothing is announced. -/
theorem Coherent.announced_of_closed (hn : n.Coherent) (hgate : n.elector.gate = .closed)
    (h : n.Undergoes i n') : (n.chronicle i).announced = [] := by
  rw [h.announced]
  cases hd : n.deed? i with
  | none => rfl
  | some d =>
    have hsettled : n.elector.face.gate ≠ .pending := by
      rw [show n.elector.face.gate = .closed from hgate]
      exact nofun
    by_cases hopen : ∃ route, d = .openGate route
    · obtain ⟨route, rfl⟩ := hopen
      exact Deed.announces_openGate_of_ne hsettled route
    · refine Deed.announces_eq_nil (fun route hr => hopen ⟨route, hr⟩) ?_
      rintro rfl
      obtain ⟨id, w, a, asked, -, here, ha⟩ := step_of_deed? hd
      have hreleased : n.elector.gate = .released := (hn.fits id a asked here).calling ha
      exact nomatch hgate.symm.trans hreleased

theorem Coherent.live_of_closed (hn : n.Coherent) (hgate : n.elector.gate = .closed)
    (h : n.live? js = some (n', c)) : n'.elector.gate = .closed ∧ c.announced = [] := by
  have keep : ∀ {m i m'}, Undergoes m i m' → m.Coherent ∧ m.elector.gate = .closed →
      m'.Coherent ∧ m'.elector.gate = .closed := by
    rintro m i m' hu ⟨hm, hclosed⟩
    have hsettled : m.elector.gate ≠ .pending := by
      rw [hclosed]
      exact nofun
    exact ⟨hm.undergoes hu, (hu.precedes.gate hsettled).trans hclosed⟩
  exact ⟨(live?_keeps keep h ⟨hn, hgate⟩).2,
    live?_announced keep (fun hu hm => hm.1.announced_of_closed hm.2 hu) h ⟨hn, hgate⟩⟩

/-! ## Stops that close the gate -/

end Node

/-- The stop is past the turnstile, has no waiter to wait for, and has yet to close the gate. -/
def StopPoint.isClosing (e : Elector) : StopPoint → Bool
  | takeWaiter => !e.waiterKept
  | halt => true
  | closeGate _ => true
  | _ => false

namespace Node

variable {n n' : Node} {i : Incident} {is js : List Incident} {id w : CallId} {p : StopPoint}
  {c c' : Chronicle}

/-- A stop that is closing is not suspended before the gate is closed. -/
theorem Coherent.live_of_closing (hn : n.Coherent)
    (here : n.course id = some (.going (.stop p) false)) (hp : p.isClosing n.elector = true)
    (hgate : n.elector.gate = .pending) (hjs : n.Cooperative js)
    (h : n.live? js = some (n', c)) : n'.elector.gate ≠ .released ∧ c.announced = [] := by
  induction js generalizing n c p with
  | nil =>
    obtain ⟨rfl, rfl⟩ := of_live?_nil h
    refine ⟨?_, rfl⟩
    rw [hgate]
    exact nofun
  | cons i js ih =>
    obtain ⟨n₁, c₁, hi, hlive, rfl⟩ := of_live?_cons h
    have hu := undergoes_of_undergo? hi
    have hbusy : (Activity.stop p).mayRest false = false := by
      cases p <;> first | rfl | cases hp
    have hrequest : (Activity.stop p).request? n.elector = none := by
      cases p <;> first | rfl | cases hp
    obtain ⟨w, rfl⟩ := hjs.step_of_busy hu here hbusy hrequest
    obtain ⟨hcourse, helector⟩ := hu.course_elector_of_step here
    have hcoop := hjs.2 n₁ hi
    have hn₁ := hn.undergoes hu
    have hnews : (n.chronicle (.move (.step id w))).announced = [] := by
      rw [hu.announced, deed?_of_step here]
      cases p <;> rfl
    rw [Chronicle.announced_append, hnews, List.nil_append]
    cases p with
    | takeWaiter =>
      have hkept : n.elector.waiterKept = false := (Bool.not_eq_true' _).mp hp
      have hpoint : StopPoint.step n.elector id .takeWaiter = .go n.elector .halt :=
        if_neg (Bool.not_eq_true _ ▸ hkept)
      have hstep : (Activity.stop .takeWaiter).step n.elector id = .go n.elector (.stop .halt) :=
        congrArg (Turn.within · Activity.stop fun r => .inr (Ending.stopped r)) hpoint
      rw [hstep] at hcourse helector
      refine ih hn₁ hcourse rfl ?_ hcoop hlive
      rw [helector]
      exact hgate
    | halt =>
      refine ih hn₁ hcourse rfl ?_ hcoop hlive
      rw [helector]
      exact hgate
    | closeGate before =>
      have hclosed : n₁.elector.gate = .closed := by
        have hface := hu.face
        rw [deed?_of_step here] at hface
        have hclose : n.elector.gate.close.2 = .closed := by
          rw [hgate]
          rfl
        exact (congrArg Face.gate hface).trans hclose
      obtain ⟨hclosed', hquiet⟩ := hn₁.live_of_closed hclosed hlive
      refine ⟨?_, hquiet⟩
      rw [hclosed']
      exact nofun
    | _ => cases hp

/-! ## Promotions that go on -/

variable {route : Route}

/-- The activity is past its look for a request and goes on with its promotion, or it was dropped or
broke down. -/
def Pursues (n : Node) (id : CallId) (route : Route) : Prop :=
  n.course id = some .brokenOff ∨
  ∃ a asked p, n.course id = some (.going a asked) ∧ a.promotion? = some (route, p) ∧
    p.isCommitted = true

/-- Before the gate is settled such a promotion is not given up. -/
theorem Pursues.undergoes (hn : n.Pursues id route) (h : n.Undergoes i n')
    (hgate : n'.elector.gate = .pending) : n'.Pursues id route := by
  rcases hn with here | ⟨a, asked, p, here, ha, hp⟩
  · obtain ⟨y, hy, hfate⟩ := h.fate here
    cases hfate
    exact .inl hy
  obtain ⟨y, hy, hfate⟩ := h.fate here
  cases hfate with
  | aside => exact .inr ⟨a, asked, p, hy, ha, hp⟩
  | step ready =>
    -- its own step is at the gate, and settles it
    obtain rfl := Activity.eq_openGate_of_isCommitted ha hp
      ((Activity.isReady_iff_of_promotion ha).mp ready)
    have hface := congrArg Face.gate h.face
    rw [deed?_of_step here, Activity.deed?_of_promotion ha] at hface
    have hrelease : n'.elector.gate = n.elector.gate.release.2 := hface
    rw [hgate] at hrelease
    cases hg : n.elector.gate <;> rw [hg] at hrelease <;> exact nomatch hrelease
  | ask request => exact .inr ⟨a, true, p, hy, ha, hp⟩
  | @answer _ q r request =>
    obtain ⟨b, p', hnext, hb, hp'⟩ := Activity.exists_committed_of_reply ha request r
    rw [hnext] at hy
    exact .inr ⟨b, false, p', hy, hb, hp'⟩
  | breakOff => exact .inl hy
  | collapse => exact .inl hy

theorem Pursues.live (hn : n.Pursues id route) (h : n.live? js = some (n', c))
    (hgate : n'.elector.gate = .pending) : n'.Pursues id route := by
  have keep : ∀ {m i m'}, Undergoes m i m' → (m.elector.gate = .pending → m.Pursues id route) →
      m'.elector.gate = .pending → m'.Pursues id route := by
    intro m i m' hu hm hpending
    have hbefore : m.elector.gate = .pending := by
      by_contra hsettled
      exact hsettled ((hu.precedes.gate hsettled).symm.trans hpending)
    exact (hm hbefore).undergoes hu hpending
  exact live?_keeps keep h (fun _ => hn) hgate

/-- A stop was requested, and whoever is past its look promotes on the given route. -/
structure Bound (n : Node) (route : Route) : Prop where
  shutdown : n.elector.shutdown = true
  routed : ∀ id a asked, n.course id = some (.going a asked) →
    ∀ route' p, a.promotion? = some (route', p) → p.isCommitted = true → route' = route

theorem Bound.undergoes (hn : n.Bound route) (h : n.Undergoes i n') : n'.Bound route := by
  refine ⟨h.shutdown hn.shutdown, ?_⟩
  refine h.forall_going hn.routed (fun _ _ ha => ha) (fun c => by cases c <;> exact nofun) nofun
    (fun _ _ _ ha => ha) ?_ ?_
  · intro id w a asked b _ _ _ hnext ha route' p hb hp
    rcases Activity.promotion?_of_step hnext hb with rfl | ⟨p', hap, hstep⟩
    · exact nomatch hp
    · rcases PromotionPoint.isCommitted_of_step hstep hp with hp' | hs
      · exact ha route' p' hap hp'
      · exact nomatch hs.symm.trans hn.shutdown
  · intro a q r b _ hnext ha route' p hb hp
    rcases Activity.promotion?_of_reply hnext hb with rfl | ⟨p', hap, hreply⟩
    · exact nomatch hp
    · exact ha route' p' hap (PromotionPoint.isCommitted_of_reply hreply hp)

/-- If the gate is opened after all, the marker of the route is logged. -/
theorem Bound.marker (hn : n.Bound route) (before : n.elector.gate ≠ .released)
    (h : n.live? js = some (n', c)) (after : n'.elector.gate = .released) :
    route.marker ∈ c.announced := by
  induction js generalizing n c with
  | nil =>
    obtain ⟨rfl, -⟩ := of_live?_nil h
    exact absurd after before
  | cons i js ih =>
    obtain ⟨n₁, c₁, hi, hlive, rfl⟩ := of_live?_cons h
    have hu := undergoes_of_undergo? hi
    rw [Chronicle.announced_append]
    by_cases hopen : n₁.elector.gate = .released
    · refine List.mem_append_left _ ?_
      obtain ⟨id, w, a, asked, b, route', rfl, here, ha, hpending, -⟩ := hu.opening before hopen
      obtain rfl : route' = route :=
        hn.routed id a asked here route' .openGate (Activity.promotion?_of_openGate ha) rfl
      rw [hu.announced, deed?_of_step here, ha, Face.news_openGate hpending]
      exact List.mem_singleton_self _
    · exact List.mem_append_right _ (ih (hn.undergoes hu) hopen hlive)

/-- One promotion past its look binds the node to its route. -/
theorem bound_of_isCommitted {is : List Incident} {ident : Identity} {owner : String} {port : Nat}
    {dir : Option String} {a : Activity} {asked : Bool} {x : PromotionPoint}
    (reached : (fresh (.fresh ident owner port dir)).live? is = some (n, c))
    (shutdown : n.elector.shutdown = true) (here : n.course id = some (.going a asked))
    (ha : a.promotion? = some (route, x)) (hx : x.isCommitted = true) : n.Bound route := by
  refine ⟨shutdown, fun id' a' asked' there route' p ha' hp => ?_⟩
  have hstage : n.ledger.stage id = .promoting := by
    rw [stage_of_going here, Activity.stage_of_promotion ha, x.stage_of_isCommitted hx]
  have hstage' : n.ledger.stage id' = .promoting := by
    rw [stage_of_going there, Activity.stage_of_promotion ha', p.stage_of_isCommitted hp]
  obtain rfl := eq_of_promoting reached hstage' hstage
  obtain ⟨rfl, -⟩ := Course.going.inj (Option.some.inj (there.symm.trans here))
  exact congrArg Prod.fst (Option.some.inj (ha'.symm.trans ha))

/-- At a pending gate two steps open it, log the marker and call the callback that waits. -/
theorem exists_announcement {a : Activity} {asked : Bool}
    (here : n.course id = some (.going a asked)) (ha : a.promotion? = some (route, .openGate))
    (hgate : n.elector.gate = .pending) (neww : n.course w = none) :
    ∃ n₂ c₂, n.live? [.move (.step id w), .move (.step id w)] = some (n₂, c₂) ∧
      n₂.elector.gate = .released ∧
      c₂.announced = route.marker :: n.elector.callback.toList.map .fired := by
  have hw : w ≠ id := by
    rintro rfl
    exact nomatch neww.symm.trans here
  have ready {e : Elector} {b : Activity} {p : PromotionPoint} (hb : b.promotion? = some (route, p))
      (hp : p.request? e = none) : b.isReady e id = true :=
    (Activity.isReady_iff_of_promotion hb).mpr ((Activity.request?_of_promotion hb).trans hp)
  obtain ⟨b, hstep, hb⟩ := Activity.step_of_openGate id ha hgate
  obtain ⟨n₁, hi₁, helector, neww₁, here₁⟩ :=
    exists_step here (ready ha rfl) hw neww (by rw [hstep]; rfl)
  rw [hstep] at helector here₁
  have hi₂ := move?_of_makes (.step here₁ (ready hb rfl) neww₁)
  have hu₁ := undergoes_of_undergo? hi₁
  have hu₂ := undergoes_of_undergo? (i := .move (.step id w)) hi₂
  have hopened : n₁.elector.gate = .released := congrArg Elector.gate helector
  refine ⟨_, _, live?_cons hi₁ (live?_cons hi₂ rfl), ?_, ?_⟩
  · exact hu₂.precedes.released hopened
  · have hopens : n.elector.face.news (PromotionPoint.openGate.deed? route) = [route.marker] :=
      Face.news_openGate hgate route
    have hslot : n₁.elector.callback = n.elector.callback := by rw [helector]; rfl
    rw [Chronicle.announced_append, Chronicle.append_empty, hu₁.announced, hu₂.announced,
      deed?_of_step here, deed?_of_step here₁, Activity.deed?_of_promotion ha,
      Activity.deed?_of_promotion hb, hopens, ← hslot]
    rfl

/-! ## Announcements after a request to stop -/

/-- Suppose that a stop was requested, or the elector dropped, while its gate was pending.  If no
promotion had got past its look for a request, then from then on the gate is never opened, and
neither a marker is logged nor a callback called.  So it is if a stop is closing at that point: it
closes the gate before anybody else moves, if activities interleave where they may be suspended.

A promotion that had got past its look goes on as long as the gate is pending, unless it is dropped
or breaks down; if the gate opens after all, its marker is logged.  Once it is at the gate, with the
gate still pending, its next two steps open the gate, log the marker and call the callback that
waits. -/
theorem quiet_of_request {i : Identity} {owner : String} {port : Nat} {dir : Option String}
    (reached : (fresh (.fresh i owner port dir)).live? is = some (n, c))
    (shutdown : n.elector.shutdown = true) (pending : n.elector.gate = .pending)
    (h : n.live? js = some (n', c')) :
    ((∀ id a asked, n.course id = some (.going a asked) → a.isCommitted = false) →
      n'.elector.gate ≠ .released ∧ c'.announced = []) ∧
    (∀ id p, n.course id = some (.going (.stop p) false) → p.isClosing n.elector = true →
      n.Cooperative js → n'.elector.gate ≠ .released ∧ c'.announced = []) ∧
    ∀ id a asked route p, n.course id = some (.going a asked) →
      a.promotion? = some (route, p) → p.isCommitted = true →
      (n'.elector.gate = .pending → n'.Pursues id route) ∧
      (n'.elector.gate = .released → route.marker ∈ c'.announced) ∧
      ∀ b asked' w, n'.course id = some (.going b asked') →
        b.promotion? = some (route, .openGate) → n'.elector.gate = .pending →
        n'.course w = none →
        ∃ n₂ c₂, n'.live? [.move (.step id w), .move (.step id w)] = some (n₂, c₂) ∧
          n₂.elector.gate = .released ∧
          c₂.announced = route.marker :: n'.elector.callback.toList.map .fired := by
  have hn := coherent_of_live? reached
  have hshut : n.elector.gate ≠ .released := by
    rw [pending]
    exact nofun
  refine ⟨fun hidle => ?_, fun id p here hp hjs => hn.live_of_closing here hp pending hjs h,
    fun id a asked route p here ha hp => ⟨?_, ?_, ?_⟩⟩
  · have hquiet : n.Quiet := by
      refine ⟨shutdown, hshut, fun id a asked here => ⟨hidle id a asked here, fun hcall => ?_⟩⟩
      exact hshut ((hn.fits id a asked here).calling hcall)
    exact hquiet.live h
  · exact Pursues.live (.inr ⟨a, asked, p, here, ha, hp⟩) h
  · exact (bound_of_isCommitted reached shutdown here ha hp).marker hshut h
  · exact fun b asked' w there hb hgate neww => exists_announcement there hb hgate neww

/-! ## Runs that are checked -/

/-- The name that an incident may give to an activity. -/
def Incident.newcomer? : Incident → Option CallId
  | move m => m.newcomer?
  | collapse _ => none

theorem Undergoes.course_eq_none (h : n.Undergoes i n') (hne : i.newcomer? ≠ some id)
    (hid : n.course id = none) : n'.course id = none := by
  cases h with
  | move made => exact made.course_eq_none hne hid
  | @collapse id' p here =>
    refine (Function.update_of_ne ?_ ..).trans hid
    rintro rfl
    exact nomatch hid.symm.trans here

/-- Decides whether nobody moves unless all others may be suspended, if all names are below a
bound. -/
def isCooperative (bound : Nat) (n : Node) : List Incident → Bool
  | [] => true
  | i :: is =>
    (List.range bound).all (fun id => i.actor? == some id || n.mayRest id) &&
    i.newcomer?.all (· < bound) && (n.undergo? i).elim true (·.isCooperative bound is)

theorem cooperative_of_isCooperative (bound : Nat)
    (hn : ∀ id, bound ≤ id → n.course id = none) (h : n.isCooperative bound is = true) :
    n.Cooperative is := by
  induction is generalizing n with
  | nil => trivial
  | cons i is ih =>
    rw [isCooperative, Bool.and_eq_true, Bool.and_eq_true] at h
    obtain ⟨⟨hrest, hname⟩, hlater⟩ := h
    refine ⟨fun id hactor => ?_, fun n₁ hi => ih (fun id hid => ?_) ?_⟩
    · by_cases hid : id < bound
      · have hboth := List.all_eq_true.mp hrest id (List.mem_range.mpr hid)
        rw [Bool.or_eq_true, beq_iff_eq] at hboth
        exact hboth.resolve_left hactor
      · rw [mayRest, hn id (Nat.le_of_not_lt hid)]
    · refine (undergoes_of_undergo? hi).course_eq_none (fun hnew => ?_) (hn id hid)
      rw [hnew, Option.all_some, decide_eq_true_eq] at hname
      exact Nat.not_lt.mpr hid hname
    · rw [hi] at hlater
      exact hlater

/-- A start stands by.  A stop is called while the waiter waits for the lock, and waits for it. -/
def waitingMoves : List Incident :=
  List.map .move
    [.call 0 (.start "memory" false), .step 0 3, .step 0 3, .ask 0, .answer 0 (.ok true), .ask 0,
     .answer 0 (.ok true), .ask 0, .answer 0 (.ok true), .step 0 3, .ask 0, .answer 0 (.ok false),
     .step 0 3, .step 0 2, .step 0 3, .step 0 3, .ask 2, .call 1 .stop, .step 1 3, .step 1 3,
     .step 1 3]

/-- The waiter is granted the lock, and gives it back; the stop closes the gate. -/
def waitingEnd : List Incident :=
  List.map .move
    [.answer 2 (.ok true), .step 2 3, .ask 2, .answer 2 (.ok true), .step 1 3, .step 1 3,
     .step 1 3, .step 1 3]

/-- A start that blocks is granted the lock and is about to write the record when a stop comes. -/
def blockingMoves : List Incident :=
  List.map .move
    [.call 0 (.start "memory" true), .step 0 3, .step 0 3, .ask 0, .answer 0 (.ok true), .ask 0,
     .answer 0 (.ok true), .ask 0, .answer 0 (.ok true), .step 0 3, .step 0 3, .ask 0,
     .answer 0 (.ok true), .step 0 3, .step 0 3, .step 0 3, .ask 0, .call 1 .stop, .step 1 3,
     .step 1 3]

/-- The stop closes the gate and gives the lock back; then the start writes the record. -/
def blockingEnd : List Incident :=
  List.map .move
    [.step 1 3, .step 1 3, .step 1 3, .ask 1, .answer 1 (.ok true), .step 1 3,
     .answer 0 (.ok true), .ask 0, .answer 0 (.ok true), .step 0 3]

/-- A callback is registered, and a start is granted the lock and is about to write the first half
of the record when a stop is called; the stop queues up behind it. -/
def hastyMoves : List Incident :=
  List.map .move
    [.call 2 (.notify "callback"), .step 2 9, .step 2 9, .call 0 (.start "memory" false),
     .step 0 9, .step 0 9, .ask 0, .answer 0 (.ok true), .ask 0, .answer 0 (.ok true), .ask 0,
     .answer 0 (.ok true), .step 0 9, .ask 0, .answer 0 (.ok true), .step 0 9, .step 0 9, .ask 0,
     .call 1 .stop, .step 1 9, .step 1 9]

/-- The start writes the record, opens the gate and calls back. -/
def hastyEnd : List Incident :=
  List.map .move
    [.answer 0 (.ok true), .ask 0, .answer 0 (.ok true), .step 0 9, .step 0 9]

theorem waiting_blocking_hasty :
    (blank.after waitingMoves).1.elector.shutdown = true ∧
    (((blank.after waitingMoves).1.after waitingEnd).1.elector.gate ≠ .released ∧
      ((blank.after waitingMoves).1.after waitingEnd).2.announced = []) ∧
    (blank.after blockingMoves).1.elector.shutdown = true ∧
    (((blank.after blockingMoves).1.after blockingEnd).1.elector.gate ≠ .released ∧
      ((blank.after blockingMoves).1.after blockingEnd).2.announced = []) ∧
    (blank.after hastyMoves).1.elector.shutdown = true ∧
    ((blank.after hastyMoves).1.after (hastyEnd.take 2)).1.Pursues 0 .immediate ∧
    .acquired ∈ ((blank.after hastyMoves).1.after hastyEnd).2.announced ∧
    ∃ n c, ((blank.after hastyMoves).1.after (hastyEnd.take 3)).1.live?
        [.move (.step 0 9), .move (.step 0 9)] = some (n, c) ∧
      n.elector.gate = .released ∧ c.announced = [.acquired, .fired "callback"] := by
  have hwaiting : blank.live? waitingMoves = some (blank.after waitingMoves) := rfl
  have hwaitingEnd : (blank.after waitingMoves).1.live? waitingEnd =
      some ((blank.after waitingMoves).1.after waitingEnd) := rfl
  have hidle : ∀ id a asked, (blank.after waitingMoves).1.course id = some (.going a asked) →
      a.isCommitted = false := by
    intro id a asked here
    match id with
    | 0 => exact nomatch here
    | 1 =>
      cases here
      rfl
    | 2 =>
      cases here
      rfl
    | id + 3 =>
      have hnone : (blank.after waitingMoves).1.course (id + 3) = none := rfl
      exact nomatch hnone.symm.trans here
  have hblocking : blank.live? blockingMoves = some (blank.after blockingMoves) := rfl
  have hblockingEnd : (blank.after blockingMoves).1.live? blockingEnd =
      some ((blank.after blockingMoves).1.after blockingEnd) := rfl
  have hothers : ∀ id, 4 ≤ id → (blank.after blockingMoves).1.course id = none := by
    intro id hid
    obtain ⟨k, rfl⟩ := Nat.exists_eq_add_of_le' hid
    rfl
  have hcoop : (blank.after blockingMoves).1.Cooperative blockingEnd :=
    cooperative_of_isCooperative 4 hothers rfl
  have hclosing : (blank.after blockingMoves).1.course 1 =
      some (.going (.stop .takeWaiter) false) := rfl
  have hhasty : blank.live? hastyMoves = some (blank.after hastyMoves) := rfl
  have hpromotes : (blank.after hastyMoves).1.course 0 =
      some (.going (.start (.promote false .putHost)) true) := rfl
  have hwriting : (blank.after hastyMoves).1.live? (hastyEnd.take 2) =
      some ((blank.after hastyMoves).1.after (hastyEnd.take 2)) := rfl
  have hwritten : (blank.after hastyMoves).1.live? (hastyEnd.take 3) =
      some ((blank.after hastyMoves).1.after (hastyEnd.take 3)) := rfl
  have hend : (blank.after hastyMoves).1.live? hastyEnd =
      some ((blank.after hastyMoves).1.after hastyEnd) := rfl
  refine ⟨rfl, (quiet_of_request hwaiting rfl rfl hwaitingEnd).1 hidle, rfl,
    (quiet_of_request hblocking rfl rfl hblockingEnd).2.1 1 .takeWaiter hclosing rfl hcoop, rfl,
    ?_, ?_, ?_⟩
  · exact ((quiet_of_request hhasty rfl rfl hwriting).2.2 0 _ _ _ _ hpromotes rfl rfl).1 rfl
  · exact ((quiet_of_request hhasty rfl rfl hend).2.2 0 _ _ _ _ hpromotes rfl rfl).2.1 rfl
  · exact ((quiet_of_request hhasty rfl rfl hwritten).2.2 0 _ _ _ _ hpromotes rfl rfl).2.2
      (.start (.promote false .openGate)) false 9 rfl rfl rfl rfl

/-- A promotion that is past its look for a request announces itself although a stop was
called. -/
theorem announced_despite_request :
    ¬ ∀ (is js : List Incident) (n n' : Node) (c c' : Chronicle),
      blank.live? is = some (n, c) → n.live? js = some (n', c') → blank.Cooperative (is ++ js) →
      n.elector.shutdown = true → n.elector.gate = .pending →
      n'.elector.gate ≠ .released ∧ c'.announced = [] := by
  intro h
  have hcoop : blank.Cooperative (hastyMoves ++ hastyEnd) :=
    cooperative_of_isCooperative 10 (fun _ _ => rfl) rfl
  have hhasty : blank.live? hastyMoves = some (blank.after hastyMoves) := rfl
  have hend : (blank.after hastyMoves).1.live? hastyEnd =
      some ((blank.after hastyMoves).1.after hastyEnd) := rfl
  have hquiet := h hastyMoves hastyEnd _ _ _ _ hhasty hend hcoop rfl rfl
  exact hquiet.1 rfl

end Node

end Primacy.Election
