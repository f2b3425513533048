/-
  Primacy.Proofs.Election.Entrance

  Which start of an elector gets in.  A start is let past its look at the status only while the
  elector is as it was made, and from the moment at which one has connected to the lock service all
  others are refused.  So a single start ever asks for more than a connection, and one that finds no
  address or does not get a connection leaves everything as it was.
-/
import Primacy.Proofs.Election.Attempt
import Primacy.Proofs.Election.Candidacy

namespace Primacy.Election

/-! ## Points of a start -/

namespace StartPoint

variable {e : Elector} {me : CallId} {r : Reply} {p p' : StartPoint} {q : Request}

/-- The start has connected to the lock service, and is not about to leave. -/
def isLinked : StartPoint → Bool
  | arrive .. | queue .. | check .. | connect .. | leave _ => false
  | _ => true

/-- No step of its own links a start. -/
theorem isLinked_of_step (h : p.Leads e (.inl p')) (hp' : p'.isLinked = true) :
    p.isLinked = true := by
  cases h with
  | enter => exact nomatch hp'
  | queueUp => exact nomatch hp'
  | pass => exact nomatch hp'
  | reject err => exact nomatch hp'
  | begin fresh => exact nomatch hp'
  | _ => rfl

theorem isLinked_of_reply (h : p.Resumes e r (.inl p')) (hp' : p'.isLinked = true) :
    p.isLinked = true ∨ ∃ address blocking, p = connect address blocking := by
  cases h with
  | connected => exact .inr ⟨_, _, rfl⟩
  | unreachable err => exact nomatch hp'
  | _ => exact .inl rfl

/-- A start that is not linked asks for nothing but a connection. -/
theorem isLinked_of_request (hq : p.request? e = some q) (h : ∀ address, q ≠ .connect address) :
    p.isLinked = true := by
  cases p with
  | connect address blocking => exact absurd (Option.some.inj hq).symm (h address)
  | arrive address blocking => exact nomatch hq
  | queue address blocking => exact nomatch hq
  | check address blocking => exact nomatch hq
  | leave result => exact nomatch hq
  | _ => rfl

theorem isLinked_of_deed {d : Deed} (h : (Activity.start p).deed? = some d) :
    p.isLinked = true := by
  cases p with
  | standBy => rfl
  | promote blocking x => rfl
  | _ => exact nomatch h

/-- The start has yet to pass its look at the status. -/
def isComing : StartPoint → Bool
  | arrive .. | queue .. | check .. => true
  | _ => false

theorem isComing_of_step (h : p.Leads e (.inl p')) (hp' : p'.isComing = true) :
    p.isComing = true := by
  cases h with
  | enter => rfl
  | queueUp => rfl
  | pass => rfl
  | _ => exact nomatch hp'

theorem isComing_of_reply (h : p.Resumes e r (.inl p')) : p'.isComing = false := by
  cases h <;> rfl

theorem request?_of_isComing (h : p.isComing = true) (e : Elector) : p.request? e = none := by
  cases p with
  | arrive address blocking => rfl
  | queue address blocking => rfl
  | check address blocking => rfl
  | _ => exact nomatch h

/-- The look at the status lets a start through if the elector is as it was made. -/
theorem step_check (e : Elector) (me : CallId) (address : String) (blocking : Bool) :
    (check address blocking).step e me = .go e
      (if e.started = true ∨ e.status ≠ .uninitialized then
        leave (.error (ElectionError.alreadyStarted e.status))
      else connect address blocking) := by
  have hiff : (e.started || e.status != .uninitialized) = true ↔
      e.started = true ∨ e.status ≠ .uninitialized := by
    rw [Bool.or_eq_true, bne_iff_ne]
  by_cases h : e.started = true ∨ e.status ≠ .uninitialized
  · rw [step, if_pos h, if_pos (hiff.mpr h)]
  · rw [step, if_neg h, if_neg (mt hiff.mp h)]

end StartPoint

/-! ## The mark of a start that connected -/

namespace Activity

variable {e : Elector} {a : Activity} {q : Request} {r : Reply}

theorem step_started (a : Activity) (e : Elector) (me : CallId) :
    (a.step e me).elector.started = e.started := by
  cases a with
  | start p =>
    obtain ⟨_, _, _, _, _, _, h⟩ := p.step_elector e me
    rw [step, Turn.within_elector, h]
  | stop p =>
    obtain ⟨_, _, _, _, _, h⟩ := p.step_elector e me
    rw [step, Turn.within_elector, h]
  | await p => rw [step, Turn.within_elector, p.step_elector]
  | notify p =>
    obtain ⟨_, h⟩ := p.step_elector e
    rw [step, Turn.within_elector, h]
  | waiter p =>
    obtain ⟨_, _, _, _, h⟩ := p.step_elector e
    rw [step, Turn.within_elector, h]

/-- The activity is a start that waits for a connection. -/
def isConnecting : Activity → Bool
  | start (.connect ..) => true
  | _ => false

/-- Only the answer that brings a connection leaves the mark. -/
theorem reply_started (a : Activity) (e : Elector) (r : Reply) :
    (a.reply e r).elector.started = (e.started || a.isConnecting && r.isOk) := by
  have hsame : ∀ {b : Bool}, b = false → e.started = (e.started || b && r.isOk) := by
    rintro _ rfl
    rw [Bool.false_and, Bool.or_false]
  cases a with
  | start p =>
    rw [reply, Turn.within_elector]
    cases p with
    | connect address blocking =>
      cases r with
      | ok granted => exact (Bool.or_true _).symm
      | error err => exact (Bool.or_false _).symm
    | publish writes blocking =>
      refine Eq.trans ?_ (hsame rfl)
      cases writes <;> cases r <;> rfl
    | tryLock =>
      refine Eq.trans ?_ (hsame rfl)
      cases r with
      | ok granted => cases granted <;> rfl
      | error err => rfl
    | promote blocking x =>
      refine Eq.trans ?_ (hsame rfl)
      rw [StartPoint.reply, Turn.within_elector, x.reply_elector]
    | _ =>
      refine Eq.trans ?_ (hsame rfl)
      cases r <;> rfl
  | stop p =>
    rw [reply, Turn.within_elector, p.reply_elector]
    exact hsame rfl
  | waiter p =>
    obtain ⟨_, _, h⟩ := p.reply_elector e r
    rw [reply, Turn.within_elector, h]
    exact hsame rfl
  | await p => exact hsame rfl
  | notify p => exact hsame rfl

end Activity

namespace Node

variable {n n' m m' : Node} {i : Incident} {is js : List Incident} {id id' w : CallId}
  {a : Activity} {asked : Bool} {c : Chronicle} {p : StartPoint} {x : Course} {err : Error}
  {ident : Identity} {owner : String} {port : Nat} {dir : Option String} {os : List Occurrence}

/-! ## What starts do -/

/-- A start gets a connection to the lock service. -/
def Connects (id : CallId) (n : Node) (i : Incident) : Prop :=
  ∃ address blocking granted, i = .move (.answer id (.ok granted)) ∧
    n.course id = some (.going (.start (.connect address blocking)) true)

/-- A start does not get a connection. -/
def FailsToConnect (id : CallId) (err : Error) (n : Node) (i : Incident) : Prop :=
  ∃ address blocking, i = .move (.answer id (.error err)) ∧
    n.course id = some (.going (.start (.connect address blocking)) true)

/-- A start asks for more than a connection: it writes to the registry, or asks for the lock or
gives it back. -/
def Competes (id : CallId) (n : Node) (i : Incident) : Prop :=
  ∃ p q, i = .move (.ask id) ∧ n.course id = some (.going (.start p) false) ∧
    p.request? n.elector = some q ∧ ∀ address, q ≠ .connect address

/-- A start changes something that another could see, or asks for more than a connection. -/
def LeavesTrace (id : CallId) (n : Node) (i : Incident) : Prop :=
  Competes id n i ∨ ∃ p asked n', i.actor? = some id ∧
    n.course id = some (.going (.start p) asked) ∧ n.undergo? i = some n' ∧
    (n'.elector.face ≠ n.elector.face ∨ n'.elector.started ≠ n.elector.started)

/-- The mark stands once a start has connected. -/
theorem Undergoes.started_iff (h : n.Undergoes i n') :
    n'.elector.started = true ↔ n.elector.started = true ∨ ∃ id, Connects id n i := by
  have hnone : (∀ id, ¬ Connects id n i) → n'.elector.started = n.elector.started →
      (n'.elector.started = true ↔ n.elector.started = true ∨ ∃ id, Connects id n i) := by
    intro hi hsame
    rw [hsame]
    exact ⟨.inl, fun h => h.resolve_right fun ⟨id, hid⟩ => hi id hid⟩
  cases h with
  | move made =>
    cases made with
    | call new => exact hnone (fun _ ⟨_, _, _, hi, _⟩ => nomatch hi) rfl
    | @step id w a asked here ready new =>
      refine hnone (fun _ ⟨_, _, _, hi, _⟩ => nomatch hi) ?_
      rw [spawn_elector]
      exact a.step_started n.elector id
    | ask here request => exact hnone (fun _ ⟨_, _, _, hi, _⟩ => nomatch hi) rfl
    | @answer id r a q here request =>
      show (a.reply n.elector r).elector.started = true ↔ _
      rw [a.reply_started, Bool.or_eq_true, Bool.and_eq_true]
      refine or_congr_right ⟨fun ⟨hconnecting, hok⟩ => ?_, ?_⟩
      · cases r with
        | error err => exact nomatch hok
        | ok granted =>
          cases a with
          | start p =>
            cases p with
            | connect address blocking => exact ⟨id, address, blocking, granted, rfl, here⟩
            | _ => exact nomatch hconnecting
          | _ => exact nomatch hconnecting
      · rintro ⟨id', address, blocking, granted, hi, there⟩
        cases hi
        obtain ⟨rfl, -⟩ := Course.going.inj (Option.some.inj (here.symm.trans there))
        exact ⟨rfl, rfl⟩
    | breakOff here may =>
      exact hnone (fun _ ⟨_, _, _, hi, _⟩ => nomatch hi)
        (Activity.abandon_status_started ..).2
    | discard => exact hnone (fun _ ⟨_, _, _, hi, _⟩ => nomatch hi) rfl
  | collapse here => exact hnone (fun _ ⟨_, _, _, hi, _⟩ => nomatch hi) rfl

theorem started_iff (h : (fresh (.fresh ident owner port dir)).live? is = some (n, c)) :
    n.elector.started = true ↔
      ∃ id, (fresh (.fresh ident owner port dir)).Meets (Connects id) is := by
  induction is using List.reverseRecOn generalizing n c with
  | nil =>
    obtain ⟨rfl, -⟩ := of_live?_nil h
    exact ⟨nofun, fun ⟨_, hmeets⟩ => hmeets.elim⟩
  | append_singleton is i ih =>
    obtain ⟨n₁, c₁, hlive, hi, -⟩ := of_live?_concat h
    rw [(undergoes_of_undergo? hi).started_iff, ih hlive, ← exists_or]
    exact exists_congr fun id => (meets_concat hlive).symm

/-- Whoever waits for a connection finds no mark. -/
theorem Custody.unstarted (hn : n.Custody) {address : String} {blocking : Bool}
    (here : n.course id = some (.going (.start (.connect address blocking)) asked)) :
    n.elector.started = false :=
  hn.balanced.linking id (stage_of_going here)

/-- At most one start gets a connection. -/
theorem eq_of_connects (h : (fresh (.fresh ident owner port dir)).live? is = some (n, c))
    (hid : (fresh (.fresh ident owner port dir)).Meets (Connects id) is)
    (hid' : (fresh (.fresh ident owner port dir)).Meets (Connects id') is) : id = id' := by
  induction is using List.reverseRecOn generalizing n c with
  | nil => exact hid.elim
  | append_singleton is i ih =>
    obtain ⟨n₁, c₁, hlive, hi, -⟩ := of_live?_concat h
    -- whoever connects comes before all others
    have hfirst : ∀ {id id'}, (fresh (.fresh ident owner port dir)).Meets (Connects id) is →
        ¬ Connects id' n₁ i := by
      rintro id id' hbefore ⟨_, _, _, -, here⟩
      have hstarted := (started_iff hlive).mpr ⟨id, hbefore⟩
      exact nomatch hstarted.symm.trans ((custody_of_live? hlive).unstarted here)
    rcases (meets_concat hlive).mp hid with hbefore | hnow
    · rcases (meets_concat hlive).mp hid' with hbefore' | hnow'
      · exact ih hlive hbefore hbefore'
      · exact absurd hnow' (hfirst hbefore)
    · rcases (meets_concat hlive).mp hid' with hbefore' | hnow'
      · exact absurd hnow (hfirst hbefore')
      · obtain ⟨_, _, _, rfl, -⟩ := hnow
        obtain ⟨_, _, _, heq, -⟩ := hnow'
        cases heq
        rfl

/-- A start gets on the far side of its connection by the answer that brings it. -/
theorem Undergoes.linked_before (h : n.Undergoes i n')
    (here : n'.course id = some (.going (.start p) asked)) (hp : p.isLinked = true) :
    (∃ p' asked', n.course id = some (.going (.start p') asked') ∧ p'.isLinked = true) ∨
      Connects id n i := by
  generalize ha : Activity.start p = a at here
  cases h.origin here with
  | aside other before =>
    subst ha
    exact .inl ⟨p, asked, before, hp⟩
  | @call entry =>
    cases entry <;> cases ha
    exact nomatch hp
  | spawn => exact nomatch ha
  | step before ready next =>
    subst ha
    obtain ⟨p', rfl, hleads⟩ := Activity.eq_start_of_step ready next
    exact .inl ⟨p', _, before, StartPoint.isLinked_of_step hleads hp⟩
  | ask before request =>
    subst ha
    exact .inl ⟨p, false, before, hp⟩
  | @answer b _ q r before request next =>
    subst ha
    obtain ⟨p', rfl, -, hresumes⟩ := Activity.eq_start_of_reply request next
    rcases StartPoint.isLinked_of_reply hresumes hp with hp' | ⟨address, blocking, rfl⟩
    · exact .inl ⟨p', true, before, hp'⟩
    · cases r with
      | ok granted => exact .inr ⟨address, blocking, granted, rfl, before⟩
      | error err =>
        cases next
        exact nomatch hp

theorem meets_of_isLinked (h : (fresh (.fresh ident owner port dir)).live? is = some (n, c))
    (here : n.course id = some (.going (.start p) asked)) (hp : p.isLinked = true) :
    (fresh (.fresh ident owner port dir)).Meets (Connects id) is := by
  induction is using List.reverseRecOn generalizing n c p asked with
  | nil =>
    obtain ⟨rfl, -⟩ := of_live?_nil h
    exact nomatch here
  | append_singleton is i ih =>
    obtain ⟨n₁, c₁, hlive, hi, -⟩ := of_live?_concat h
    rw [meets_concat hlive]
    exact ((undergoes_of_undergo? hi).linked_before here hp).imp_left
      fun ⟨_, _, hbefore, hp'⟩ => ih hlive hbefore hp'

/-- Only a start with a connection leaves a trace, and the one that gets it. -/
theorem LeavesTrace.isLinked (h : LeavesTrace id n i) :
    (∃ p asked, n.course id = some (.going (.start p) asked) ∧ p.isLinked = true) ∨
      Connects id n i := by
  rcases h with ⟨p, q, -, here, request, hq⟩ | ⟨p, asked, n', hactor, here, hi, hchange⟩
  · exact .inl ⟨p, false, here, StartPoint.isLinked_of_request request hq⟩
  · have hu := undergoes_of_undergo? hi
    rcases hchange with hface | hstarted
    · rw [hu.face] at hface
      cases hd : n.deed? i with
      | none =>
        rw [hd] at hface
        exact absurd rfl hface
      | some d =>
        obtain ⟨id', w, a, asked', rfl, there, ha⟩ := step_of_deed? hd
        cases hactor
        obtain ⟨rfl, -⟩ := Course.going.inj (Option.some.inj (here.symm.trans there))
        exact .inl ⟨p, asked, here, StartPoint.isLinked_of_deed ha⟩
    · by_cases hconnects : ∃ id', Connects id' n i
      · obtain ⟨id', hid'⟩ := hconnects
        obtain ⟨address, blocking, granted, rfl, there⟩ := hid'
        cases hactor
        exact .inr ⟨address, blocking, granted, rfl, there⟩
      · have hiff := hu.started_iff
        rw [or_iff_left hconnects] at hiff
        exact absurd (Bool.eq_iff_iff.mpr hiff) hstarted

theorem meets_connects_of_trace
    (h : (fresh (.fresh ident owner port dir)).live? is = some (n, c))
    (hmeets : (fresh (.fresh ident owner port dir)).Meets (LeavesTrace id) is) :
    (fresh (.fresh ident owner port dir)).Meets (Connects id) is := by
  induction is using List.reverseRecOn generalizing n c with
  | nil => exact hmeets.elim
  | append_singleton is i ih =>
    obtain ⟨n₁, c₁, hlive, hi, -⟩ := of_live?_concat h
    rw [meets_concat hlive] at hmeets ⊢
    rcases hmeets with hbefore | hnow
    · exact .inl (ih hlive hbefore)
    · exact hnow.isLinked.imp_left fun ⟨_, _, here, hp⟩ => meets_of_isLinked hlive here hp

/-! ## Starts that get no connection -/

/-- A start is about to leave with an error, or has left with it. -/
def HasFailed (n : Node) (id : CallId) (err : Error) : Prop :=
  n.course id = some (.going (.start (.leave (.error err))) false) ∨
    n.course id = some (.ended (.started (.error err)))

theorem HasFailed.undergoes (hn : n.HasFailed id err) (h : n.Undergoes i n') :
    n'.HasFailed id err ∧ i ≠ .move (.ask id) := by
  rcases hn with here | ended
  · obtain ⟨y, hy, hfate⟩ := h.fate here
    cases hfate with
    | aside ask => exact ⟨.inl hy, ask⟩
    | step ready => exact ⟨.inr hy, nofun⟩
    | ask request => exact nomatch request
    | breakOff may => exact nomatch may
  · obtain ⟨y, hy, hfate⟩ := h.fate ended
    cases hfate with
    | aside ask => exact ⟨.inr hy, ask⟩

/-- A start that has failed makes no request any more. -/
theorem HasFailed.live (hn : n.HasFailed id err) (h : n.live? js = some (n', c)) :
    n'.HasFailed id err ∧ .move (.ask id) ∉ js := by
  induction js generalizing n c with
  | nil =>
    obtain ⟨rfl, -⟩ := of_live?_nil h
    exact ⟨hn, List.not_mem_nil⟩
  | cons j js ih =>
    obtain ⟨n₁, c₁, hj, hlive, -⟩ := of_live?_cons h
    obtain ⟨hn₁, hne⟩ := hn.undergoes (undergoes_of_undergo? hj)
    obtain ⟨hn', hmem⟩ := ih hn₁ hlive
    rw [List.mem_cons, not_or]
    exact ⟨hn', hne.symm, hmem⟩

theorem Undergoes.hasFailed (h : n.Undergoes i n') (hi : FailsToConnect id err n i) :
    n'.HasFailed id err := by
  obtain ⟨address, blocking, rfl, here⟩ := hi
  obtain ⟨y, hy, hfate⟩ := h.fate here
  cases hfate with
  | aside ask =>
    -- the answer is to this start and to nobody else
    cases h with
    | move made =>
      cases made with
      | answer there request =>
        obtain ⟨rfl, -⟩ := Course.going.inj (Option.some.inj (here.symm.trans there))
        exact .inl (Function.update_self ..)
  | answer request => exact .inl hy

theorem hasFailed_of_meets (h : (fresh (.fresh ident owner port dir)).live? is = some (n, c))
    (hmeets : (fresh (.fresh ident owner port dir)).Meets (FailsToConnect id err) is) :
    n.HasFailed id err := by
  induction is using List.reverseRecOn generalizing n c with
  | nil => exact hmeets.elim
  | append_singleton is i ih =>
    obtain ⟨n₁, c₁, hlive, hi, -⟩ := of_live?_concat h
    have hu := undergoes_of_undergo? hi
    rcases (meets_concat hlive).mp hmeets with hbefore | hnow
    · exact ((ih hlive hbefore).undergoes hu).1
    · exact hu.hasFailed hnow

/-- A start that does not get a connection never had one, and never gets one. -/
theorem not_connects_of_fails
    (h : (fresh (.fresh ident owner port dir)).live? is = some (n, c))
    (hmeets : (fresh (.fresh ident owner port dir)).Meets (FailsToConnect id err) is) :
    ¬ (fresh (.fresh ident owner port dir)).Meets (Connects id) is := by
  induction is using List.reverseRecOn generalizing n c with
  | nil => exact hmeets.elim
  | append_singleton is i ih =>
    obtain ⟨n₁, c₁, hlive, hi, -⟩ := of_live?_concat h
    rw [meets_concat hlive, not_or]
    rcases (meets_concat hlive).mp hmeets with hbefore | ⟨_, _, rfl, here⟩
    · refine ⟨ih hlive hbefore, ?_⟩
      rintro ⟨_, _, _, -, here⟩
      rcases hasFailed_of_meets hlive hbefore with there | there
      · exact nomatch here.symm.trans there
      · exact nomatch here.symm.trans there
    · refine ⟨fun hconnects => ?_, fun ⟨_, _, _, heq, _⟩ => nomatch heq⟩
      have hstarted := (started_iff hlive).mpr ⟨id, hconnects⟩
      exact nomatch hstarted.symm.trans ((custody_of_live? hlive).unstarted here)

/-! ## Starts that are refused -/

/-- Whoever was never called has asked for nothing. -/
theorem ask_not_mem_of_none (h : n.live? is = some (n', c)) (none : n'.course id = none) :
    .move (.ask id) ∉ is := by
  induction is using List.reverseRecOn generalizing n' c with
  | nil => exact List.not_mem_nil
  | append_singleton is i ih =>
    obtain ⟨n₁, c₁, hlive, hi, -⟩ := of_live?_concat h
    have hu := undergoes_of_undergo? hi
    have hbefore : n₁.course id = Option.none := by
      by_contra hne
      obtain ⟨x, hx⟩ := Option.ne_none_iff_exists'.mp hne
      obtain ⟨y, hy, -⟩ := hu.fate hx
      exact nomatch none.symm.trans hy
    rw [List.mem_append, List.mem_singleton, not_or]
    refine ⟨ih hlive hbefore, ?_⟩
    rintro rfl
    cases hu with
    | move made =>
      cases made with
      | ask here request => exact nomatch hbefore.symm.trans here

/-- A start that has yet to pass its look at the status has asked for nothing. -/
theorem ask_not_mem_of_isComing (h : n.live? is = some (n', c))
    (new : n.course id = none) (here : n'.course id = some (.going (.start p) asked))
    (hp : p.isComing = true) : .move (.ask id) ∉ is := by
  induction is using List.reverseRecOn generalizing n' c p asked with
  | nil =>
    obtain ⟨rfl, -⟩ := of_live?_nil h
    exact nomatch new.symm.trans here
  | append_singleton is i ih =>
    obtain ⟨n₁, c₁, hlive, hi, -⟩ := of_live?_concat h
    generalize ha : Activity.start p = a at here
    rw [List.mem_append, List.mem_singleton, not_or]
    have hu := undergoes_of_undergo? hi
    cases hu.origin here with
    | aside other before =>
      subst ha
      exact ⟨ih hlive before hp, fun heq => other (by rw [← heq]; rfl)⟩
    | @call entry =>
      cases hu with
      | move made =>
        cases made with
        | call new' => exact ⟨ask_not_mem_of_none hlive new', nofun⟩
    | spawn => exact nomatch ha
    | step before ready next =>
      subst ha
      obtain ⟨p', rfl, hleads⟩ := Activity.eq_start_of_step ready next
      exact ⟨ih hlive before (StartPoint.isComing_of_step hleads hp), nofun⟩
    | ask before request =>
      subst ha
      exact nomatch (StartPoint.request?_of_isComing hp n₁.elector).symm.trans request
    | answer before request next =>
      subst ha
      obtain ⟨p', rfl, -, hresumes⟩ := Activity.eq_start_of_reply request next
      exact nomatch (StartPoint.isComing_of_reply hresumes).symm.trans hp

/-- What a start is told that is refused, and that nothing else comes of it. -/
theorem Undergoes.refused (h : n.Undergoes (.move (.step id w)) n') {address : String}
    {blocking : Bool} (here : n.course id = some (.going (.start (.check address blocking)) asked))
    (hkept : n.elector.started = true ∨ n.elector.status ≠ .uninitialized) :
    n'.elector = n.elector ∧
      n'.HasFailed id (ElectionError.alreadyStarted n.elector.status) := by
  obtain ⟨hcourse, helector⟩ := h.course_elector_of_step here
  rw [Activity.step, StartPoint.step_check, if_pos hkept] at hcourse helector
  exact ⟨helector, .inl hcourse⟩

/-! ## One start at most -/

/-- What competes has a connection. -/
theorem eq_of_competes (h : (fresh (.fresh ident owner port dir)).live? is = some (n, c))
    (hid : (fresh (.fresh ident owner port dir)).Meets (Competes id) is)
    (hid' : (fresh (.fresh ident owner port dir)).Meets (Competes id') is) : id = id' :=
  eq_of_connects h (meets_connects_of_trace h (hid.imp fun _ _ => .inl))
    (meets_connects_of_trace h (hid'.imp fun _ _ => .inl))

/-- A start that is called without an address is over at once, and nobody notices. -/
theorem occur?_of_error {settings : Settings.Election} {blocking : Bool}
    (hsettings : settings.coordinator = .error err)
    (h : n.occur? (.attempt id settings blocking) = some n') :
    n'.elector = n.elector ∧ n'.requests = n.requests ∧
      (∀ id', id' ≠ id → n'.course id' = n.course id') ∧
      n'.course id = some (.ended (.started (.error err))) := by
  rw [occur?, Option.ite_none_right_eq_some] at h
  obtain ⟨-, heq⟩ := h
  obtain rfl := Option.some.inj heq
  refine ⟨rfl, rfl, fun id' hne => Function.update_of_ne hne .., ?_⟩
  show Function.update n.course id (some (entrance settings blocking)) id = _
  rw [Function.update_self, entrance, hsettings]
  rfl

/-- Nobody keeps a start that is refused from ending. -/
theorem exists_refused {address : String} {blocking : Bool}
    (here : n.course id = some (.going (.start (.check address blocking)) asked))
    (hkept : n.elector.started = true ∨ n.elector.status ≠ .uninitialized) (hw : w ≠ id)
    (neww : n.course w = none) :
    ∃ n', n.pass? [.incident (.move (.step id w)), .incident (.move (.step id w))] = some n' ∧
      n'.elector = n.elector.leaveInit ∧
      n'.course id = some (.ended (.started
        (.error (ElectionError.alreadyStarted n.elector.status)))) := by
  obtain ⟨n₁, hi, helector, neww₁, hcourse⟩ := exists_step here rfl hw neww (by
    rw [Activity.step, StartPoint.step_check]
    rfl)
  rw [Activity.step, StartPoint.step_check, if_pos hkept] at helector hcourse
  obtain ⟨n₂, hi₂, helector₂, -, hcourse₂⟩ := exists_step hcourse rfl hw neww₁ rfl
  refine ⟨n₂, ?_, ?_, hcourse₂⟩
  · rw [pass?, occur?, hi, Option.bind_some, pass?, occur?, hi₂]
    rfl
  · rw [helector₂, helector]
    rfl

/-- Against any lock service and any registry, and however starts, stops and dropped calls
interleave: at most one start ever asks for more than a connection.  A start whose settings hold no
address is over at once, and one that does not get a connection changes nothing that another could
see, and asks for nothing else.  A start that looks at the status after another has connected, or
after a stop has ended, is told of the status that it sees; it makes no request before or after, and
ends with its next two steps. -/
theorem one_start_enters
    (reached : (fresh (.fresh ident owner port dir)).pass? os = some n) :
    (∀ id id', (fresh (.fresh ident owner port dir)).Meets (Competes id) (incidents os) →
      (fresh (.fresh ident owner port dir)).Meets (Competes id') (incidents os) → id = id') ∧
    (∀ id (settings : Settings.Election) blocking n',
      (∀ address, settings.coordinatorAddress = some address →
        Text.isBlankText address = true) →
      n.occur? (.attempt id settings blocking) = some n' →
      n'.elector = n.elector ∧ n'.requests = n.requests ∧
      (∀ id', id' ≠ id → n'.course id' = n.course id') ∧
      ∃ reason, n'.course id = some (.ended (.started (.error (.invalidSettings reason))))) ∧
    (∀ id err, (fresh (.fresh ident owner port dir)).Meets (FailsToConnect id err) (incidents os) →
      n.HasFailed id err ∧
      ¬ (fresh (.fresh ident owner port dir)).Meets (LeavesTrace id) (incidents os)) ∧
    ∀ id address blocking asked,
      n.course id = some (.going (.start (.check address blocking)) asked) →
      ((∃ id', (fresh (.fresh ident owner port dir)).Meets (Connects id') (incidents os)) ∨
        ∃ id' r, n.course id' = some (.ended (.stopped r))) →
      ∀ w,
        (∀ os' n', n.pass? (.incident (.move (.step id w)) :: os') = some n' →
          n'.HasFailed id (ElectionError.alreadyStarted n.elector.status) ∧
          .move (.ask id) ∉ incidents (os ++ .incident (.move (.step id w)) :: os')) ∧
        (w ≠ id → n.course w = none → ∃ n',
          n.pass? [.incident (.move (.step id w)), .incident (.move (.step id w))] = some n' ∧
          n'.elector = n.elector.leaveInit ∧
          n'.course id = some (.ended (.started
            (.error (ElectionError.alreadyStarted n.elector.status))))) := by
  obtain ⟨m, c, hlive, hm⟩ := (Echoes.refl _).pass reached
  refine ⟨fun id id' => eq_of_competes hlive, fun id settings blocking n' hblank hn' => ?_,
    fun id err hfails => ⟨?_, ?_⟩, fun id address blocking asked here hlate w => ?_⟩
  · obtain ⟨reason, hsettings⟩ := Settings.Election.coordinator_eq_error_iff.mpr hblank
    obtain ⟨helector, hrequests, hothers, hended⟩ := occur?_of_error hsettings hn'
    exact ⟨helector, hrequests, hothers, reason, hended⟩
  · exact (hasFailed_of_meets hlive hfails).imp hm.of_course hm.of_course
  · exact fun htrace => not_connects_of_fails hlive hfails (meets_connects_of_trace hlive htrace)
  · have hkept : n.elector.started = true ∨ n.elector.status ≠ .uninitialized := by
      rw [hm.elector]
      rcases hlate with hconnects | ⟨id', r, hended⟩
      · exact .inl ((started_iff hlive).mpr hconnects)
      · have hstopped : m.elector.status = .stopped := by
          rcases hm.course id' with hsame | ⟨-, err, hfailed⟩
          · exact (coherent_of_live? hlive).ended id' r (hsame.symm.trans hended)
          · cases hfailed.symm.trans hended
        rw [hstopped]
        exact .inr (by decide)
    refine ⟨fun os' n' hpass => ?_, fun hw neww => exists_refused here hkept hw neww⟩
    obtain ⟨m', c', hlive', hm'⟩ := hm.pass hpass
    obtain ⟨m₁, c₁, hi, hrest, -⟩ := of_live?_cons hlive'
    have hthere := hm.of_going here
    rw [hm.elector] at hkept ⊢
    obtain ⟨-, hfailed⟩ := (undergoes_of_undergo? hi).refused hthere hkept
    obtain ⟨hfailed', hasked⟩ := hfailed.live hrest
    refine ⟨hfailed'.imp hm'.of_course hm'.of_course, ?_⟩
    rw [incidents, List.filterMap_append, List.mem_append, not_or]
    refine ⟨ask_not_mem_of_isComing hlive rfl hthere rfl, ?_⟩
    show Incident.move (.ask id) ∉ .move (.step id w) :: incidents os'
    rw [List.mem_cons, not_or]
    exact ⟨by simp, hasked⟩

/-- Four starts are called, the first of them without an address.  The second waits for a
connection, and the others for the turnstile. -/
def crowdedStart : List Occurrence :=
  [.attempt 0 { coordinatorAddress := some " " } false,
    .attempt 1 { coordinatorAddress := some "memory" } false] ++
  List.map (fun m => .incident (.move m)) [.step 1 9, .step 1 9, .ask 1] ++
  [.attempt 2 { coordinatorAddress := some "memory" } true, .incident (.move (.step 2 9)),
    .attempt 3 { coordinatorAddress := some "memory" } false, .incident (.move (.step 3 9))]

/-- It gets none.  The third gets one, and waits for the lock while the fourth comes to look at the
status. -/
def crowdedEnd : List Occurrence :=
  List.map (fun m => .incident (.move m))
    [.step 1 9, .step 2 9, .step 2 9, .ask 2, .answer 2 (.ok true), .ask 2, .answer 2 (.ok true),
     .ask 2, .answer 2 (.ok true), .step 2 9, .step 2 9, .step 3 9]

def unreachable : Error := .lock (.unavailable "memory")

def crowded : List Occurrence :=
  crowdedStart ++ .incident (.move (.answer 1 (.error unreachable))) :: crowdedEnd

/-- The node that these lead to. -/
def crowdedNode : Node := (blank.pass? crowded).getD blank

theorem crowded_one_start_enters :
    (∀ id, blank.Meets (Competes id) (incidents crowded) → id = 2) ∧
    (∃ n' reason, crowdedNode.occur? (.attempt 4 {} true) = some n' ∧
      n'.elector = crowdedNode.elector ∧
      n'.course 4 = some (.ended (.started (.error (.invalidSettings reason))))) ∧
    crowdedNode.HasFailed 1 unreachable ∧
    ¬ blank.Meets (LeavesTrace 1) (incidents crowded) ∧
    ∃ n', crowdedNode.pass? [.incident (.move (.step 3 9)), .incident (.move (.step 3 9))] =
        some n' ∧
      n'.course 3 = some (.ended (.started
        (.error (ElectionError.alreadyStarted .uninitialized)))) := by
  have hreached : blank.pass? crowded = some crowdedNode := rfl
  obtain ⟨hone, hblank, hfails, hlate⟩ := one_start_enters hreached
  -- the second start gets no connection, and the third gets one
  have hasked : blank.live? (incidents crowdedStart) =
      some (blank.after (incidents crowdedStart)) := rfl
  have hfailure : FailsToConnect 1 unreachable (blank.after (incidents crowdedStart)).1
      (.move (.answer 1 (.error unreachable))) := ⟨"memory", false, rfl, rfl⟩
  have hmeets : blank.Meets (FailsToConnect 1 unreachable) (incidents crowded) :=
    ((meets_concat hasked).mpr (.inr hfailure)).append (incidents crowdedEnd)
  have hopened : blank.live? ((incidents crowded).take 13) =
      some (blank.after ((incidents crowded).take 13)) := rfl
  have hconnection : Connects 2 (blank.after ((incidents crowded).take 13)).1
      (.move (.answer 2 (.ok true))) := ⟨"memory", true, true, rfl, rfl⟩
  have hconnects : blank.Meets (Connects 2) (incidents crowded) :=
    ((meets_concat hopened).mpr (.inr hconnection)).append ((incidents crowded).drop 14)
  have hready : blank.live? ((incidents crowded).take 14) =
      some (blank.after ((incidents crowded).take 14)) := rfl
  have hput : Competes 2 (blank.after ((incidents crowded).take 14)).1 (.move (.ask 2)) :=
    ⟨_, _, rfl, rfl, rfl, nofun⟩
  have hcompetes : blank.Meets (Competes 2) (incidents crowded) :=
    ((meets_concat hready).mpr (.inr hput)).append ((incidents crowded).drop 15)
  have hcall : crowdedNode.occur? (.attempt 4 {} true) =
      some (crowdedNode.setCourse 4 (entrance {} true)) := rfl
  obtain ⟨helector, -, -, reason, hended⟩ := hblank 4 {} true _ nofun hcall
  obtain ⟨hfailed, htrace⟩ := hfails 1 unreachable hmeets
  obtain ⟨-, hrefused⟩ := hlate 3 "memory" false false rfl (.inl ⟨2, hconnects⟩) 9
  obtain ⟨n', hpass, -, hrefusal⟩ := hrefused (by decide) rfl
  exact ⟨fun id hid => hone id 2 hid hcompetes, ⟨_, reason, hcall, helector, hended⟩, hfailed,
    htrace, n', hpass, hrefusal⟩

end Node

end Primacy.Election
