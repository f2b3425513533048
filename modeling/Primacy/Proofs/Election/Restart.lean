/-
  Primacy.Proofs.Election.Restart

  Whether an elector that shows no sign of a start can be started.  The status alone does not tell:
  a start that got a connection, and that ends with an error of the lock service or is dropped
  before it has changed the status, leaves its mark behind.  From then on every start is refused,
  although the elector never gets on.
-/
import Primacy.Proofs.Election.Admission
import Primacy.Proofs.Election.Entrance

namespace Primacy.Election

/-! ## Points before the status changes -/

namespace StartPoint

variable {e : Elector} {me : CallId} {r : Reply} {p p' : StartPoint}

/-- The start has a connection, and has yet to change the status. -/
def isUnderway : StartPoint → Bool
  | publish .. | tryLock | standBy | leaveEarly | await | checkShutdown | promote _ .run => true
  | _ => false

theorem isLinked_of_isUnderway (h : p.isUnderway = true) : p.isLinked = true := by
  cases p with
  | promote blocking x => rfl
  | publish writes blocking => rfl
  | tryLock => rfl
  | standBy => rfl
  | leaveEarly => rfl
  | await => rfl
  | checkShutdown => rfl
  | _ => exact nomatch h

/-- A step that leaves the status unchanged gets it to another such point, unless a stop was
requested. -/
theorem isUnderway_of_step (h : p.isUnderway = true) (ready : p.isReady e me = true)
    (calm : e.shutdown = false) (before : e.status = .uninitialized)
    (after : (p.step e me).elector.status = .uninitialized) :
    ∃ p', (p.step e me).next = .inl p' ∧ p'.isUnderway = true := by
  cases p with
  | publish writes blocking => cases blocking <;> exact ⟨_, rfl, rfl⟩
  | standBy =>
    rw [step, before] at after
    cases after
  | leaveEarly => exact ⟨_, rfl, rfl⟩
  | await => cases calm.symm.trans ready
  | checkShutdown =>
    refine ⟨promote true .run, ?_, rfl⟩
    rw [step, calm]
    rfl
  | promote blocking x =>
    cases x with
    | run =>
      rw [step, Turn.within_elector, PromotionPoint.step, before] at after
      cases after
    | _ => cases h
  | tryLock => cases ready
  | _ => cases h

/-- The lock service answers a start that asks for the lock with an error. -/
def isTrying : StartPoint → Bool
  | tryLock => true
  | await => true
  | _ => false

/-- An answer gets it to another such point, unless the lock service fails. -/
theorem isUnderway_of_reply (h : p.isUnderway = true)
    (hfine : p.isTrying = true → r.isOk = true) :
    ∃ p', (p.reply e r).next = .inl p' ∧ p'.isUnderway = true := by
  cases p with
  | publish writes blocking =>
    cases writes with
    | nil => exact ⟨_, rfl, rfl⟩
    | cons write writes => cases r <;> exact ⟨_, rfl, rfl⟩
  | tryLock =>
    cases r with
    | error err => exact nomatch hfine rfl
    | ok granted => cases granted <;> exact ⟨_, rfl, rfl⟩
  | await =>
    cases r with
    | error err => exact nomatch hfine rfl
    | ok granted => exact ⟨_, rfl, rfl⟩
  | promote blocking x =>
    cases x with
    | run => exact ⟨_, rfl, rfl⟩
    | _ => exact nomatch h
  | standBy => exact ⟨_, rfl, rfl⟩
  | leaveEarly => exact ⟨_, rfl, rfl⟩
  | checkShutdown => exact ⟨_, rfl, rfl⟩
  | _ => exact nomatch h

end StartPoint

namespace Activity

variable {a b : Activity} {e : Elector} {me : CallId}

/-- Only a stop requests one. -/
theorem step_shutdown_of_ne (h : ∀ p, a ≠ stop p) (e : Elector) (me : CallId) :
    (a.step e me).elector.shutdown = e.shutdown := by
  cases a with
  | start p =>
    obtain ⟨_, _, _, _, _, _, hp⟩ := p.step_elector e me
    rw [step, Turn.within_elector, hp]
  | stop p => exact absurd rfl (h p)
  | await p => rw [step, Turn.within_elector, p.step_elector]
  | notify p =>
    obtain ⟨_, hp⟩ := p.step_elector e
    rw [step, Turn.within_elector, hp]
  | waiter p =>
    obtain ⟨_, _, _, _, hp⟩ := p.step_elector e
    rw [step, Turn.within_elector, hp]

theorem eq_stop_of_step {p : StopPoint} (h : (a.step e me).next = .inl (stop p)) :
    ∃ p', a = stop p' := by
  cases a with
  | stop p' => exact ⟨p', rfl⟩
  | _ =>
    rcases Turn.of_within h with ⟨_, _, heq⟩ | ⟨_, _, hr⟩
    · cases heq
    · cases hr

theorem eq_stop_of_reply {p : StopPoint} {r : Reply} (h : (a.reply e r).next = .inl (stop p)) :
    ∃ p', a = stop p' := by
  cases a with
  | stop p' => exact ⟨p', rfl⟩
  | await p' => cases h
  | notify p' => cases h
  | _ =>
    rcases Turn.of_within h with ⟨_, _, heq⟩ | ⟨_, _, hr⟩
    · cases heq
    · cases hr

/-- Nobody else but starts and stops comes to the turnstile. -/
theorem eq_start_or_stop (h : a.place ≠ .outside) : (∃ p, a = start p) ∨ ∃ p, a = stop p := by
  cases a with
  | start p => exact .inl ⟨p, rfl⟩
  | stop p => exact .inr ⟨p, rfl⟩
  | _ => exact absurd rfl h

end Activity

namespace Node

variable {n n' : Node} {i : Incident} {is : List Incident} {id id' w : CallId} {a : Activity}
  {asked : Bool} {c : Chronicle} {p : StartPoint} {ident : Identity} {owner : String} {port : Nat}
  {dir : Option String} {os : List Occurrence}

/-! ## Electors that nobody stops -/

/-- No stop was requested, and nobody is about to request one. -/
structure Unstopped (n : Node) : Prop where
  calm : n.elector.shutdown = false
  alone : ∀ id p asked, n.course id ≠ some (.going (.stop p) asked)

theorem Unstopped.undergoes (hn : n.Unstopped) (h : n.Undergoes i n')
    (hcall : ∀ id, i ≠ .move (.call id .stop)) (hdiscard : i ≠ .move .discard) :
    n'.Unstopped where
  calm := by
    cases h with
    | move made =>
      cases made with
      | call new => exact hn.calm
      | @step id w a asked here ready new =>
        rw [spawn_elector]
        refine (a.step_shutdown_of_ne ?_ n.elector id).trans hn.calm
        rintro p rfl
        exact hn.alone id p asked here
      | ask here request => exact hn.calm
      | answer here request => exact (Activity.reply_shutdown ..).trans hn.calm
      | @breakOff id a asked here may =>
        obtain ⟨_, _, ha⟩ := a.abandon_elector n.elector id
        show (a.abandon n.elector id).shutdown = false
        rw [ha]
        exact hn.calm
      | discard => exact absurd rfl hdiscard
    | collapse here => exact hn.calm
  alone id p asked here := by
    generalize ha : Activity.stop p = a at here
    cases h.origin here with
    | aside other before =>
      subst ha
      exact hn.alone id p asked before
    | @call entry =>
      cases entry <;> cases ha
      exact hcall id rfl
    | spawn => exact nomatch ha
    | step before ready next =>
      subst ha
      obtain ⟨p', rfl⟩ := Activity.eq_stop_of_step next
      exact hn.alone id p' _ before
    | ask before request =>
      subst ha
      exact hn.alone id p false before
    | answer before request next =>
      subst ha
      obtain ⟨p', rfl⟩ := Activity.eq_stop_of_reply next
      exact hn.alone id p' true before

theorem unstopped_of_live? (h : (fresh (.fresh ident owner port dir)).live? is = some (n, c))
    (hcall : ∀ id, .move (.call id .stop) ∉ is) (hdiscard : .move .discard ∉ is) :
    n.Unstopped := by
  induction is using List.reverseRecOn generalizing n c with
  | nil =>
    obtain ⟨rfl, -⟩ := of_live?_nil h
    exact ⟨rfl, nofun⟩
  | append_singleton is i ih =>
    obtain ⟨n₁, c₁, hlive, hi, -⟩ := of_live?_concat h
    refine (ih hlive (fun id hmem => ?_) fun hmem => ?_).undergoes (undergoes_of_undergo? hi)
      (fun id heq => ?_) fun heq => ?_
    · exact hcall id (List.mem_append_left _ hmem)
    · exact hdiscard (List.mem_append_left _ hmem)
    · exact hcall id (List.mem_append_right _ (List.mem_singleton.mpr heq.symm))
    · exact hdiscard (List.mem_append_right _ (List.mem_singleton.mpr heq.symm))

/-! ## The turnstile throughout a run -/

theorem Admits.undergoes (hn : n.Admits) (h : n.Undergoes i n') : n'.Admits := by
  cases h with
  | move made => exact hn.makes made
  | @collapse id p here =>
    have hplace : (n.setCourse id .brokenOff).place = n.place :=
      place_setCourse_same (place_of_going here).symm
    show n.elector.init.Admits (n.setCourse id .brokenOff).place
    rw [hplace]
    exact hn

theorem admits_of_live? (h : (fresh (.fresh ident owner port dir)).live? is = some (n, c)) :
    n.Admits :=
  live?_keeps (fun hu hn => hn.undergoes hu) h (admits_fresh rfl)

/-- Without a start or a stop at work nobody is at the turnstile. -/
theorem Admits.free (hn : n.Admits)
    (hstop : ∀ id p asked, n.course id ≠ some (.going (.stop p) asked))
    (hstart : ∀ id p asked, n.course id ≠ some (.going (.start p) asked)) :
    n.elector.init.holder = none := by
  by_contra hheld
  obtain ⟨id, hid⟩ := Option.ne_none_iff_exists'.mp hheld
  obtain ⟨a, asked, here, hplace⟩ := hn.exists_going hid
  have hnear : a.place ≠ .outside := by
    rw [← a.place_eq_inside_iff] at hplace
    rcases hplace with h | h <;> rw [h] <;> exact nofun
  rcases Activity.eq_start_or_stop hnear with ⟨p, rfl⟩ | ⟨p, rfl⟩
  · exact hstart id p asked here
  · exact hstop id p asked here

/-! ## Starts that are stranded -/

/-- A start that has a connection ends without a status to show for it: the lock service fails, or
the call is dropped. -/
def Strands (id : CallId) (n : Node) (i : Incident) : Prop :=
  ∃ p asked, n.course id = some (.going (.start p) asked) ∧
    ((p.isTrying = true ∧ ∃ err, i = .move (.answer id (.error err))) ∨
      p.isLinked = true ∧ i = .move (.breakOff id))

theorem Undergoes.status_before (h : n.Undergoes i n')
    (hs : n'.elector.status = .uninitialized) : n.elector.status = .uninitialized := by
  rcases h.precedes.status with hsame | hleads
  · exact hsame.symm.trans hs
  · rw [show n'.elector.face.status = .uninitialized from hs] at hleads
    generalize n.elector.face.status = s at hleads
    exact nomatch hleads

/-- While the elector shows no sign of a start, the start that got a connection is underway, or it
was stranded. -/
theorem Undergoes.underway (h : n.Undergoes i n') (calm : n.elector.shutdown = false)
    (hs : n'.elector.status = .uninitialized)
    (here : n.course id = some (.going (.start p) asked)) (hp : p.isUnderway = true) :
    (∃ p' asked', n'.course id = some (.going (.start p') asked') ∧ p'.isUnderway = true) ∨
      Strands id n i := by
  obtain ⟨y, hy, hfate⟩ := h.fate here
  cases hfate with
  | aside ask => exact .inl ⟨p, asked, hy, hp⟩
  | step ready =>
    obtain ⟨-, helector⟩ := h.course_elector_of_step here
    rw [helector] at hs
    obtain ⟨p', hnext, hp'⟩ := StartPoint.isUnderway_of_step hp ready calm
      (h.status_before (by rw [helector]; exact hs)) hs
    rw [Activity.step, Turn.within, hnext] at hy
    exact .inl ⟨p', false, hy, hp'⟩
  | ask request => exact .inl ⟨p, true, hy, hp⟩
  | @answer _ q r request =>
    by_cases hfine : p.isTrying = true → r.isOk = true
    · obtain ⟨p', hnext, hp'⟩ := StartPoint.isUnderway_of_reply (e := n.elector) hp hfine
      rw [Activity.reply, Turn.within, hnext] at hy
      exact .inl ⟨p', false, hy, hp'⟩
    · rw [Classical.not_imp] at hfine
      cases r with
      | ok granted => exact absurd rfl hfine.2
      | error err => exact .inr ⟨p, true, here, .inl ⟨hfine.1, err, rfl⟩⟩
  | breakOff may =>
    exact .inr ⟨p, asked, here, .inr ⟨StartPoint.isLinked_of_isUnderway hp, rfl⟩⟩

theorem Undergoes.underway_of_connects (h : n.Undergoes i n') (hi : Connects id n i) :
    ∃ p' asked', n'.course id = some (.going (.start p') asked') ∧ p'.isUnderway = true := by
  obtain ⟨address, blocking, granted, rfl, here⟩ := hi
  cases h with
  | move made =>
    cases made with
    | answer there request =>
      obtain ⟨rfl, -⟩ := Course.going.inj (Option.some.inj (here.symm.trans there))
      exact ⟨_, false, Function.update_self .., rfl⟩

theorem underway_or_stranded (h : (fresh (.fresh ident owner port dir)).live? is = some (n, c))
    (calm : n.elector.shutdown = false) (hs : n.elector.status = .uninitialized)
    (hmeets : (fresh (.fresh ident owner port dir)).Meets (Connects id) is) :
    (∃ p asked, n.course id = some (.going (.start p) asked) ∧ p.isUnderway = true) ∨
      (fresh (.fresh ident owner port dir)).Meets (Strands id) is := by
  induction is using List.reverseRecOn generalizing n c with
  | nil => exact hmeets.elim
  | append_singleton is i ih =>
    obtain ⟨n₁, c₁, hlive, hi, -⟩ := of_live?_concat h
    have hu := undergoes_of_undergo? hi
    have hcalm : n₁.elector.shutdown = false :=
      Bool.eq_false_iff.mpr fun hshut => nomatch (hu.shutdown hshut).symm.trans calm
    rw [meets_concat hlive]
    rcases (meets_concat hlive).mp hmeets with hbefore | hnow
    · rcases ih hlive hcalm (hu.status_before hs) hbefore with ⟨p, asked, here, hp⟩ | hstranded
      · exact (hu.underway hcalm hs here hp).imp_right .inr
      · exact .inr (.inl hstranded)
    · exact .inl (hu.underway_of_connects hnow)

/-- Whoever is stranded had a connection. -/
theorem Strands.isLinked (h : Strands id n i) :
    ∃ p asked, n.course id = some (.going (.start p) asked) ∧ p.isLinked = true := by
  obtain ⟨p, asked, here, ⟨htrying, -⟩ | ⟨hlinked, -⟩⟩ := h
  · refine ⟨p, asked, here, ?_⟩
    cases p with
    | tryLock => rfl
    | await => rfl
    | _ => exact nomatch htrying
  · exact ⟨p, asked, here, hlinked⟩

theorem connects_of_stranded (h : (fresh (.fresh ident owner port dir)).live? is = some (n, c))
    (hmeets : (fresh (.fresh ident owner port dir)).Meets (Strands id) is) :
    (fresh (.fresh ident owner port dir)).Meets (Connects id) is := by
  induction is using List.reverseRecOn generalizing n c with
  | nil => exact hmeets.elim
  | append_singleton is i ih =>
    obtain ⟨n₁, c₁, hlive, hi, -⟩ := of_live?_concat h
    rw [meets_concat hlive] at hmeets ⊢
    rcases hmeets with hbefore | hnow
    · exact .inl (ih hlive hbefore)
    · obtain ⟨p, asked, here, hp⟩ := hnow.isLinked
      exact .inl (meets_of_isLinked hlive here hp)

/-! ## Starting again -/

/-- With nobody at the turnstile a start gets to its look at the status, and where that leads. -/
theorem exists_look {settings : Settings.Election} (blocking : Bool) {address : String}
    (hsettings : settings.coordinator = .ok address) (free : n.elector.init.holder = none)
    (new : n.course id = none) (hw : w ≠ id) (neww : n.course w = none) :
    ∃ n', n.pass? [.attempt id settings blocking, .incident (.move (.step id w)),
        .incident (.move (.step id w))] = some n' ∧
      n'.course id = some (.going (.start
        (if n.elector.started = true ∨ n.elector.status ≠ .uninitialized then
          .leave (.error (ElectionError.alreadyStarted n.elector.status))
        else .connect address blocking)) false) := by
  have hcall : n.occur? (.attempt id settings blocking) =
      some (n.setCourse id (.going (.start (.arrive address blocking)) false)) := by
    rw [occur?, new, entrance, hsettings]
    rfl
  -- it goes through the turnstile, and looks at the status
  obtain ⟨n₂, hmove₂, helector₂, neww₂, here₂⟩ := exists_arrival free hw neww address blocking
  obtain ⟨n₃, hmove₃, -, -, here₃⟩ := exists_step here₂ rfl hw neww₂ (by
    rw [Activity.step, StartPoint.step_check]
    rfl)
  refine ⟨n₃, ?_, ?_⟩
  · rw [pass?, hcall, Option.bind_some, pass?, occur?, hmove₂, Option.bind_some, pass?, occur?,
      hmove₃]
    rfl
  · rw [here₃, Activity.step, StartPoint.step_check, helector₂]
    rfl

/-- Against any lock service and any registry, and however calls interleave: where no stop was ever
called, no start is at work and the status is as if there had never been one, a start with an
address gets to its look at the status.  It is refused there exactly if an earlier start was
stranded; otherwise it goes on to connect. -/
theorem restart_refused_iff {settings : Settings.Election} (blocking : Bool) {address : String}
    (reached : (fresh (.fresh ident owner port dir)).pass? os = some n)
    (unstopped : ∀ id, .move (.call id .stop) ∉ incidents os)
    (kept : .move .discard ∉ incidents os) (unused : n.elector.status = .uninitialized)
    (idle : ∀ id p asked, n.course id ≠ some (.going (.start p) asked))
    (hsettings : settings.coordinator = .ok address) (new : n.course id = none) (hw : w ≠ id)
    (neww : n.course w = none) :
    ∃ n', n.pass? [.attempt id settings blocking, .incident (.move (.step id w)),
        .incident (.move (.step id w))] = some n' ∧
      (n'.HasFailed id (ElectionError.alreadyStarted .uninitialized) ↔
        ∃ id', (fresh (.fresh ident owner port dir)).Meets (Strands id') (incidents os)) ∧
      (n'.course id = some (.going (.start (.connect address blocking)) false) ↔
        ¬ ∃ id', (fresh (.fresh ident owner port dir)).Meets (Strands id') (incidents os)) := by
  obtain ⟨m, c, hlive, hm⟩ := (Echoes.refl _).pass reached
  have hunstopped := unstopped_of_live? hlive unstopped kept
  have hidle : ∀ id p asked, m.course id ≠ some (.going (.start p) asked) := fun id p asked here =>
    idle id p asked (hm.of_course here)
  have hfree : n.elector.init.holder = none := by
    rw [hm.elector]
    exact (admits_of_live? hlive).free hunstopped.alone hidle
  have hstarted : n.elector.started = true ↔
      ∃ id', (fresh (.fresh ident owner port dir)).Meets (Strands id') (incidents os) := by
    rw [hm.elector, started_iff hlive]
    refine exists_congr fun id' => ⟨fun hconnects => ?_, connects_of_stranded hlive⟩
    have hunused : m.elector.status = .uninitialized := hm.elector ▸ unused
    rcases underway_or_stranded hlive hunstopped.calm hunused hconnects with
      ⟨p, asked, here, -⟩ | hstranded
    · exact absurd here (hidle id' p asked)
    · exact hstranded
  obtain ⟨n', hpass, hcourse⟩ := exists_look blocking hsettings hfree new hw neww
  have hkept : (n.elector.started = true ∨ n.elector.status ≠ .uninitialized) ↔
      ∃ id', (fresh (.fresh ident owner port dir)).Meets (Strands id') (incidents os) := by
    rw [or_iff_left (not_not.mpr unused), hstarted]
  refine ⟨n', hpass, ?_⟩
  by_cases hstranded :
      ∃ id', (fresh (.fresh ident owner port dir)).Meets (Strands id') (incidents os)
  · rw [if_pos (hkept.mpr hstranded), unused] at hcourse
    refine ⟨iff_of_true (.inl hcourse) hstranded, iff_of_false ?_ (not_not.mpr hstranded)⟩
    rw [hcourse]
    exact nofun
  · rw [if_neg (mt hkept.mp hstranded)] at hcourse
    refine ⟨iff_of_false ?_ hstranded, iff_of_true hcourse hstranded⟩
    rintro (hleave | hended)
    · exact nomatch hcourse.symm.trans hleave
    · exact nomatch hcourse.symm.trans hended

/-- A start has published its endpoints and asks for the lock. -/
def tryingStart : List Occurrence :=
  .attempt 0 { coordinatorAddress := some "memory" } false ::
    List.map (fun m => .incident (.move m))
      [.step 0 9, .step 0 9, .ask 0, .answer 0 (.ok true), .ask 0, .answer 0 (.ok true), .ask 0,
       .answer 0 (.ok true), .step 0 9, .ask 0]

/-- The lock service fails, and the start returns the error. -/
def strandedStart : List Occurrence :=
  tryingStart ++ [.incident (.move (.answer 0 (.error unreachable))), .incident (.move (.step 0 9))]

/-- A start gets no connection, and returns the error. -/
def turnedBackStart : List Occurrence :=
  tryingStart.take 4 ++
    [.incident (.move (.answer 0 (.error unreachable))), .incident (.move (.step 0 9))]

/-- Another start is called, and looks at the status. -/
def secondStart : List Occurrence :=
  [.attempt 1 { coordinatorAddress := some "memory" } false, .incident (.move (.step 1 9)),
    .incident (.move (.step 1 9))]

def strandedNode : Node := (blank.pass? strandedStart).getD blank

def turnedBackNode : Node := (blank.pass? turnedBackStart).getD blank

/-- The incident neither calls a stop nor drops the elector. -/
def Incident.isSparing : Incident → Bool
  | .move (.call _ .stop) => false
  | .move .discard => false
  | _ => true

/-- Nobody in either run calls a stop, or drops the elector. -/
theorem not_mem_of_start {i : Incident} (hi : i.isSparing = false)
    (hos : os = strandedStart ∨ os = turnedBackStart) : i ∉ incidents os := by
  have hall : (incidents os).all Incident.isSparing = true := by
    rcases hos with rfl | rfl <;> rfl
  intro hmem
  cases hi.symm.trans (List.all_eq_true.mp hall i hmem)

/-- In neither of them a start is still at work. -/
theorem idle_of_start (hos : n = strandedNode ∨ n = turnedBackNode) (p : StartPoint)
    (asked : Bool) : n.course id ≠ some (.going (.start p) asked) := by
  intro here
  rcases hos with rfl | rfl
  · match id with
    | 0 => exact nomatch here
    | id + 1 => exact nomatch here
  · match id with
    | 0 => exact nomatch here
    | id + 1 => exact nomatch here

theorem stranded_restart_refused :
    (∃ n', strandedNode.pass? secondStart = some n' ∧
      n'.HasFailed 1 (ElectionError.alreadyStarted .uninitialized)) ∧
    ∃ n', turnedBackNode.pass? secondStart = some n' ∧
      n'.course 1 = some (.going (.start (.connect "memory" false)) false) := by
  have hstranded : blank.pass? strandedStart = some strandedNode := rfl
  have hturnedBack : blank.pass? turnedBackStart = some turnedBackNode := rfl
  have hsettings : Settings.Election.coordinator { coordinatorAddress := some "memory" } =
      .ok "memory" := rfl
  have hfree : ∀ id, strandedNode.course (id + 1) = none ∧ turnedBackNode.course (id + 1) = none :=
    fun _ => ⟨rfl, rfl⟩
  obtain ⟨n₁, hpass₁, hrefused, -⟩ := restart_refused_iff false hstranded
    (fun _ => not_mem_of_start rfl (.inl rfl)) (not_mem_of_start rfl (.inl rfl)) rfl
    (fun _ => idle_of_start (.inl rfl)) hsettings (hfree 0).1 (by decide) (hfree 8).1
  obtain ⟨n₂, hpass₂, -, hconnects⟩ := restart_refused_iff false hturnedBack
    (fun _ => not_mem_of_start rfl (.inr rfl)) (not_mem_of_start rfl (.inr rfl)) rfl
    (fun _ => idle_of_start (.inr rfl)) hsettings (hfree 0).2 (by decide) (hfree 8).2
  -- in the first run the lock service failed under the start
  have htrying : blank.live? (incidents tryingStart) =
      some (blank.after (incidents tryingStart)) := rfl
  have hfailure : Strands 0 (blank.after (incidents tryingStart)).1
      (.move (.answer 0 (.error unreachable))) := ⟨.tryLock, true, rfl, .inl ⟨rfl, _, rfl⟩⟩
  have hmeets : blank.Meets (Strands 0) (incidents strandedStart) :=
    ((meets_concat htrying).mpr (.inr hfailure)).append [.move (.step 0 9)]
  -- in the second run nobody got a connection
  have hlive : blank.live? (incidents turnedBackStart) =
      some (blank.after (incidents turnedBackStart)) := rfl
  have hnobody : ¬ ∃ id', blank.Meets (Strands id') (incidents turnedBackStart) := by
    rintro ⟨id', hstranded⟩
    exact nomatch (started_iff hlive).mpr ⟨id', connects_of_stranded hlive hstranded⟩
  exact ⟨⟨n₁, hpass₁, hrefused.mpr ⟨0, hmeets⟩⟩, n₂, hpass₂, hconnects.mpr hnobody⟩

/-- After an error of the lock service the elector looks as if it had never been started, and a
start is told that it has been started already. -/
theorem not_startable_again :
    ¬ ∀ (os : List Occurrence) (n n' : Node) (id w : CallId) (settings : Settings.Election)
      (blocking : Bool) (address : String),
      blank.pass? os = some n → (∀ id, .move (.call id .stop) ∉ incidents os) →
      .move .discard ∉ incidents os → n.elector.status = .uninitialized →
      (∀ id p asked, n.course id ≠ some (.going (.start p) asked)) →
      settings.coordinator = .ok address →
      n.pass? [.attempt id settings blocking, .incident (.move (.step id w)),
        .incident (.move (.step id w))] = some n' →
      ¬ n'.HasFailed id (ElectionError.alreadyStarted .uninitialized) := by
  intro h
  exact h strandedStart strandedNode ((strandedNode.pass? secondStart).getD blank) 1 9
    { coordinatorAddress := some "memory" } false "memory" rfl
    (fun _ => not_mem_of_start rfl (.inl rfl)) (not_mem_of_start rfl (.inl rfl)) rfl
    (fun _ => idle_of_start (.inl rfl)) rfl rfl (.inl rfl)

end Node

end Primacy.Election
