/-
  Primacy.Proofs.Election.Watch

  The watch that a standby keeps for the lock.  A waiter that hears of an error of the lock service
  leaves its failure in the elector; one under which the lock service breaks down leaves nothing but
  a standby that nobody will make primary.  A waiter ends in no other way before it is promoted or a
  stop is requested.
-/
import Primacy.Proofs.Election.Entrance
import Primacy.Proofs.Election.Tenancy

namespace Primacy.Election

/-! ## Coming to stand by -/

/-- An elector at which nothing has happened comes to stand by through one deed. -/
theorem Deed.eq_standBy {f : Face} {d : Deed} (before : f.status = .uninitialized)
    (after : (d.apply f).status = .standby) : d = .standBy := by
  cases d with
  | standBy => rfl
  | run =>
    rw [apply_run] at after
    split at after
    · cases after
    · cases before.symm.trans after
  | halt => cases after
  | openGate route => cases before.symm.trans after
  | closeGate => cases before.symm.trans after
  | register callback => cases before.symm.trans after
  | callBack => cases before.symm.trans after

/-- A standby may run, and does from then on. -/
theorem PromotionPoint.run_ne_standby (route : Route) (e : Elector) :
    (PromotionPoint.run.step route e).elector.status ≠ .standby := by
  rw [step]
  by_cases hcan : e.status.canBecome .running = true
  · rw [if_pos hcan]
    intro hs
    cases hs
  · rw [if_neg hcan]
    intro hs
    rw [show e.status = .standby from hs] at hcan
    exact hcan rfl

namespace Activity

variable {a : Activity} {e : Elector} {me : CallId} {r : Reply}

theorem eq_standBy (h : a.deed? = some .standBy) : a = start .standBy := by
  cases a with
  | start p =>
    cases p with
    | standBy => rfl
    | promote blocking p => cases p <;> exact nomatch h
    | _ => exact nomatch h
  | stop p => cases p <;> exact nomatch h
  | await p => exact nomatch h
  | notify p => cases p <;> exact nomatch h
  | waiter p =>
    cases p with
    | promote p => cases p <;> exact nomatch h
    | _ => exact nomatch h

/-! ## Points of the watch -/

/-- The activity sees to it that a standby gets the lock: it is about to bring a waiter to life, or
it is a waiter that has yet to show what it was granted. -/
def watches : Activity → Bool
  | start .spawnWaiter => true
  | waiter .await => true
  | waiter .checkShutdown => true
  | waiter (.promote .run) => true
  | _ => false

theorem competes_of_watches (h : a.watches = true) : a.stage.competes = true := by
  cases a with
  | start p =>
    cases p with
    | spawnWaiter => rfl
    | _ => exact nomatch h
  | waiter p =>
    cases p with
    | await => rfl
    | checkShutdown => rfl
    | promote p =>
      cases p with
      | run => rfl
      | _ => exact nomatch h
    | _ => exact nomatch h
  | _ => exact nomatch h

/-- The only request on the watch is that for the lock. -/
theorem eq_await_of_watches (h : a.watches = true) (hq : (a.request? e).isSome = true) :
    a = waiter .await := by
  cases a with
  | start p =>
    cases p with
    | spawnWaiter => exact nomatch hq
    | _ => exact nomatch h
  | waiter p =>
    cases p with
    | await => rfl
    | checkShutdown => exact nomatch hq
    | promote p =>
      cases p with
      | run => exact nomatch hq
      | _ => exact nomatch h
    | _ => exact nomatch h
  | _ => exact nomatch h

/-- Whoever may be suspended on the watch waits for the lock, unless it has made a request. -/
theorem eq_await_of_mayRest (h : a.watches = true) (hrest : a.mayRest false = true) :
    a = waiter .await := by
  cases a with
  | start p =>
    cases p with
    | spawnWaiter => exact nomatch hrest
    | _ => exact nomatch h
  | waiter p =>
    cases p with
    | await => rfl
    | _ => exact nomatch hrest
  | _ => exact nomatch h

/-- While no stop is requested and the elector does not run, a step on the watch leads on with it,
or it is that of the start, which leaves the watch to the waiter. -/
theorem watches_of_step (h : a.watches = true) (ready : a.isReady e me = true)
    (calm : e.shutdown = false) (after : (a.step e me).elector.status = .standby) :
    a = start .spawnWaiter ∨ ∃ b, (a.step e me).next = .inl b ∧ b.watches = true := by
  cases a with
  | start p =>
    cases p with
    | spawnWaiter => exact .inl rfl
    | _ => cases h
  | waiter p =>
    cases p with
    | await => cases calm.symm.trans ready
    | checkShutdown =>
      refine .inr ⟨waiter (.promote .run), ?_, rfl⟩
      rw [step, WaiterPoint.step, calm]
      rfl
    | promote p =>
      cases p with
      | run =>
        obtain ⟨_, hw⟩ := WaiterPoint.settlePromotion_elector (PromotionPoint.run.step .deferred e)
        rw [step, Turn.within_elector, WaiterPoint.step, hw] at after
        exact absurd after (PromotionPoint.run_ne_standby .deferred e)
      | _ => cases h
    | _ => cases h
  | _ => cases h

/-! ## Failures that are left behind -/

/-- No step leaves a failure behind. -/
theorem step_waiterFailure (a : Activity) (e : Elector) (me : CallId) :
    (a.step e me).elector.waiterFailure = e.waiterFailure := by
  cases a with
  | start p =>
    obtain ⟨_, _, _, _, _, _, h⟩ := p.step_elector e me
    rw [step, Turn.within_elector, h]
  | stop p =>
    obtain ⟨_, _, _, _, _, h⟩ := p.step_elector e me
    rw [step, Turn.within_elector, h]
  | await p => rw [step, Turn.within_elector, p.step_elector]
  | notify p =>
    obtain ⟨_, h⟩ := p.step_elector e
    rw [step, Turn.within_elector, h]
  | waiter p =>
    obtain ⟨_, _, _, _, h⟩ := p.step_elector e
    rw [step, Turn.within_elector, h]

/-- An answer does only if it is an error in place of the lock. -/
theorem reply_waiterFailure (h : ∀ err, a = waiter .await → r ≠ .error err) :
    (a.reply e r).elector.waiterFailure = e.waiterFailure := by
  cases a with
  | start p =>
    obtain ⟨_, hp⟩ := p.reply_elector e r
    rw [reply, Turn.within_elector, hp]
  | stop p => rw [reply, Turn.within_elector, p.reply_elector]
  | waiter p =>
    rw [reply, Turn.within_elector]
    cases p with
    | await =>
      cases r with
      | ok granted => rfl
      | error err => exact absurd rfl (h err rfl)
    | promote p =>
      obtain ⟨_, hw⟩ := WaiterPoint.settlePromotion_elector (p.reply e r)
      rw [WaiterPoint.reply, hw, p.reply_elector]
    | _ => cases r <;> rfl
  | await p => rfl
  | notify p => rfl

end Activity

namespace Node

variable {n n' : Node} {i : Incident} {is js : List Incident} {id id' : CallId} {a : Activity}
  {asked : Bool} {c : Chronicle} {p : WaiterPoint} {err : Error} {ident : Identity}
  {owner : String} {port : Nat} {dir : Option String}

/-! ## Ends of a waiter -/

/-- The lock service answers a waiter with an error. -/
def FailsWith (id : CallId) (err : Error) (n : Node) (i : Incident) : Prop :=
  i = .move (.answer id (.error err)) ∧ n.course id = some (.going (.waiter .await) true)

/-- The lock service breaks down under a waiter that asked for the lock. -/
def BreaksDown (id : CallId) (n : Node) (i : Incident) : Prop :=
  i = .collapse id ∧ n.course id = some (.going (.waiter .await) true)

/-- The waiter competes for the lock. -/
def IsCompeting (n : Node) : Prop :=
  ∃ id asked, n.course id = some (.going (.waiter .await) asked)

/-- Somebody sees to it that a standby gets the lock. -/
def IsWatched (n : Node) : Prop :=
  ∃ id a asked, n.course id = some (.going a asked) ∧ a.watches = true

theorem IsCompeting.isWatched (h : n.IsCompeting) : n.IsWatched := by
  obtain ⟨id, asked, here⟩ := h
  exact ⟨id, _, asked, here, rfl⟩

theorem IsWatched.not_spent (h : n.IsWatched) : ¬ n.ledger.Spent := by
  obtain ⟨id, a, asked, here, ha⟩ := h
  intro hspent
  have hidle := (hspent.stage id).1
  rw [stage_of_going here, Activity.competes_of_watches ha] at hidle
  exact nomatch hidle

theorem FailsWith.isWatched (h : FailsWith id err n i) : n.IsWatched :=
  ⟨id, _, true, h.2, rfl⟩

theorem BreaksDown.isWatched (h : BreaksDown id n i) : n.IsWatched :=
  ⟨id, _, true, h.2, rfl⟩

/-- Among those who may be suspended nobody but the waiter is on the watch. -/
theorem isCompeting_of_atRest (hn : n.Custody) (hrest : n.AtRest) (h : n.IsWatched) :
    n.IsCompeting := by
  obtain ⟨id, a, asked, here, ha⟩ := h
  have hmay : a.mayRest asked = true := (mayRest_of_going here).symm.trans (hrest id)
  refine ⟨id, asked, ?_⟩
  cases asked with
  | true => rw [here, Activity.eq_await_of_watches ha (hn.pending id a here)]
  | false => rw [here, Activity.eq_await_of_mayRest ha hmay]

/-! ## What an incident leaves behind -/

theorem Undergoes.waiterFailure_eq (h : n.Undergoes i n')
    (hnone : ∀ id err, ¬ FailsWith id err n i) :
    n'.elector.waiterFailure = n.elector.waiterFailure := by
  cases h with
  | move made =>
    cases made with
    | call new => rfl
    | @step id w a asked here ready new =>
      rw [spawn_elector]
      exact a.step_waiterFailure n.elector id
    | ask here request => rfl
    | @answer id r a q here request =>
      refine Activity.reply_waiterFailure fun err ha hr => hnone id err ?_
      rw [ha] at here
      rw [hr]
      exact ⟨rfl, here⟩
    | @breakOff id a asked here may =>
      obtain ⟨_, _, ha⟩ := a.abandon_elector n.elector id
      show (a.abandon n.elector id).waiterFailure = _
      rw [ha]
    | discard => rfl
  | collapse here => rfl

/-- A waiter that fails leaves the message of the error behind, and nobody on the watch. -/
theorem Undergoes.of_failsWith (h : n.Undergoes i n') (hn : n.Custody) (hi : FailsWith id err n i) :
    n'.elector.waiterFailure = some err.message ∧ n'.ledger.Spent := by
  obtain ⟨rfl, there⟩ := hi
  have hwaiting : n.ledger.stage id = .waiting := stage_of_going there
  cases h with
  | move made =>
    cases made with
    | @answer _ _ a q here request =>
      obtain ⟨rfl, -⟩ := Course.going.inj (Option.some.inj (here.symm.trans there))
      obtain rfl := Option.some.inj request
      refine ⟨rfl, ?_⟩
      rw [ledger_carryOut]
      exact (hn.spent_of_waiting hwaiting rfl rfl).1

/-- A waiter under which the lock service breaks down leaves nothing behind, and nobody on the
watch. -/
theorem Undergoes.of_breaksDown (h : n.Undergoes i n') (hn : n.Custody) (hi : BreaksDown id n i) :
    n'.ledger.Spent := by
  obtain ⟨rfl, there⟩ := hi
  have hwaiting : n.ledger.stage id = .waiting := stage_of_going there
  cases h with
  | collapse here =>
    rw [ledger_breakOff]
    exact (hn.spent_of_waiting hwaiting rfl rfl).1

/-! ## Staff throughout a run -/

theorem Undergoes.staffed (h : n.Undergoes i n') (hc : n.Custody)
    (hn : Staffed n.role n.elector) : Staffed n'.role n'.elector := by
  cases h with
  | move made => exact made.staffed hc hn
  | @collapse id p here =>
    have hwaiting : n.role id = .waiting := role_of_going here
    show Staffed (n.setCourse id .brokenOff).role (WaiterPoint.abandon n.elector)
    rw [role_setCourse]
    exact hn.breakOff rfl rfl rfl (.inr ⟨hwaiting, nofun⟩)

theorem staffed_of_live? (h : (fresh (.fresh ident owner port dir)).live? is = some (n, c)) :
    Staffed n.role n.elector :=
  (live?_keeps (P := fun n => n.Custody ∧ Staffed n.role n.elector)
    (fun hu hn => ⟨hn.1.undergoes hu, hu.staffed hn.1 hn.2⟩) h
    ⟨custody_fresh nofun, staffed_fresh rfl rfl⟩).2

/-- A start that is about to bring a waiter to life finds none. -/
theorem waiter_absent_of_spawning (hn : Staffed n.role n.elector)
    (here : n.course id = some (.going (.start .spawnWaiter) asked)) :
    n.elector.waiter = .absent := by
  by_contra hwaiter
  have hbringing := (hn.settled hwaiter).2 id
  rw [role_of_going here] at hbringing
  exact nomatch hbringing

theorem Alerted.undergoes (hn : n.Alerted) (h : n.Undergoes i n') : n'.Alerted := by
  cases h with
  | move made => exact made.alerted hn
  | @collapse id p here =>
    intro id' p' asked' there hp
    rcases course_setCourse there with ⟨-, hc⟩ | ⟨-, there⟩
    · exact nomatch hc
    · exact hn id' p' asked' there hp

theorem alerted_of_live? (h : (fresh (.fresh ident owner port dir)).live? is = some (n, c)) :
    n.Alerted :=
  live?_keeps (fun hu hn => hn.undergoes hu) h fun _ _ _ here => nomatch here

/-- Only an elector for which a stop was requested is ever stopped. -/
theorem shutdown_of_stopped (h : (fresh (.fresh ident owner port dir)).live? is = some (n, c))
    (hs : n.elector.status = .stopped) : n.elector.shutdown = true := by
  induction is using List.reverseRecOn generalizing n c with
  | nil =>
    obtain ⟨rfl, -⟩ := of_live?_nil h
    exact nomatch hs
  | append_singleton is i ih =>
    obtain ⟨n₁, c₁, hlive, hi, -⟩ := of_live?_concat h
    have hu := undergoes_of_undergo? hi
    by_cases before : n₁.elector.status = .stopped
    · exact hu.shutdown (ih hlive before)
    · obtain ⟨id, w, asked, -, here⟩ := hu.halting before hs
      exact hu.shutdown (alerted_of_live? hlive id .halt asked here nofun)

/-! ## The watch over one incident -/

theorem Undergoes.standby_before (h : n.Undergoes i n') (hs : n'.elector.status = .standby) :
    n.elector.status = .uninitialized ∨ n.elector.status = .standby := by
  rcases h.precedes.status with hsame | hleads
  · exact .inr (hsame.symm.trans hs)
  · rw [show n'.elector.face.status = .standby from hs] at hleads
    generalize hf : n.elector.face.status = s at hleads
    cases hleads
    exact .inl hf

/-- The incident at which an elector comes to stand by leaves a start about to bring its waiter to
life. -/
theorem Undergoes.entering (h : n.Undergoes i n') (before : n.elector.status = .uninitialized)
    (after : n'.elector.status = .standby) : n'.IsWatched := by
  have hface : (n.elector.face.after (n.deed? i)).status = .standby := by
    rw [← h.face]
    exact after
  obtain ⟨d, hd⟩ : ∃ d, n.deed? i = some d := by
    cases hd : n.deed? i with
    | none =>
      rw [hd] at hface
      exact nomatch before.symm.trans hface
    | some d => exact ⟨d, rfl⟩
  rw [hd] at hface
  obtain rfl := Deed.eq_standBy before hface
  obtain ⟨id, w, a, asked, rfl, here, ha⟩ := step_of_deed? hd
  obtain rfl := Activity.eq_standBy ha
  refine ⟨id, .start .spawnWaiter, false, ?_, rfl⟩
  rw [(h.course_elector_of_step here).1]
  simp [Activity.step, StartPoint.step, before, State.canBecome, Turn.within, Turn.go]

/-- A start leaves the watch to the waiter that it brings to life. -/
theorem Undergoes.spawning {w : CallId} (h : n.Undergoes (.move (.step id w)) n')
    (hs : Staffed n.role n.elector)
    (here : n.course id = some (.going (.start .spawnWaiter) asked)) : n'.IsWatched := by
  have habsent := waiter_absent_of_spawning hs here
  cases h with
  | move made =>
    cases made with
    | step there ready new =>
      obtain ⟨rfl, -⟩ := Course.going.inj (Option.some.inj (here.symm.trans there))
      refine ⟨w, .waiter .await, false, ?_, rfl⟩
      rw [spawn, if_pos ⟨habsent, rfl⟩]
      exact Function.update_self ..

/-- The watch of a standby for which no stop is requested goes on, unless the waiter fails or the
lock service breaks down under it. -/
theorem Undergoes.watched (h : n.Undergoes i n') (hn : n.Custody) (hs : Staffed n.role n.elector)
    (calm : n.elector.shutdown = false) (after : n'.elector.status = .standby)
    (hwatched : n.IsWatched) :
    n'.IsWatched ∨ (∃ id err, FailsWith id err n i) ∨ ∃ id, BreaksDown id n i := by
  obtain ⟨id, a, asked, here, ha⟩ := hwatched
  obtain ⟨y, hy, hfate⟩ := h.fate here
  cases hfate with
  | aside ask => exact .inl ⟨id, a, asked, hy, ha⟩
  | step ready =>
    rw [(h.course_elector_of_step here).2] at after
    rcases Activity.watches_of_step ha ready calm after with rfl | ⟨b, hnext, hb⟩
    · exact .inl (h.spawning hs here)
    · rw [hnext] at hy
      exact .inl ⟨id, b, false, hy, hb⟩
  | ask request => exact .inl ⟨id, a, true, hy, ha⟩
  | @answer _ q r request =>
    obtain rfl := Activity.eq_await_of_watches ha (hn.pending id a here)
    cases r with
    | ok granted => exact .inl ⟨id, .waiter .checkShutdown, false, hy, rfl⟩
    | error err => exact .inr (.inl ⟨id, err, rfl, here⟩)
  | breakOff may =>
    -- nobody is dropped on the watch
    cases asked with
    | true =>
      obtain rfl := Activity.eq_await_of_watches ha (hn.pending id a here)
      exact nomatch may
    | false =>
      obtain rfl := Activity.eq_await_of_mayRest ha (Activity.mayRest_of_mayBreakOff may)
      exact nomatch may
  | @collapse p =>
    have heq := Activity.eq_await_of_watches ha (hn.pending id _ here)
    cases heq
    exact .inr (.inr ⟨id, rfl, here⟩)

/-! ## The watch throughout a run -/

/-- Once a waiter has failed, or the lock service has broken down under it, nobody is on the way to
the lock any more. -/
theorem spent_of_meets (h : (fresh (.fresh ident owner port dir)).live? is = some (n, c))
    (hmeets : (∃ id err, (fresh (.fresh ident owner port dir)).Meets (FailsWith id err) is) ∨
      ∃ id, (fresh (.fresh ident owner port dir)).Meets (BreaksDown id) is) : n.ledger.Spent := by
  induction is using List.reverseRecOn generalizing n c with
  | nil => rcases hmeets with ⟨_, _, hmeets⟩ | ⟨_, hmeets⟩ <;> exact hmeets.elim
  | append_singleton is i ih =>
    obtain ⟨n₁, c₁, hlive, hi, -⟩ := of_live?_concat h
    have hu := undergoes_of_undergo? hi
    have hn₁ := custody_of_live? hlive
    simp only [meets_concat hlive] at hmeets
    rcases hmeets with ⟨id, err, hbefore | hnow⟩ | ⟨id, hbefore | hnow⟩
    · exact hu.books.spent hn₁ (ih hlive (.inl ⟨id, err, hbefore⟩))
    · exact (hu.of_failsWith hn₁ hnow).2
    · exact hu.books.spent hn₁ (ih hlive (.inr ⟨id, hbefore⟩))
    · exact hu.of_breaksDown hn₁ hnow

/-- The failure that an elector shows is the error that its waiter was answered. -/
theorem waiterFailure_iff (h : (fresh (.fresh ident owner port dir)).live? is = some (n, c))
    (reason : String) : n.elector.waiterFailure = some reason ↔
      ∃ id err, (fresh (.fresh ident owner port dir)).Meets (FailsWith id err) is ∧
        err.message = reason := by
  induction is using List.reverseRecOn generalizing n c with
  | nil =>
    obtain ⟨rfl, -⟩ := of_live?_nil h
    exact ⟨nofun, fun ⟨_, _, hmeets, _⟩ => hmeets.elim⟩
  | append_singleton is i ih =>
    obtain ⟨n₁, c₁, hlive, hi, -⟩ := of_live?_concat h
    have hu := undergoes_of_undergo? hi
    simp only [meets_concat hlive]
    by_cases hnow : ∃ id err, FailsWith id err n₁ i
    · -- it is the only waiter that ever fails
      obtain ⟨id, err, hnow⟩ := hnow
      rw [(hu.of_failsWith (custody_of_live? hlive) hnow).1, Option.some.injEq]
      refine ⟨fun heq => ⟨id, err, .inr hnow, heq⟩, ?_⟩
      rintro ⟨id', err', hbefore | hnow', heq⟩
      · exact absurd (spent_of_meets hlive (.inl ⟨id', err', hbefore⟩)) hnow.isWatched.not_spent
      · cases hnow.1.symm.trans hnow'.1
        exact heq
    · have hnone : ∀ id err, ¬ FailsWith id err n₁ i := fun id err hi => hnow ⟨id, err, hi⟩
      rw [hu.waiterFailure_eq hnone, ih hlive]
      refine exists_congr fun id => exists_congr fun err => and_congr_left fun _ => ?_
      exact (or_iff_left (hnone id err)).symm

/-- A waiter under which the lock service breaks down does not fail as well. -/
theorem not_failsWith_of_breaksDown
    (h : (fresh (.fresh ident owner port dir)).live? is = some (n, c))
    (hbreaks : (fresh (.fresh ident owner port dir)).Meets (BreaksDown id) is) :
    ¬ (fresh (.fresh ident owner port dir)).Meets (FailsWith id' err) is := by
  induction is using List.reverseRecOn generalizing n c with
  | nil => exact hbreaks.elim
  | append_singleton is i ih =>
    obtain ⟨n₁, c₁, hlive, -, -⟩ := of_live?_concat h
    rw [meets_concat hlive] at hbreaks ⊢
    rintro (hfailed | hfails) <;> rcases hbreaks with hbroken | hbreaks
    · exact ih hlive hbroken hfailed
    · exact hbreaks.isWatched.not_spent (spent_of_meets hlive (.inl ⟨id', err, hfailed⟩))
    · exact hfails.isWatched.not_spent (spent_of_meets hlive (.inr ⟨id, hbroken⟩))
    · exact nomatch hbreaks.1.symm.trans hfails.1

/-- A standby for which no stop is requested is on the watch until its waiter fails or the lock
service breaks down under it. -/
theorem watched_or_ended (h : (fresh (.fresh ident owner port dir)).live? is = some (n, c))
    (standby : n.elector.status = .standby) (calm : n.elector.shutdown = false) :
    n.IsWatched ∨
      (∃ id err, (fresh (.fresh ident owner port dir)).Meets (FailsWith id err) is) ∨
      ∃ id, (fresh (.fresh ident owner port dir)).Meets (BreaksDown id) is := by
  induction is using List.reverseRecOn generalizing n c with
  | nil =>
    obtain ⟨rfl, -⟩ := of_live?_nil h
    exact nomatch standby
  | append_singleton is i ih =>
    obtain ⟨n₁, c₁, hlive, hi, -⟩ := of_live?_concat h
    have hu := undergoes_of_undergo? hi
    have hcalm : n₁.elector.shutdown = false :=
      Bool.eq_false_iff.mpr fun hshut => nomatch (hu.shutdown hshut).symm.trans calm
    simp only [meets_concat hlive]
    rcases hu.standby_before standby with hbefore | hbefore
    · exact .inl (hu.entering hbefore standby)
    · rcases ih hlive hbefore hcalm with hwatched | ⟨id, err, hfailed⟩ | ⟨id, hbroken⟩
      · rcases hu.watched (custody_of_live? hlive) (staffed_of_live? hlive) hcalm standby hwatched
          with hwatched | ⟨id, err, hnow⟩ | ⟨id, hnow⟩
        · exact .inl hwatched
        · exact .inr (.inl ⟨id, err, .inr hnow⟩)
        · exact .inr (.inr ⟨id, .inr hnow⟩)
      · exact .inr (.inl ⟨id, err, .inl hfailed⟩)
      · exact .inr (.inr ⟨id, .inl hbroken⟩)

/-- Once nobody is on the way to the lock, a standby stays as it is until a stop is requested. -/
theorem standby_of_spent (h : (fresh (.fresh ident owner port dir)).live? is = some (n, c))
    (standby : n.elector.status = .standby) (hspent : n.ledger.Spent) {c' : Chronicle}
    (later : n.live? js = some (n', c')) (calm : n'.elector.shutdown = false) :
    n'.elector.status = .standby ∧ ¬ n'.IsWatched ∧
      n'.elector.waiterFailure = n.elector.waiterFailure := by
  have hkept : n'.Custody ∧ n'.ledger.Spent ∧
      n'.elector.waiterFailure = n.elector.waiterFailure := by
    refine live?_keeps (P := fun m => m.Custody ∧ m.ledger.Spent ∧
      m.elector.waiterFailure = n.elector.waiterFailure) ?_ later ⟨custody_of_live? h, hspent, rfl⟩
    intro m i m' hu hm
    obtain ⟨hcustody, hspent, hsame⟩ := hm
    have hnone : ∀ id err, ¬ FailsWith id err m i := fun _ _ hi => hi.isWatched.not_spent hspent
    exact ⟨hcustody.undergoes hu, hu.books.spent hcustody hspent,
      (hu.waiterFailure_eq hnone).trans hsame⟩
  obtain ⟨-, hspent', hsame⟩ := hkept
  refine ⟨?_, fun hwatched => hwatched.not_spent hspent', hsame⟩
  rcases (live?_precedes later).status with hstatus | hleads
  · exact hstatus.trans standby
  · rw [show n.elector.face.status = .standby from standby] at hleads
    generalize hf : n'.elector.face.status = s at hleads
    cases hleads with
    | promote => exact absurd hf hspent'.status
    | stop => exact nomatch (shutdown_of_stopped (live?_append h later) hf).symm.trans calm

/-- Against any lock service and any registry, and however calls interleave: at a standby for which
no stop is requested somebody is on the watch for the lock, or a failure of the waiter shows, if and
only if the lock service never broke down under the waiter.  Whenever all may be suspended, it is
the waiter that competes for the lock.  What shows is the error that the waiter was answered, and
then nobody is on the watch.  A standby that nobody watches stays one until a stop is requested, and
shows no other failure from then on. -/
theorem watched_or_failed_iff
    (reached : (fresh (.fresh ident owner port dir)).live? is = some (n, c))
    (standby : n.elector.status = .standby) (calm : n.elector.shutdown = false) :
    (n.IsWatched ∨ n.elector.waiterFailure.isSome = true ↔
      ∀ id, ¬ (fresh (.fresh ident owner port dir)).Meets (BreaksDown id) is) ∧
    (n.AtRest → (n.IsCompeting ∨ n.elector.waiterFailure.isSome = true ↔
      ∀ id, ¬ (fresh (.fresh ident owner port dir)).Meets (BreaksDown id) is)) ∧
    (∀ reason, n.elector.waiterFailure = some reason ↔
      ∃ id err, (fresh (.fresh ident owner port dir)).Meets (FailsWith id err) is ∧
        err.message = reason) ∧
    (n.elector.waiterFailure.isSome = true → ¬ n.IsWatched) ∧
    (¬ n.IsWatched → ∀ js n' c', n.live? js = some (n', c') → n'.elector.shutdown = false →
      n'.elector.status = .standby ∧ ¬ n'.IsWatched ∧
        n'.elector.waiterFailure = n.elector.waiterFailure) := by
  have hfails : n.elector.waiterFailure.isSome = true →
      ∃ id err, (fresh (.fresh ident owner port dir)).Meets (FailsWith id err) is := by
    intro hsome
    obtain ⟨reason, hreason⟩ := Option.isSome_iff_exists.mp hsome
    obtain ⟨id, err, hmeets, -⟩ := (waiterFailure_iff reached reason).mp hreason
    exact ⟨id, err, hmeets⟩
  have hiff : n.IsWatched ∨ n.elector.waiterFailure.isSome = true ↔
      ∀ id, ¬ (fresh (.fresh ident owner port dir)).Meets (BreaksDown id) is := by
    constructor
    · rintro (hwatched | hsome) id hbroken
      · exact hwatched.not_spent (spent_of_meets reached (.inr ⟨id, hbroken⟩))
      · obtain ⟨id', err, hmeets⟩ := hfails hsome
        exact not_failsWith_of_breaksDown reached hbroken hmeets
    · intro hnone
      rcases watched_or_ended reached standby calm with
        hwatched | ⟨id, err, hmeets⟩ | ⟨id, hbroken⟩
      · exact .inl hwatched
      · right
        rw [(waiterFailure_iff reached err.message).mpr ⟨id, err, hmeets, rfl⟩]
        rfl
      · exact absurd hbroken (hnone id)
  refine ⟨hiff, fun hrest => ?_, waiterFailure_iff reached, fun hsome hwatched => ?_,
    fun hunwatched js n' c' later => ?_⟩
  · rw [← hiff]
    exact or_congr_left
      ⟨IsCompeting.isWatched, isCompeting_of_atRest (custody_of_live? reached) hrest⟩
  · exact hwatched.not_spent (spent_of_meets reached (.inl (hfails hsome)))
  · have hended := (watched_or_ended reached standby calm).resolve_left hunwatched
    exact standby_of_spent reached standby (spent_of_meets reached hended) later

/-- A start does not win the lock, and leaves a waiter behind that asks for it. -/
def waitingStandby : List Incident :=
  List.map .move
    [.call 0 (.start "memory" false), .step 0 1, .step 0 1, .ask 0, .answer 0 (.ok true), .ask 0,
     .answer 0 (.ok true), .ask 0, .answer 0 (.ok true), .step 0 1, .ask 0, .answer 0 (.ok false),
     .step 0 1, .step 0 1, .step 0 2, .step 0 2, .ask 1]

/-- The lock service answers the waiter with an error, or it breaks down. -/
def failedStandby : List Incident := waitingStandby ++ [.move (.answer 1 (.error unreachable))]

def stalledStandby : List Incident := waitingStandby ++ [.collapse 1]

theorem breaksDown_stalledStandby : blank.Meets (BreaksDown 1) stalledStandby := by
  have hwaiting : blank.live? waitingStandby = some (blank.after waitingStandby) := rfl
  exact (meets_concat hwaiting).mpr (.inr ⟨rfl, rfl⟩)

theorem atRest_stalledStandby : (blank.after stalledStandby).1.AtRest
  | 0 => rfl
  | 1 => rfl
  | _ + 2 => rfl

theorem standbys_watched_or_failed :
    (blank.after failedStandby).1.elector.waiterFailure =
        some "Lock service unavailable: memory" ∧
    ¬ (blank.after failedStandby).1.IsWatched ∧
    ¬ ((blank.after stalledStandby).1.IsCompeting ∨
        (blank.after stalledStandby).1.elector.waiterFailure.isSome = true) ∧
    ∀ js n' c', (blank.after stalledStandby).1.live? js = some (n', c') →
      n'.elector.shutdown = false → n'.elector.status = .standby ∧ ¬ n'.IsWatched ∧
        n'.elector.waiterFailure = none := by
  have hwaiting : blank.live? waitingStandby = some (blank.after waitingStandby) := rfl
  have hfailed : blank.live? failedStandby = some (blank.after failedStandby) := rfl
  have hstalled : blank.live? stalledStandby = some (blank.after stalledStandby) := rfl
  have hfails : blank.Meets (FailsWith 1 unreachable) failedStandby :=
    (meets_concat hwaiting).mpr (.inr ⟨rfl, rfl⟩)
  obtain ⟨-, -, hshows, halone, -⟩ := watched_or_failed_iff hfailed rfl rfl
  obtain ⟨hiff, hrest, -, -, hlater⟩ := watched_or_failed_iff hstalled rfl rfl
  have hunwatched := fun hwatched => hiff.mp (.inl hwatched) 1 breaksDown_stalledStandby
  refine ⟨(hshows _).mpr ⟨1, unreachable, hfails, rfl⟩, halone rfl, fun hobservable => ?_,
    hlater hunwatched⟩
  exact (hrest atRest_stalledStandby).mp hobservable 1 breaksDown_stalledStandby

/-- A standby whose lock service broke down under its waiter shows nothing, and nobody competes for
the lock. -/
theorem not_watched_or_failed :
    ¬ ∀ (is : List Incident) (n : Node) (c : Chronicle), blank.live? is = some (n, c) →
      n.elector.status = .standby → n.elector.shutdown = false → n.AtRest →
      n.IsCompeting ∨ n.elector.waiterFailure.isSome = true := by
  intro h
  have hstalled : blank.live? stalledStandby = some (blank.after stalledStandby) := rfl
  have hspent := spent_of_meets hstalled (.inr ⟨1, breaksDown_stalledStandby⟩)
  rcases h stalledStandby _ _ hstalled rfl rfl atRest_stalledStandby with hcompetes | hsome
  · exact hcompetes.isWatched.not_spent hspent
  · exact nomatch hsome

end Node

end Primacy.Election
