/-
  Primacy.Proofs.Election.Repetition

  One stop after another on the same elector.  The first that gets so far makes the elector
  stopped and releases the lock if the elector ran; all others find nothing to do, and change
  nothing but the turnstile that they pass.  If the lock was lost while the elector ran, the first
  one alone is told so.
-/
import Primacy.Proofs.Election.Shutdown

namespace Primacy.Election

/-! ## Stops with nothing to report -/

/-- The stop has no lock to release, and no failure to report. -/
def StopPoint.isCalm : StopPoint → Bool
  | closeGate .stopped => true
  | closeGate _ => false
  | unlock => false
  | leave (.ok _) => true
  | leave (.error _) => false
  | _ => true

/-- A stop leaves such an elector as it is. -/
structure Elector.IsShut (e : Elector) : Prop where
  status : e.status = .stopped
  shutdown : e.shutdown = true
  gate : e.gate ≠ .pending
  unkept : e.waiterKept = false

namespace StopPoint

variable {e : Elector} {me : CallId} {p p' : StopPoint}

/-- Up to its end a stop has nothing to report, unless it is the one that stops the elector. -/
theorem isCalm_of_step (hp : p.isCalm = true) (hhalt : p = .halt → e.status = .stopped)
    (h : (p.step e me).next = .inl p') : p'.isCalm = true := by
  cases p with
  | request =>
    cases h
    rfl
  | arrive =>
    by_cases hin : (e.init.arrive me).isInside me = true
    · dsimp only [step] at h
      rw [if_pos hin] at h
      cases h
      rfl
    · dsimp only [step] at h
      rw [if_neg hin] at h
      cases h
      rfl
  | queue =>
    cases h
    rfl
  | takeWaiter =>
    dsimp only [step] at h
    by_cases hkept : e.waiterKept = true
    · rw [if_pos hkept] at h
      cases h
      rfl
    · rw [if_neg hkept] at h
      cases h
      rfl
  | join =>
    cases h
    rfl
  | halt =>
    cases h
    rw [hhalt rfl]
    rfl
  | closeGate before =>
    cases before with
    | stopped =>
      cases h
      rfl
    | _ => exact nomatch hp
  | unlock => exact nomatch hp
  | leave r => exact nomatch h

/-- Whoever has nothing to report ends well. -/
theorem ok_of_step {r : StopResult} (hp : p.isCalm = true) (h : (p.step e me).next = .inr r) :
    r = .ok () := by
  cases p with
  | leave result =>
    cases h
    cases r with
    | ok u => rfl
    | error err => exact nomatch hp
  | takeWaiter =>
    dsimp only [step] at h
    split at h <;> exact nomatch h
  | closeGate before => cases before <;> exact nomatch h
  | _ => exact nomatch h

theorem request_step (he : e.IsShut) (me : CallId) : request.step e me = .go e arrive := by
  have hsame : ({ e with shutdown := true } : Elector) = e := by rw [← he.shutdown]
  exact congrArg (Turn.go · arrive) hsame

/-- Whoever finds the turnstile free passes it at once. -/
theorem arrive_step (hfree : e.init = .free) (me : CallId) :
    arrive.step e me = .go { e with init := ⟨some me, []⟩ } takeWaiter := by
  have harrive : e.init.arrive me = ⟨some me, []⟩ := by
    rw [hfree]
    rfl
  have hin : (Turnstile.mk (some me) []).isInside me = true := beq_self_eq_true _
  rw [step, harrive, if_pos hin]

theorem takeWaiter_step (he : e.IsShut) (me : CallId) : takeWaiter.step e me = .go e halt := by
  rw [step, if_neg (Bool.eq_false_iff.mp he.unkept)]

theorem halt_step (he : e.IsShut) (me : CallId) : halt.step e me = .go e (closeGate .stopped) := by
  have hsame : ({ e with status := .stopped } : Elector) = e := by rw [← he.status]
  exact congr (congrArg Turn.go hsame) (congrArg closeGate he.status)

theorem closeGate_step (he : e.IsShut) (me : CallId) :
    (closeGate .stopped).step e me = .go e (leave (.ok ())) := by
  have hgate : e.gate.close.2 = e.gate := congrArg Prod.snd (Gate.settle_of_ne he.gate .closed)
  have hsame : ({ e with gate := e.gate.close.2 } : Elector) = e := by rw [hgate]
  exact congrArg (Turn.go · (leave (.ok ()))) hsame

/-- A stop with nothing to report changes nothing about an elector that is shut but the
turnstile. -/
theorem step_of_isShut (he : e.IsShut) (hp : p.isCalm = true) (me : CallId) :
    (p.step e me).elector = { e with init := (p.step e me).elector.init } := by
  cases p with
  | request =>
    rw [request_step he]
    rfl
  | takeWaiter =>
    rw [takeWaiter_step he]
    rfl
  | halt =>
    rw [halt_step he]
    rfl
  | closeGate before =>
    cases before with
    | stopped =>
      rw [closeGate_step he]
      rfl
    | _ => exact nomatch hp
  | unlock => exact nomatch hp
  | _ => rfl

end StopPoint

namespace Activity

variable {e : Elector} {me : CallId} {a : Activity}

/-- A stop ends when it leaves. -/
theorem eq_leave_of_step {r : StopResult} (h : (a.step e me).next = .inr (.stopped r)) :
    a = .stop (.leave r) := by
  cases a with
  | stop p =>
    cases p with
    | leave result =>
      cases h
      rfl
    | takeWaiter =>
      dsimp only [step, StopPoint.step] at h
      split at h <;> exact nomatch h
    | closeGate before => cases before <;> exact nomatch h
    | _ => exact nomatch h
  | start p =>
    obtain ⟨_, -, heq⟩ := Turn.ended_of_within h
    exact nomatch heq
  | await p =>
    obtain ⟨_, -, heq⟩ := Turn.ended_of_within h
    exact nomatch heq
  | notify p =>
    obtain ⟨_, -, heq⟩ := Turn.ended_of_within h
    exact nomatch heq
  | waiter p =>
    obtain ⟨_, -, heq⟩ := Turn.ended_of_within h
    exact nomatch heq

end Activity

/-! ## The courses of stops -/

namespace Course

/-- This is how far a stop has got. -/
def isStop : Course → Bool
  | going (.stop _) _ => true
  | ended (.stopped _) => true
  | _ => false

/-- If this is how far a stop has got, it has nothing to report. -/
def isCalm : Course → Bool
  | going (.stop p) _ => p.isCalm
  | ended (.stopped (.error _)) => false
  | _ => true

/-- This is how far a stop has got that releases the lock in vain. -/
def IsDenied (owner : String) : Course → Prop
  | going (.stop (.closeGate .running)) _ => True
  | going (.stop .unlock) _ => True
  | going (.stop (.leave r)) _ => r = .error (.lock (.notHeld owner))
  | ended (.stopped r) => r = .error (.lock (.notHeld owner))
  | _ => False

/-- What is read off the course after a turn can be read off where the turn leads. -/
theorem apply_elim {α : Type} (f : Course → α) (x : Activity ⊕ Ending) :
    f (x.elim (.going · false) .ended) = x.elim (fun a => f (going a false)) (f <| ended ·) := by
  cases x <;> rfl

end Course

namespace Node

variable {n n' : Node} {i : Incident} {m : Move} {id : CallId} {x y : Course} {owner : String}
  {asked : Bool} {p : StopPoint}

/-- Only the stop that makes the elector stopped comes to have something to report. -/
theorem Fate.isCalm (h : n.Fate id i x y) (hx : x.isCalm = true)
    (hhalt : ∀ w asked, i = .move (.step id w) → x = .going (.stop .halt) asked →
      n.elector.status = .stopped) : y.isCalm = true := by
  cases h with
  | aside => exact hx
  | @step w a asked ready =>
    rw [Course.apply_elim Course.isCalm]
    cases a with
    | stop p =>
      dsimp only [Activity.step]
      rw [Turn.elim_within]
      have hcalm : p.isCalm = true := hx
      have hp : p = .halt → n.elector.status = .stopped := by
        rintro rfl
        exact hhalt w asked rfl rfl
      cases hnext : (p.step n.elector id).next with
      | inl p' => exact p.isCalm_of_step hcalm hp hnext
      | inr r =>
        obtain rfl := p.ok_of_step hcalm hnext
        rfl
    | start p => exact Turn.elim_within_const (fun _ => rfl) fun _ => rfl
    | await p => exact Turn.elim_within_const (fun _ => rfl) fun _ => rfl
    | notify p => exact Turn.elim_within_const (fun _ => rfl) fun _ => rfl
    | waiter p => exact Turn.elim_within_const (fun _ => rfl) fun _ => rfl
  | @ask a q request => cases a <;> exact hx
  | @answer a q r request =>
    rw [Course.apply_elim Course.isCalm]
    cases a with
    | stop p =>
      cases p with
      | unlock => exact nomatch hx
      | _ => exact nomatch request
    | start p => exact Turn.elim_within_const (fun _ => rfl) fun _ => rfl
    | waiter p => exact Turn.elim_within_const (fun _ => rfl) fun _ => rfl
    | await p => exact nomatch request
    | notify p => exact nomatch request
  | breakOff may => rfl
  | collapse => rfl

/-- A stop that releases the lock in vain is told so, and reports it. -/
theorem Fate.isDenied (h : n.Fate id i x y) (hx : x.IsDenied owner)
    (hbreak : i = .move (.breakOff id) → ∀ p, x ≠ .going (.stop p) true)
    (hanswer : ∀ r p, i = .move (.answer id r) → x = .going (.stop p) true →
      r = .error (.lock (.notHeld owner))) : y.IsDenied owner := by
  cases h with
  | aside => exact hx
  | @step w a asked ready =>
    cases a with
    | stop p =>
      cases p with
      | closeGate before =>
        cases before with
        | running => exact trivial
        | _ => exact nomatch hx
      | unlock => exact nomatch ready
      | leave r => exact hx
      | _ => exact nomatch hx
    | _ => exact nomatch hx
  | @ask a q request =>
    cases a with
    | stop p =>
      cases p with
      | unlock => exact trivial
      | _ => exact nomatch request
    | _ => exact nomatch hx
  | @answer a q r request =>
    cases a with
    | stop p =>
      cases p with
      | unlock =>
        obtain rfl := hanswer r .unlock rfl rfl
        rfl
      | _ => exact nomatch request
    | _ => exact nomatch hx
  | @breakOff a asked may =>
    cases a with
    | stop p =>
      have hasked : asked = true := by
        cases p with
        | closeGate before => exact may
        | unlock => exact may
        | leave r => exact may
        | _ => exact nomatch hx
      subst hasked
      exact absurd rfl (hbreak rfl p)
    | _ => exact nomatch hx
  | collapse => exact nomatch hx

/-- A call that is made has nothing to report yet. -/
theorem Makes.isCalm_of_new (h : n.Makes m n') (hnew : n.course id = none)
    (here : n'.course id = some y) : y.isCalm = true := by
  have hcarry : ∀ {id' a asked t}, n.course id' = some (.going a asked) →
      (n.carryOut id' t).course id = some y → False := by
    intro id' a asked t there hcourse
    rcases course_carryOut hcourse with ⟨rfl, -⟩ | ⟨-, hc⟩
    · exact nomatch hnew.symm.trans there
    · exact nomatch hnew.symm.trans hc
  have hset : ∀ {id' a asked c}, n.course id' = some (.going a asked) →
      (n.setCourse id' c).course id = some y → False := by
    intro id' a asked c there hcourse
    rcases course_setCourse hcourse with ⟨rfl, -⟩ | ⟨-, hc⟩
    · exact nomatch hnew.symm.trans there
    · exact nomatch hnew.symm.trans hc
  cases h with
  | @call id' c new =>
    rcases course_setCourse here with ⟨-, rfl⟩ | ⟨-, hc⟩
    · cases c <;> rfl
    · exact nomatch hnew.symm.trans hc
  | step here' ready new =>
    rcases course_spawn here with ⟨-, -, -, rfl⟩ | hc
    · rfl
    · exact (hcarry here' hc).elim
  | ask here' request => exact (hset here' here).elim
  | answer here' request => exact (hcarry here' here).elim
  | breakOff here' may => exact (hset here' here).elim
  | discard => exact nomatch hnew.symm.trans here

/-- A call that has nothing to report comes to have something only if it makes the elector
stopped. -/
theorem Makes.isCalm (h : n.Makes m n') (hn : ∀ c, n.course id = some c → c.isCalm = true)
    (hhalt : ∀ w asked, m = .step id w → n.course id = some (.going (.stop .halt) asked) →
      n.elector.status = .stopped) (here : n'.course id = some y) : y.isCalm = true := by
  cases hc : n.course id with
  | none => exact h.isCalm_of_new hc here
  | some x =>
    obtain ⟨y', hy, hfate⟩ := Undergoes.fate (i := .move m) (.move h) hc
    obtain rfl := Option.some.inj (hy.symm.trans here)
    refine hfate.isCalm (hn x hc) fun w asked hm hx => ?_
    subst hx
    exact hhalt w asked (Incident.move.inj hm) hc

/-- A step of a stop brings no waiter to life. -/
theorem Makes.of_stop_step {w : CallId} (h : n.Makes (.step id w) n')
    (here : n.course id = some (.going (.stop p) asked)) :
    n' = n.carryOut id ((Activity.stop p).step n.elector id) := by
  cases h with
  | step here' ready new =>
    obtain ⟨rfl, -⟩ := Course.going.inj (Option.some.inj (here.symm.trans here'))
    have hnobody : ¬ (n.elector.waiter = .absent ∧
        (n.carryOut id ((Activity.stop p).step n.elector id)).elector.waiter = .active) := by
      rintro ⟨habsent, hactive⟩
      obtain ⟨_, _, _, _, _, hp⟩ := p.step_elector n.elector id
      have hsame : ((Activity.stop p).step n.elector id).elector.waiter = n.elector.waiter := by
        dsimp only [Activity.step]
        rw [Turn.within_elector, hp]
      exact nomatch (habsent.symm.trans hsame.symm).trans hactive
    unfold spawn
    rw [if_neg hnobody]

/-- A stop that has ended has ended before, or it leaves now. -/
theorem Makes.leaves {r : StopResult} (h : n.Makes m n')
    (ended : n'.course id = some (.ended (.stopped r))) :
    n.course id = some (.ended (.stopped r)) ∨
      ∃ w asked, m = .step id w ∧ n.course id = some (.going (.stop (.leave r)) asked) := by
  have hu : n.Undergoes (.move m) n' := .move h
  rcases hu.of_ended ended with hbefore | ⟨a, asked, here, ⟨hnext, -⟩ | ⟨x, hreply⟩⟩
  · exact .inl hbefore
  · obtain rfl := Activity.eq_leave_of_step hnext
    obtain ⟨y, hy, hfate⟩ := hu.fate here
    obtain rfl := Option.some.inj (hy.symm.trans ended)
    generalize hc : Course.ended (.stopped r) = c at hfate
    cases hfate with
    | aside => exact nomatch hc
    | @step w => exact .inr ⟨w, asked, rfl, here⟩
    | ask request => exact nomatch request
    | answer request => exact nomatch request
    | breakOff may => exact nomatch hc
  · exact absurd hreply Activity.reply_ne_stopped

/-! ## An elector that was stopped -/

theorem Reachable.coherent {i : Identity} {port : Nat} {dir : Option String}
    (h : Reachable (.fresh i owner port dir) n) : n.Coherent := by
  induction h with
  | fresh => exact coherent_fresh i owner port dir
  | move before made ih => exact ih.undergoes (.move (makes_of_move? made))

/-- Two activities that are both past the turnstile are one. -/
theorem Custody.eq_of_isInside (hn : n.Custody) {id' : CallId} {a b : Activity} {asked' : Bool}
    (here : n.course id = some (.going a asked)) (ha : a.isInside = true)
    (there : n.course id' = some (.going b asked')) (hb : b.isInside = true) : id = id' :=
  Option.some.inj ((hn.inside id a asked here ha).symm.trans (hn.inside id' b asked' there hb))

/-- Once a stop has ended, the elector is shut. -/
theorem Reachable.isShut {i : Identity} {port : Nat} {dir : Option String}
    (h : Reachable (.fresh i owner port dir) n) {r : StopResult}
    (ended : n.course id = some (.ended (.stopped r))) : n.elector.IsShut := by
  induction h with
  | fresh => exact nomatch ended
  | @move n n' m before made ih =>
    have hmakes := makes_of_move? made
    rcases hmakes.leaves ended with hbefore | ⟨w, asked, rfl, here⟩
    · -- what a stop leaves behind is final
      have hshut := ih hbefore
      have hprecedes := Undergoes.precedes (i := .move m) (.move hmakes)
      have hstatus := hprecedes.stopped hshut.status
      have hgate : n'.elector.gate = n.elector.gate := hprecedes.gate hshut.gate
      exact ⟨hstatus, hmakes.shutdown hshut.shutdown, hgate ▸ hshut.gate,
        (before.move made).orderly.staffed.stopped hstatus⟩
    · -- the stop leaves now, with the gate closed behind it
      have hn := before.orderly
      have hstatus : n.elector.status = .stopped :=
        (before.halted (by rintro ⟨⟩)).past id _ asked here rfl
      have hgate : n.elector.gate ≠ .pending := by
        -- otherwise somebody else past the turnstile were about to close it
        intro hpending
        obtain ⟨id', s, there⟩ := before.coherent.closing hstatus hpending
        obtain rfl := hn.custody.eq_of_isInside here rfl there rfl
        exact nomatch here.symm.trans there
      obtain rfl := hmakes.of_stop_step here
      exact ⟨hstatus, hn.alerted id _ asked here nofun, hgate, hn.staffed.stopped hstatus⟩

/-- Once a stop has ended, every other has nothing to report. -/
theorem Reachable.isCalm {i : Identity} {port : Nat} {dir : Option String}
    (h : Reachable (.fresh i owner port dir) n) {r : StopResult}
    (ended : n.course id = some (.ended (.stopped r))) {id' : CallId} {a : Activity}
    (there : n.course id' = some (.going a asked)) : (Course.going a asked).isCalm = true := by
  induction h generalizing a asked with
  | fresh => exact nomatch ended
  | @move n n' m before made ih =>
    have hmakes := makes_of_move? made
    rcases hmakes.leaves ended with hbefore | ⟨w, asked', rfl, here⟩
    · refine hmakes.isCalm (fun c hc => ?_) (fun _ _ _ _ => (before.isShut hbefore).status) there
      cases c with
      | going b asked' => exact ih hbefore hc
      | brokenOff => rfl
      | ended e =>
        -- what has ended does not go on
        obtain ⟨y, hy, hfate⟩ := Undergoes.fate (i := .move m) (.move hmakes) hc
        cases hfate with
        | aside => exact nomatch hy.symm.trans there
    · -- the one that leaves now is alone past the turnstile
      obtain rfl := hmakes.of_stop_step here
      rcases going_carryOut there with ⟨-, hnext, -⟩ | ⟨hne, hbefore⟩
      · exact nomatch hnext
      · cases a with
        | stop p =>
          by_contra hcalm
          have hin : p.isInside = true := by
            cases p <;> first | rfl | exact absurd rfl hcalm
          exact hne (before.orderly.custody.eq_of_isInside hbefore hin here rfl)
        | _ => rfl

/-- A stop has ended, and of those that had not in `n₀` none has failed. -/
structure EndsWell (e : Elector) (n₀ n : Node) : Prop where
  reachable : Reachable e n
  ended : ∃ id r, n.course id = some (.ended (.stopped r))
  ok : ∀ id r, n.course id = some (.ended (.stopped r)) →
    n₀.course id = some (.ended (.stopped r)) ∨ r = .ok ()

theorem EndsWell.makes {i : Identity} {port : Nat} {dir : Option String} {n₀ : Node}
    (hn : EndsWell (.fresh i owner port dir) n₀ n) (h : n.Makes m n') :
    EndsWell (.fresh i owner port dir) n₀ n' where
  reachable := hn.reachable.makes h
  ended := by
    obtain ⟨id, r, hid⟩ := hn.ended
    obtain ⟨y, hy, hfate⟩ := Undergoes.fate (i := .move m) (.move h) hid
    cases hfate with
    | aside => exact ⟨id, r, hy⟩
  ok id r hr := by
    rcases h.leaves hr with hbefore | ⟨w, asked, -, here⟩
    · exact hn.ok id r hbefore
    · obtain ⟨id₀, r₀, hended⟩ := hn.ended
      have hcalm := hn.reachable.isCalm hended here
      cases r with
      | ok u => exact .inr rfl
      | error err => exact nomatch hcalm

/-! ## A lock that was lost -/

/-- The elector ran when its lock was lost, and the stop that makes it stopped is the only one to
be told. -/
inductive Ousted (n : Node) : Prop where
  | running (status : n.elector.status = .running)
      (calm : ∀ id c, n.course id = some c → c.isCalm = true)
  | halted {id : CallId} {c : Course} (status : n.elector.status = .stopped)
      (here : n.course id = some c) (denied : c.IsDenied n.elector.owner)
      (calm : ∀ id' c', id' ≠ id → n.course id' = some c' → c'.isCalm = true)

/-- No stop has anything to report before the elector is stopped. -/
theorem Halted.ousted (hn : n.Halted) (hrunning : n.elector.status = .running) : n.Ousted := by
  have hnot : n.elector.status ≠ .stopped := by
    rw [hrunning]
    exact nofun
  refine .running hrunning fun id c hc => ?_
  cases c with
  | going a asked =>
    cases a with
    | stop p =>
      by_contra hcalm
      have hpast : p.isPastHalt = true := by
        cases p <;> first | rfl | exact absurd rfl hcalm
      exact hnot (hn.past id _ asked hc hpast)
    | _ => rfl
  | ended r =>
    cases r with
    | stopped r => exact absurd (hn.ended id r hc).1 hnot
    | _ => rfl
  | brokenOff => rfl

/-- An elector that is ousted stays so if no stop is dropped that waits for an answer, and unlocking
fails. -/
theorem Ousted.makes (hn : n.Ousted) (h : n.Makes m n')
    (hbreak : ∀ id p, m = .breakOff id → n.course id ≠ some (.going (.stop p) true))
    (hanswer : ∀ id r p, m = .answer id r → n.course id = some (.going (.stop p) true) →
      r = .error (.lock (.notHeld n.elector.owner))) : n'.Ousted := by
  have hu : n.Undergoes (.move m) n' := .move h
  cases hn with
  | running status calm =>
    by_cases hhalt : ∃ id w asked, m = .step id w ∧ n.course id = some (.going (.stop .halt) asked)
    · -- this is the stop that finds the elector running, and is to be told
      obtain ⟨id, w, asked, rfl, here⟩ := hhalt
      obtain rfl := h.of_stop_step here
      have hcourse : (n.carryOut id ((Activity.stop .halt).step n.elector id)).course id =
          some (.going (.stop (.closeGate .running)) false) := by
        rw [← status]
        exact Function.update_self ..
      refine .halted rfl hcourse trivial fun id' c' hne hc => calm id' c' ?_
      exact (Function.update_of_ne hne ..).symm.trans hc
    · refine .running ?_ fun id c hc => h.isCalm (calm id) (fun w asked hm here => ?_) hc
      · refine (hu.precedes.running_or_stopped (.inl status)).resolve_right fun hstopped => hhalt ?_
        have hbefore : n.elector.status ≠ .stopped := by
          rw [status]
          exact nofun
        obtain ⟨id, w, asked, hi, here⟩ := hu.halting hbefore hstopped
        exact ⟨id, w, asked, Incident.move.inj hi, here⟩
      · exact absurd ⟨id, w, asked, hm, here⟩ hhalt
  | @halted id c status here denied calm =>
    obtain ⟨y, hy, hfate⟩ := hu.fate here
    refine .halted (hu.precedes.stopped status) hy ?_ fun id' c' hne hc =>
      h.isCalm (fun c hc => calm id' c hne hc) (fun _ _ _ _ => status) hc
    rw [h.owner]
    refine hfate.isDenied denied (fun hm p hc => ?_) fun r p hm hc => ?_
    · exact hbreak id p (Incident.move.inj hm) (hc ▸ here)
    · exact hanswer id r p (Incident.move.inj hm) (hc ▸ here)

/-- When a stop of an elector that was ousted has ended, the elector is stopped, one stop was told
that the lock is lost, and no other has failed. -/
theorem Ousted.of_ended (hn : n.Ousted) {i : Identity} {port : Nat} {dir : Option String}
    (h : Reachable (.fresh i n.elector.owner port dir) n) {r : StopResult}
    (ended : n.course id = some (.ended (.stopped r))) :
    n.elector.status = .stopped ∧
    ∃ id₀, n.course id₀ = some (.ended (.stopped (.error (.lock (.notHeld n.elector.owner))))) ∧
      ∀ id r, id ≠ id₀ → n.course id = some (.ended (.stopped r)) → r = .ok () := by
  have hstatus := (h.isShut ended).status
  refine ⟨hstatus, ?_⟩
  cases hn with
  | running status calm => exact nomatch status.symm.trans hstatus
  | @halted id₀ c status here denied calm =>
    refine ⟨id₀, ?_, fun id r hne hc => ?_⟩
    · cases c with
      | going a asked =>
        -- whoever is still to be told would have something to report
        have hcalm := h.isCalm ended here
        cases a with
        | stop p =>
          cases p with
          | closeGate before =>
            cases before with
            | running => exact nomatch hcalm
            | _ => exact nomatch denied
          | unlock => exact nomatch hcalm
          | leave r =>
            cases denied
            exact nomatch hcalm
          | _ => exact nomatch denied
        | _ => exact nomatch denied
      | ended e =>
        cases e with
        | stopped r =>
          cases denied
          exact here
        | _ => exact nomatch denied
      | brokenOff => exact nomatch denied
    · -- all others are calm, and end well
      have hcalm := calm id _ hne hc
      cases r with
      | ok u => rfl
      | error err => exact nomatch hcalm

end Node

end Primacy.Election
