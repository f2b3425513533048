/-
  Primacy.Proofs.Election.Release

  A lock that was granted is unlocked exactly once.  A stop that has ended leaves the elector
  stopped and nobody with the lock to give back on its behalf, so once the start and the waiter are
  over as well, the books balance with nothing in hand.
-/
import Primacy.Proofs.Election.Custody

namespace Primacy.Election

/-! ## Stops that halted the elector -/

/-- The stop has made the elector stopped. -/
def StopPoint.isPastHalt : StopPoint → Bool
  | closeGate _ => true
  | unlock => true
  | leave _ => true
  | _ => false

namespace Activity

def isPastHalt : Activity → Bool
  | stop p => p.isPastHalt
  | _ => false

/-- The turn leads a stop past the point at which the elector is stopped, or to its end. -/
def pastHaltAfter : Activity ⊕ Ending → Bool :=
  Sum.elim isPastHalt fun r => match r with
    | .stopped _ => true
    | _ => false

variable {e : Elector} {me : CallId} {a : Activity} {r : Reply}

theorem pastHaltAfter_within {π ρ : Type} (t : Turn π ρ) {point : π → Activity}
    {ending : ρ → Ending} (hp : ∀ p, (point p).isPastHalt = false)
    (hr : ∀ r, pastHaltAfter (.inr (ending r)) = false) :
    pastHaltAfter (t.within point fun r => .inr (ending r)).next = false :=
  Turn.elim_within_const hp hr

theorem isPastHalt_of_step (h : pastHaltAfter (a.step e me).next = true) :
    a.isPastHalt = true ∨ (a.step e me).elector.status = .stopped := by
  cases a with
  | stop p =>
    cases p with
    | halt => exact .inr rfl
    | closeGate before => exact .inl rfl
    | unlock => exact .inl rfl
    | leave result => exact .inl rfl
    | request => cases h
    | arrive =>
      by_cases hi : (e.init.arrive me).isInside me = true <;>
        simp [step, StopPoint.step, hi, Turn.within, Turn.go, pastHaltAfter, isPastHalt,
          StopPoint.isPastHalt] at h
    | queue => cases h
    | takeWaiter =>
      by_cases hk : e.waiterKept = true <;>
        simp [step, StopPoint.step, hk, Turn.within, Turn.go, pastHaltAfter, isPastHalt,
          StopPoint.isPastHalt] at h
    | join => cases h
  | _ =>
    rw [step, pastHaltAfter_within _ (fun _ => rfl) fun _ => rfl] at h
    cases h

theorem isPastHalt_of_reply (h : pastHaltAfter (a.reply e r).next = true) :
    a.isPastHalt = true := by
  cases a with
  | stop p => cases p <;> first | rfl | exact h
  | start p =>
    rw [reply, pastHaltAfter_within _ (fun _ => rfl) fun _ => rfl] at h
    cases h
  | waiter p =>
    rw [reply, pastHaltAfter_within _ (fun _ => rfl) fun _ => rfl] at h
    cases h
  | await p => exact h
  | notify p => exact h

/-- Only from past the turnstile does a stop end. -/
theorem isInside_of_step_stopped {result : StopResult}
    (h : (a.step e me).next = .inr (.stopped result)) : a.isInside = true := by
  cases a with
  | stop p =>
    cases p with
    | request => exact nomatch h
    | arrive => exact nomatch h
    | queue => exact nomatch h
    | _ => rfl
  | start p =>
    obtain ⟨_, -, hr⟩ := Turn.ended_of_within h
    cases hr
  | await p =>
    obtain ⟨_, -, hr⟩ := Turn.ended_of_within h
    cases hr
  | notify p =>
    obtain ⟨_, -, hr⟩ := Turn.ended_of_within h
    cases hr
  | waiter p =>
    obtain ⟨_, -, hr⟩ := Turn.ended_of_within h
    cases hr

theorem reply_ne_stopped {result : StopResult} : (a.reply e r).next ≠ .inr (.stopped result) := by
  intro h
  cases a with
  | stop p => cases p <;> cases r <;> cases h
  | start p =>
    obtain ⟨_, -, hr⟩ := Turn.ended_of_within h
    cases hr
  | waiter p =>
    obtain ⟨_, -, hr⟩ := Turn.ended_of_within h
    cases hr
  | await p => cases h
  | notify p => cases h

theorem isInside_of_releasing (h : a.stage = .releasing) : a.isInside = true := by
  cases a with
  | stop p =>
    cases p with
    | closeGate before => rfl
    | unlock => rfl
    | _ => exact nomatch h
  | start p =>
    cases p with
    | promote blocking p => cases p <;> exact nomatch h
    | _ => exact nomatch h
  | waiter p =>
    cases p with
    | promote p => cases p <;> exact nomatch h
    | _ => exact nomatch h
  | await p => exact nomatch h
  | notify p => exact nomatch h

/-- The activity is a start, or it is the waiter. -/
def seeksLock : Activity → Bool
  | start _ => true
  | waiter _ => true
  | _ => false

/-- A stop never holds a lock that the elector does not show. -/
theorem stop_stage_ne_holding {p : StopPoint} : (stop p).stage ≠ .holding := by
  cases p with
  | closeGate before => cases before <;> exact nofun
  | _ => exact nofun

end Activity

namespace Passage

variable {e e' : Elector} {answered granted : Bool} {s : Stage}

/-- A stopped elector stays stopped. -/
theorem stopped {s' : Stage} (h : Passage e e' answered granted s s')
    (hs : e.status = .stopped) : e'.status = .stopped := by
  cases h with
  | stay free status started => exact status.trans hs
  | retire free status started => exact status.trans hs
  | link unstarted status started => exact status.trans hs
  | connect status started => exact status.trans hs
  | standBy before status started =>
    rw [hs] at before
    exact nomatch before
  | grant status started => exact status.trans hs
  | run before status started =>
    rw [hs] at before
    exact nomatch before
  | halt status started => exact status

/-- Only an elector that ran leaves a lock to be released by a stop. -/
theorem releasing (h : Passage e e' answered granted s .releasing) :
    s = .releasing ∨ e.status = .running := by
  generalize hs' : Stage.releasing = s' at h
  cases h with
  | stay free status started => exact .inl rfl
  | halt status started =>
    by_cases hr : e.status = .running
    · exact .inr hr
    · rw [if_neg hr] at hs'
      exact nomatch hs'
  | _ => exact nomatch hs'

end Passage

/-! ## What a stop leaves behind -/

namespace Node

structure Halted (n : Node) : Prop where
  past : ∀ id a asked, n.course id = some (.going a asked) → a.isPastHalt = true →
    n.elector.status = .stopped
  ended : ∀ id r, n.course id = some (.ended (.stopped r)) →
    n.elector.status = .stopped ∧ ∀ id', n.ledger.stage id' ≠ .releasing

variable {n : Node} {id : CallId} {a : Activity} {asked : Bool}

theorem halted_fresh (e : Elector) : (fresh e).Halted where
  past _ _ _ h := nomatch h
  ended _ _ h := nomatch h

/-- Setting the course of an activity that has no part in stopping the elector. -/
theorem Halted.setCourse (hn : n.Halted) {n' : Node} {c : Course}
    (hcourse : n'.course = (n.setCourse id c).course)
    (hstatus : n'.elector.status = n.elector.status)
    (hpast : ∀ a asked, c = .going a asked → a.isPastHalt = true → n.elector.status = .stopped)
    (hended : ∀ r, c ≠ .ended (.stopped r)) (hstage : c.stage = .releasing →
      n.ledger.stage id = .releasing) : n'.Halted where
  past id' a' asked' h hp := by
    rw [hcourse] at h
    rw [hstatus]
    rcases course_setCourse h with ⟨-, hc⟩ | ⟨-, h⟩
    · exact hpast a' asked' hc.symm hp
    · exact hn.past id' a' asked' h hp
  ended id' r h := by
    rw [hcourse] at h
    rcases course_setCourse h with ⟨-, hc⟩ | ⟨-, h⟩
    · exact absurd hc.symm (hended r)
    · obtain ⟨hs, hnone⟩ := hn.ended id' r h
      refine ⟨hstatus.trans hs, fun id'' hr => ?_⟩
      have hr' : ((n'.course id'').elim .idle Course.stage) = .releasing := hr
      by_cases hne : id'' = id
      · rw [hcourse, hne] at hr'
        have hc : c.stage = .releasing := by simpa [Node.setCourse] using hr'
        exact hnone id (hstage hc)
      · rw [hcourse] at hr'
        have hsame : ((n.course id'').elim .idle Course.stage) = .releasing := by
          simpa [Node.setCourse, hne] using hr'
        exact hnone id'' hsame

/-- A turn of an activity keeps what stops leave behind. -/
theorem Halted.carryOut (hn : n.Halted) (hc : n.Custody) {n' : Node} {t : Turn Activity Ending}
    {answered granted : Bool} (here : n.course id = some (.going a asked))
    (hcourse : n'.course = (n.carryOut id t).course) (helector : n'.elector = t.elector)
    (hp : Passage n.elector t.elector answered granted a.stage (stageAfter t.next))
    (hpast : Activity.pastHaltAfter t.next = true →
      a.isPastHalt = true ∨ t.elector.status = .stopped)
    (hinside : ∀ r, t.next = .inr (.stopped r) → a.isInside = true) : n'.Halted := by
  have hstopped : Activity.pastHaltAfter t.next = true → n'.elector.status = .stopped := by
    intro h
    rw [helector]
    rcases hpast h with ha | hs
    · exact hp.stopped (hn.past id a asked here ha)
    · exact hs
  have hstage : ∀ id', id' ≠ id → n'.ledger.stage id' = n.ledger.stage id' := by
    intro id' hne
    simp [ledger, hcourse, Node.carryOut, Node.setCourse, hne]
  have hown : n'.ledger.stage id = stageAfter t.next := by
    cases ht : t.next <;> simp [ledger, hcourse, Node.carryOut, Node.setCourse, ht, stageAfter,
      Course.stage]
  refine ⟨fun id' a' asked' h hp' => ?_, fun id' r h => ?_⟩
  · rw [hcourse] at h
    rcases going_carryOut h with ⟨-, hnext, -⟩ | ⟨-, h⟩
    · exact hstopped (by rw [hnext]; exact hp')
    · rw [helector]
      exact hp.stopped (hn.past id' a' asked' h hp')
  · rw [hcourse] at h
    rcases ended_carryOut h with ⟨-, hnext⟩ | ⟨-, h⟩
    · -- the stop that ends here was past the turnstile, and so is whoever has to release
      refine ⟨hstopped (by rw [hnext]; rfl), fun id'' hr => ?_⟩
      by_cases hne : id'' = id
      · rw [hne, hown, hnext] at hr
        cases hr
      · rw [hstage id'' hne] at hr
        have hbusy : n.ledger.stage id'' ≠ .idle := by
          rw [hr]
          decide
        obtain ⟨b, asked'', hb⟩ := going_of_stage hbusy
        have hbin := Activity.isInside_of_releasing ((stage_of_going hb).symm.trans hr)
        have hother := hc.inside id'' b asked'' hb hbin
        have hself := hc.inside id a asked here (hinside r hnext)
        exact hne (Option.some.inj (hother.symm.trans hself))
    · obtain ⟨hs, hnone⟩ := hn.ended id' r h
      refine ⟨helector ▸ hp.stopped hs, fun id'' hr => ?_⟩
      by_cases hne : id'' = id
      · rw [hne, hown] at hr
        rw [hr] at hp
        rcases hp.releasing with ha | hrun
        · exact hnone id ((stage_of_going here).trans ha)
        · rw [hs] at hrun
          cases hrun
      · exact hnone id'' ((hstage id'' hne).symm.trans hr)

theorem Halted.spawn (hn : n.Halted) {before : Elector} {w : CallId} :
    (n.spawn before w).Halted := by
  rw [Node.spawn]
  split
  · refine hn.setCourse rfl rfl ?_ (by rintro _ ⟨⟩) (by rintro ⟨⟩)
    rintro _ _ ⟨⟩ ⟨⟩
  · exact hn

/-- Every move keeps what stops leave behind. -/
theorem Halted.makes (hn : n.Halted) (hc : n.Custody) {n' : Node} {m : Move} (h : n.Makes m n') :
    n'.Halted := by
  cases h with
  | @call id c new =>
    refine hn.setCourse rfl rfl ?_ nofun ?_
    · intro a asked h ha
      cases h
      cases c <;> exact nomatch ha
    · cases c <;> exact nofun
  | @step id waiter a asked here ready new =>
    have hcarry : (n.carryOut id (a.step n.elector id)).Halted :=
      hn.carryOut hc here rfl rfl (Activity.step_passage ready) Activity.isPastHalt_of_step
        fun _ => Activity.isInside_of_step_stopped
    exact hcarry.spawn
  | @ask id a q here request =>
    refine hn.setCourse rfl rfl ?_ nofun fun hs => (stage_of_going here).trans hs
    intro a' asked' h ha
    cases h
    exact hn.past id a false here ha
  | answer here request =>
    exact hn.carryOut hc here rfl rfl (Activity.reply_passage request)
      (fun h => .inl (Activity.isPastHalt_of_reply h)) fun _ h => absurd h Activity.reply_ne_stopped
  | breakOff here may =>
    exact hn.setCourse rfl (Activity.abandon_status_started ..).1 nofun nofun nofun
  | discard => exact ⟨hn.past, hn.ended⟩

theorem Reachable.halted {e : Elector} (he : e.status ≠ .running) (h : Reachable e n) :
    n.Halted := by
  induction h with
  | fresh => exact halted_fresh e
  | move before made ih => exact ih.makes (before.custody he) (makes_of_move? made)

/-! ## One release for each grant -/

/-- Once no start and no waiter is at work any more and a stop has ended, a lock that was granted
was unlocked exactly once, whoever did it. -/
theorem unlocks_once {i : Identity} {owner : String} {port : Nat} {dir : Option String}
    (h : Reachable (.fresh i owner port dir) n) (granted : 0 < n.grants)
    (ended : ∀ id a asked, n.course id = some (.going a asked) → a.seeksLock = false)
    (stopped : ∃ id r, n.course id = some (.ended (.stopped r))) :
    n.requests.count .unlock = 1 := by
  have he : (Elector.fresh i owner port dir).status ≠ .running := by rintro ⟨⟩
  have hbooks := (h.custody he).balanced
  obtain ⟨id, r, hid⟩ := stopped
  obtain ⟨hstopped, hreleased⟩ := (h.halted he).ended id r hid
  -- the lock is in nobody's hand: the elector is stopped, and whoever else could have it is over
  have hfree : ∀ hand, ¬ n.ledger.Holds hand := by
    intro hand hh
    cases hand with
    | none =>
      have hrunning : n.elector.status = .running := hh
      rw [hstopped] at hrunning
      cases hrunning
    | some id' =>
      obtain ⟨hin, -⟩ := hh
      have hbusy : n.ledger.stage id' ≠ .idle := by
        intro hidle
        rw [hidle] at hin
        cases hin
      obtain ⟨a, asked, here⟩ := going_of_stage hbusy
      have hstage := stage_of_going here
      have hrest := hreleased id'
      rw [hstage] at hin hrest
      -- a stop that has to release would not leave another one ended
      have hholding : a.stage = .holding := by
        cases hs : a.stage <;> simp [hs, Stage.inHand] at hin hrest ⊢
      have hseeks := ended id' a asked here
      cases a with
      | stop p => exact Activity.stop_stage_ne_holding hholding
      | start p => cases hseeks
      | waiter p => cases hseeks
      | await p => cases hholding
      | notify p => cases hholding
  have hsame : n.grants = n.requests.count .unlock := by
    by_contra hne
    obtain ⟨hand, hh⟩ := hbooks.covered hne
    exact hfree hand hh
  have hone : n.grants ≤ 1 := hbooks.bounded.2
  omega

/-- A start that blocks is granted the lock and runs; a stop comes in before it looks for one. -/
def supersededMoves : List Move :=
  [.call 0 (.start "memory" true), .step 0 9, .step 0 9, .ask 0, .answer 0 (.ok true), .ask 0,
   .answer 0 (.ok true), .ask 0, .answer 0 (.ok true), .step 0 9, .step 0 9, .call 1 .stop, .ask 0,
   .answer 0 (.ok true), .step 0 9, .step 1 9, .step 0 9, .step 1 9, .step 1 9, .step 1 9,
   .step 0 9, .step 1 9, .ask 1, .answer 1 (.ok true), .step 1 9]

/-- The node that these moves lead to. -/
def superseded : Node :=
  ((fresh (.fresh ⟨"host", 7, "lead", "a"⟩ "a#1" 4000 none)).run? supersededMoves).getD
    (fresh default)

theorem superseded_unlocks_once :
    0 < superseded.grants ∧
    (∀ id a asked, superseded.course id = some (.going a asked) → a.seeksLock = false) ∧
    (∃ id r, superseded.course id = some (.ended (.stopped r))) ∧
    superseded.requests.count .unlock = 1 := by
  have hover : ∀ id a asked, superseded.course id = some (.going a asked) →
      a.seeksLock = false := by
    intro id a asked h
    match id with
    | 0 => exact nomatch h
    | 1 => exact nomatch h
    | id + 2 =>
      rw [show superseded.course (id + 2) = none from rfl] at h
      exact nomatch h
  have hmade : (fresh (.fresh ⟨"host", 7, "lead", "a"⟩ "a#1" 4000 none)).run? supersededMoves =
      some superseded := rfl
  have hstopped : ∃ id r, superseded.course id = some (.ended (.stopped r)) := ⟨1, _, rfl⟩
  exact ⟨Nat.one_pos, hover, hstopped,
    unlocks_once (.run .fresh hmade) Nat.one_pos hover hstopped⟩

end Node

end Primacy.Election
