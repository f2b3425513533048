/-
  Primacy.Proofs.Election.Custody

  The books of every node that moves lead to are balanced, whatever the lock service and the
  registry answer and in whatever order the calls work.
-/
import Primacy.Proofs.Election.Ledger

namespace Primacy.Election

/-! ## Points at which the lock is in hand -/

namespace Activity

variable {e e' : Elector} {me : CallId} {a : Activity} {q : Request}

/-- Which requests an activity makes does not depend on the elector. -/
theorem isSome_request? (a : Activity) (e e' : Elector) :
    (a.request? e).isSome = (a.request? e').isSome := by
  cases a with
  | start p =>
    cases p with
    | publish writes blocking => cases writes <;> rfl
    | promote blocking p => cases p <;> rfl
    | _ => rfl
  | waiter p =>
    cases p with
    | promote p => cases p <;> rfl
    | _ => rfl
  | _ => rfl

/-- An activity that has the lock in hand makes no other request than to unlock. -/
theorem request?_eq_unlock_iff (hq : a.request? e = some q) :
    q = .unlock ↔ a.stage.inHand = true := by
  cases a with
  | start p =>
    cases p with
    | publish writes blocking =>
      cases writes <;> simp [request?, StartPoint.request?] at hq
      subst hq
      simp [stage, StartPoint.stage, Stage.inHand]
    | promote blocking p =>
      cases p <;> simp [request?, StartPoint.request?, PromotionPoint.request?] at hq <;>
        subst hq <;> simp [stage, StartPoint.stage, PromotionPoint.stage, Stage.inHand]
    | _ =>
      simp [request?, StartPoint.request?] at hq <;> subst hq <;>
        simp [stage, StartPoint.stage, Stage.inHand]
  | stop p =>
    cases p <;> simp [request?, StopPoint.request?] at hq
    subst hq
    simp [stage, StopPoint.stage, Stage.inHand]
  | waiter p =>
    cases p with
    | promote p =>
      cases p <;> simp [request?, WaiterPoint.request?, PromotionPoint.request?] at hq <;>
        subst hq <;> simp [stage, WaiterPoint.stage, PromotionPoint.stage, Stage.inHand]
    | _ =>
      simp [request?, WaiterPoint.request?] at hq <;> subst hq <;>
        simp [stage, WaiterPoint.stage, Stage.inHand]
  | await p => simp [request?] at hq
  | notify p => simp [request?] at hq

/-- An activity that can take a step with the lock in hand makes no request there. -/
theorem request?_eq_none_of_isReady (hready : a.isReady e me = true)
    (hin : a.stage.inHand = true) : a.request? e = none := by
  cases a with
  | start p =>
    cases p with
    | queue address blocking => rfl
    | await => simp [stage, StartPoint.stage, Stage.inHand] at hin
    | _ => exact Option.isNone_iff_eq_none.mp hready
  | stop p =>
    cases p with
    | unlock => simp [isReady, StopPoint.isReady] at hready
    | _ => rfl
  | waiter p =>
    cases p with
    | await => simp [stage, WaiterPoint.stage, Stage.inHand] at hin
    | _ => exact Option.isNone_iff_eq_none.mp hready
  | await p => rfl
  | notify p => rfl

/-- An activity that breaks off with the lock in hand has asked to unlock it. -/
theorem asked_of_mayBreakOff {asked : Bool} (hmay : a.mayBreakOff asked = true)
    (hin : a.stage.inHand = true) : asked = true := by
  cases a with
  | start p => cases p <;> first | exact hmay | exact nomatch hin
  | stop p => cases p <;> first | exact hmay | exact nomatch hin
  | waiter p =>
    cases p with
    | promote p => exact hmay
    | _ => exact nomatch hmay
  | await p => exact nomatch hin
  | notify p => exact nomatch hin

/-- Connecting is done past the turnstile. -/
theorem isInside_of_linking (h : a.stage = .linking) : a.isInside = true := by
  cases a with
  | start p =>
    cases p with
    | connect address blocking => rfl
    | promote blocking p => cases p <;> exact nomatch h
    | _ => exact nomatch h
  | stop p =>
    cases p with
    | closeGate before => cases before <;> exact nomatch h
    | _ => exact nomatch h
  | waiter p =>
    cases p with
    | promote p => cases p <;> exact nomatch h
    | _ => exact nomatch h
  | await p => exact nomatch h
  | notify p => exact nomatch h

/-- Only a start brings a waiter to life. -/
theorem eq_spawnWaiter_of_active (hready : a.isReady e me = true) (habsent : e.waiter = .absent)
    (hactive : (a.step e me).elector.waiter = .active) : a = .start .spawnWaiter := by
  have hsame : (a.step e me).elector.waiter ≠ e.waiter := by
    rw [hactive, habsent]
    decide
  cases a with
  | start p =>
    cases p with
    | spawnWaiter => rfl
    | promote blocking p =>
      obtain ⟨s, g, c, h⟩ := p.step_elector .immediate e
      exact absurd (congrArg Elector.waiter h) hsame
    | check address blocking =>
      refine absurd ?_ hsame
      simp only [step, StartPoint.step]
      split <;> rfl
    | standBy =>
      refine absurd ?_ hsame
      simp only [step, StartPoint.step]
      split <;> rfl
    | readStatus blocking => cases blocking <;> exact absurd rfl hsame
    | _ => exact absurd rfl hsame
  | stop p =>
    cases p with
    | takeWaiter =>
      refine absurd ?_ hsame
      simp only [step, StopPoint.step]
      split <;> rfl
    | closeGate before => cases before <;> exact absurd rfl hsame
    | _ => exact absurd rfl hsame
  | await p => exact absurd (congrArg Elector.waiter (p.step_elector e)) hsame
  | notify p =>
    obtain ⟨c, h⟩ := p.step_elector e
    exact absurd (congrArg Elector.waiter h) hsame
  | waiter p =>
    cases p with
    | await => cases hactive
    | checkShutdown =>
      refine absurd ?_ hsame
      simp only [step, WaiterPoint.step]
      split <;> rfl
    | promote p =>
      obtain ⟨s, g, c, h⟩ := p.step_elector .deferred e
      have hw : (p.step .deferred e).elector.waiter = e.waiter := by rw [h]
      rcases WaiterPoint.settlePromotion_elector_next (p.step .deferred e) with
        ⟨_, _, ht⟩ | ⟨_, ht⟩ | ⟨_, ht⟩
      · exact absurd ((congrArg (·.elector.waiter) ht).trans hw) hsame
      · exact absurd ((congrArg (·.elector.waiter) ht).trans hw) hsame
      · have hended := (congrArg (·.elector.waiter) ht).symm.trans hactive
        cases hended
    | unlockStopped => exact absurd rfl hsame
    | unlockRefused => exact absurd rfl hsame

end Activity

/-! ## Nodes in custody -/

namespace Node

structure Custody (n : Node) : Prop where
  /-- Whoever waits for an answer has a request to be answered. -/
  pending : ∀ id a, n.course id = some (.going a true) → (a.request? n.elector).isSome = true
  /-- Whoever waits for an unlock has made it. -/
  settled : ∀ id a, n.course id = some (.going a true) → a.stage.inHand = true →
    .unlock ∈ n.requests
  inside : ∀ id a asked, n.course id = some (.going a asked) → a.isInside = true →
    n.elector.init.holder = some id
  balanced : n.ledger.Balanced

variable {n : Node} {id : CallId} {a : Activity} {asked : Bool}

theorem custody_fresh {e : Elector} (h : e.status ≠ .running) : (fresh e).Custody where
  pending _ _ h := nomatch h
  settled _ _ h := nomatch h
  inside _ _ _ h := nomatch h
  balanced := by
    have hholds : ∀ h, ¬ (fresh e).ledger.Holds h := by
      intro i hi
      cases i with
      | none => exact h hi
      | some id => exact nomatch hi.1
    refine ⟨⟨?_, ?_, ?_, fun _ => rfl, fun _ _ => rfl⟩, .of_none hholds rfl (Nat.zero_le 1)⟩
    · exact fun _ h => nomatch h
    · exact fun _ h => nomatch h
    · exact fun _ _ h => nomatch h

/-- Nobody else connects while an activity does. -/
theorem Custody.lone (hn : n.Custody) (hid : n.ledger.stage id = .linking) :
    ∀ id', n.ledger.stage id' = .linking → id' = id := by
  have hholder : ∀ i, n.ledger.stage i = .linking → n.elector.init.holder = some i := by
    intro i hi
    have hbusy : n.ledger.stage i ≠ .idle := by
      rw [hi]
      decide
    obtain ⟨a, asked, here⟩ := going_of_stage hbusy
    have hstage : a.stage = .linking := (stage_of_going here).symm.trans hi
    exact hn.inside i a asked here (Activity.isInside_of_linking hstage)
  -- and only one activity at a time is past the turnstile
  intro id' hid'
  exact Option.some.inj ((hholder id' hid').symm.trans (hholder id hid))

/-- One activity gets to another point, and leaves the turnstile to the others as it is. -/
theorem Custody.setCourse (hn : n.Custody) {n' : Node} {c : Course}
    (hcourse : n'.course = (n.setCourse id c).course) (hrequests : n.requests ⊆ n'.requests)
    (hasked : ∀ a, c = .going a true → (a.request? n.elector).isSome = true ∧
      (a.stage.inHand = true → .unlock ∈ n'.requests))
    (hown : ∀ a asked, c = .going a asked → a.isInside = true →
      n'.elector.init.holder = some id)
    (hother : ∀ id', id' ≠ id → n.elector.init.holder = some id' →
      n'.elector.init.holder = some id')
    (hbalanced : n'.ledger.Balanced) : n'.Custody where
  pending id' a' h := by
    rw [hcourse] at h
    rw [a'.isSome_request? _ n.elector]
    rcases course_setCourse h with ⟨-, hc⟩ | ⟨-, h⟩
    · exact (hasked a' hc.symm).1
    · exact hn.pending id' a' h
  settled id' a' h hin := by
    rw [hcourse] at h
    rcases course_setCourse h with ⟨-, hc⟩ | ⟨-, h⟩
    · exact (hasked a' hc.symm).2 hin
    · exact hrequests (hn.settled id' a' h hin)
  inside id' a' asked' h hin := by
    rw [hcourse] at h
    rcases course_setCourse h with ⟨rfl, hc⟩ | ⟨hne, h⟩
    · exact hown a' asked' hc.symm hin
    · exact hother id' hne (hn.inside id' a' asked' h hin)
  balanced := hbalanced

/-- A turn keeps the custody. -/
theorem Custody.carryOut (hn : n.Custody) {t : Turn Activity Ending} {answered granted : Bool}
    (here : n.course id = some (.going a asked))
    (hp : Passage n.elector t.elector answered granted a.stage (stageAfter t.next))
    (hc : Crossing n.elector t.elector id (insideAfter t.next))
    (hasked : a.stage.inHand = true → asked = answered) :
    { n.carryOut id t with grants := n.grants + if granted then 1 else 0 : Node }.Custody := by
  refine hn.setCourse rfl (List.Subset.refl _) ?_ ?_ hc.other ?_
  · intro a' h
    cases ht : t.next <;> simp [ht] at h
  · intro a' asked' h hin
    refine hc.own ?_
    cases ht : t.next with
    | inl a'' =>
      rw [ht] at h
      cases h
      exact hin
    | inr r =>
      rw [ht] at h
      exact nomatch h
  · rw [ledger_carryOut]
    have hstage := stage_of_going here
    refine hn.balanced.passage (hstage ▸ hp) rfl rfl ?_ hn.lone
    rw [hstage, asked_of_going here]
    exact hasked

/-- A waiter that comes to life takes the place of the start that made it. -/
theorem Custody.spawn (hn : n.Custody) {before : Elector} {w : CallId} (new : n.course w = none)
    (hspawn : before.waiter = .absent → n.elector.waiter = .active →
      n.elector.started = true ∧ n.grants = 0 ∧ ∀ id, (n.ledger.stage id).competes = false) :
    (n.spawn before w).Custody := by
  rw [Node.spawn]
  split
  · next h =>
    obtain ⟨hstarted, hgrants, hnone⟩ := hspawn h.1 h.2
    refine hn.setCourse rfl (List.Subset.refl _) (by rintro _ ⟨⟩) ?_ (fun _ _ h => h) ?_
    · intro a' asked' h hin
      cases h
      cases hin
    · rw [ledger_spawn]
      exact hn.balanced.spawn (by simp [ledger, new]) hnone hstarted hgrants
  · exact hn

theorem Custody.call (hn : n.Custody) (c : Entry) (new : n.course id = none) :
    (n.setCourse id (.going c.activity false)).Custody := by
  refine hn.setCourse rfl (List.Subset.refl _) ?_ ?_ (fun _ _ h => h) ?_
  · intro a' h
    cases h
  · intro a' asked' h hin
    cases h
    cases c <;> exact nomatch hin
  · rw [ledger_call c new]
    exact hn.balanced

theorem Custody.step (hn : n.Custody) {w : CallId} (here : n.course id = some (.going a asked))
    (ready : a.isReady n.elector id = true) (new : n.course w = none) :
    ((n.carryOut id (a.step n.elector id)).spawn n.elector w).Custody := by
  have hne : w ≠ id := by
    rintro rfl
    rw [new] at here
    exact nomatch here
  -- whoever has the lock in hand and has asked to unlock it waits for the answer
  have hasked : a.stage.inHand = true → asked = false := by
    intro hin
    cases asked with
    | false => rfl
    | true =>
      have hsome := hn.pending id a here
      rw [Activity.request?_eq_none_of_isReady ready hin] at hsome
      exact nomatch hsome
  have hcarry : (n.carryOut id (a.step n.elector id)).Custody :=
    hn.carryOut here (Activity.step_passage ready)
      (Activity.step_crossing ready (hn.inside id a asked here)) hasked
  refine hcarry.spawn (by simp [Node.carryOut, Node.setCourse, hne, new]) fun habsent hactive => ?_
  -- the start that brings the waiter to life was the only one to compete
  obtain rfl := Activity.eq_spawnWaiter_of_active ready habsent hactive
  have hstage := stage_of_going here
  have hcompetes : (n.ledger.stage id).competes = true := by
    rw [hstage]
    rfl
  refine ⟨hn.balanced.competing id hcompetes, hn.balanced.waiting id hstage, fun id' => ?_⟩
  have hledger : (n.carryOut id (Activity.step n.elector id (.start .spawnWaiter))).ledger =
      n.ledger.move id .idle _ false := ledger_carryOut n id _ false
  rw [hledger]
  by_cases hid : id' = id
  · rw [hid, Ledger.move_stage_self]
    rfl
  · rw [Ledger.move_stage_other _ _ hid]
    by_contra h
    rw [Bool.not_eq_false] at h
    exact hid (hn.balanced.alone id' id h hcompetes)

theorem Custody.ask (hn : n.Custody) {q : Request} (here : n.course id = some (.going a false))
    (request : a.request? n.elector = some q) :
    { n.setCourse id (.going a true) with requests := n.requests ++ [q] : Node }.Custody := by
  refine hn.setCourse rfl (List.subset_append_left _ _) ?_ ?_ (fun _ _ h => h) ?_
  · intro a' h
    cases h
    refine ⟨Option.isSome_iff_exists.mpr ⟨q, request⟩, fun hin => ?_⟩
    have hq : q = .unlock := (Activity.request?_eq_unlock_iff request).mpr hin
    exact List.mem_append_right _ (List.mem_singleton.mpr hq.symm)
  · intro a' asked' h hin
    cases h
    exact hn.inside id a false here hin
  · rw [ledger_ask here]
    refine hn.balanced.ask ?_ (asked_of_going here)
    rw [stage_of_going here]
    exact Activity.request?_eq_unlock_iff request

theorem Custody.breakOff (hn : n.Custody) (here : n.course id = some (.going a asked))
    (may : a.mayBreakOff asked = true) :
    { n.setCourse id .brokenOff with elector := a.abandon n.elector id : Node }.Custody := by
  have hc := Activity.abandon_crossing (hn.inside id a asked here)
  refine hn.setCourse rfl (List.Subset.refl _) nofun nofun hc.other ?_
  obtain ⟨hstatus, hstarted⟩ := a.abandon_status_started n.elector id
  rw [ledger_breakOff]
  refine hn.balanced.breakOff hstatus hstarted ?_ hn.lone
  rw [stage_of_going here, asked_of_going here]
  exact Activity.asked_of_mayBreakOff may

/-- Every move keeps the custody. -/
theorem Custody.makes (hn : n.Custody) {n' : Node} {m : Move} (h : n.Makes m n') : n'.Custody := by
  cases h with
  | call new => exact hn.call _ new
  | step here ready new => exact hn.step here ready new
  | ask here request => exact hn.ask here request
  | answer here request =>
    exact hn.carryOut here (Activity.reply_passage request)
      (Activity.reply_crossing (hn.inside _ _ _ here)) fun _ => rfl
  | breakOff here may => exact hn.breakOff here may
  | discard => exact ⟨hn.pending, hn.settled, hn.inside, hn.balanced⟩

theorem Reachable.custody {e : Elector} (he : e.status ≠ .running) (h : Reachable e n) :
    n.Custody := by
  -- on the moves made so far
  induction h with
  | fresh => exact custody_fresh he
  | move _ made ih => exact ih.makes (makes_of_move? made)

end Node

end Primacy.Election
