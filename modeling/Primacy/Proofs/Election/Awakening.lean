/-
  Primacy.Proofs.Election.Awakening

  Calls that wait for an elector to become primary.  A call that finds the elector standing by waits
  for the gate.  While the gate is pending nothing but a drop gets it away from there; once the gate
  is settled it returns in two steps of its own, which nobody can hold up.  It reads the status
  again when it is woken, so what it returns tells how the gate was settled.
-/
import Primacy.Proofs.Election.Delivery

namespace Primacy.Election

namespace Node

variable {n n' : Node} {i : Incident} {js : List Incident} {id w : CallId} {a : Activity}
  {asked : Bool} {c : Chronicle} {k : Nat} {s : State}

/-! ## Steps of one activity -/

/-- The incident is a step of the activity `id`. -/
def Incident.isStepOf (id : CallId) : Incident → Bool
  | move (.step id' _) => id' == id
  | _ => false

theorem Incident.eq_step_of_isStepOf (h : i.isStepOf id = true) : ∃ w, i = .move (.step id w) := by
  cases i with
  | move m =>
    cases m with
    | step id' w => exact ⟨w, congrArg (fun id => Incident.move (.step id w)) (beq_iff_eq.mp h)⟩
    | _ => exact nomatch h
  | collapse id' => exact nomatch h

theorem Undergoes.going_of_step (h : n.Undergoes (.move (.step id w)) n') :
    ∃ a asked, n.course id = some (.going a asked) ∧ a.isReady n.elector id = true := by
  cases h with
  | move made =>
    cases made with
    | step here ready new => exact ⟨_, _, here, ready⟩

/-! ## Waiting for the gate -/

/-- What a woken call returns fits the way in which the gate was settled. -/
structure Reports (n : Node) (s : State) : Prop where
  closed : n.elector.gate = .closed → s = .stopped
  /-- It is running, or it is stopped as the elector is from then on. -/
  status : s = .running ∨ s = .stopped ∧ n.elector.status = .stopped

/-- Where a call is that found the elector standing by; `k` counts the steps it has taken since. -/
inductive Waiting (n : Node) (id : CallId) : (k : Nat) → Prop where
  | suspended (here : n.course id = some (.going (.await .gate) false)) : n.Waiting id 0
  | woken (here : n.course id = some (.going (.await .readStatus) false))
      (settled : n.elector.gate ≠ .pending) : n.Waiting id 1
  | returned {s : State} (here : n.course id = some (.ended (.awaited s)))
      (settled : n.elector.gate ≠ .pending) (reports : n.Reports s) : n.Waiting id 2
  | dropped {k : Nat} (here : n.course id = some .brokenOff) : n.Waiting id k

theorem Reports.precedes (h : n.Reports s) (settled : n.elector.gate ≠ .pending)
    (hface : n.elector.face.Precedes n'.elector.face) : n'.Reports s where
  closed hclosed := h.closed ((hface.gate settled).symm.trans hclosed)
  status := h.status.imp_right fun ⟨hs, hstopped⟩ => ⟨hs, hface.stopped hstopped⟩

/-- Behind a settled gate the status is one that may be returned. -/
theorem Coherent.reports (hn : n.Coherent) (settled : n.elector.gate ≠ .pending) :
    n.Reports n.elector.status where
  closed := hn.stopped_of_closed
  status := by
    have hran : n.elector.status = .running ∨ n.elector.status = .stopped := by
      cases hg : n.elector.gate with
      | pending => exact absurd hg settled
      | released => exact hn.ran_of_released hg
      | closed => exact .inr (hn.stopped_of_closed hg)
    exact hran.imp_right fun hstopped => ⟨hstopped, hstopped⟩

/-- A call that finds the elector standing by waits for the gate. -/
theorem Undergoes.waiting (h : n.Undergoes (.move (.step id w)) n')
    (here : n.course id = some (.going (.await .check) asked))
    (standby : n.elector.status = .standby) : n'.Waiting id 0 := by
  have hcourse := (h.course_elector_of_step here).1
  rw [Activity.step, AwaitPoint.step, standby] at hcourse
  exact .suspended hcourse

/-- Whoever is suspended at a point without a request moves by its own steps, or is dropped. -/
theorem Undergoes.stays_or_dropped (h : n.Undergoes i n') (hi : i.isStepOf id = false)
    (here : n.course id = some (.going a false)) (request : a.request? n.elector = none) :
    n'.course id = some (.going a false) ∨ n'.course id = some .brokenOff := by
  obtain ⟨y, hy, hfate⟩ := h.fate here
  cases hfate with
  | aside => exact .inl hy
  | step ready => exact nomatch hi.symm.trans (beq_self_eq_true id)
  | ask request' => exact nomatch request.symm.trans request'
  | breakOff may => exact .inr hy

theorem Waiting.undergoes (hw : n.Waiting id k) (hn : n.Coherent) (h : n.Undergoes i n') :
    n'.Waiting id (k + if i.isStepOf id then 1 else 0) := by
  have hface := h.precedes
  cases hi : i.isStepOf id with
  | false =>
    rw [if_neg Bool.false_ne_true, Nat.add_zero]
    cases hw with
    | suspended here =>
      rcases h.stays_or_dropped hi here rfl with there | there
      · exact .suspended there
      · exact .dropped there
    | woken here settled =>
      have hgate : n'.elector.gate = n.elector.gate := hface.gate settled
      rcases h.stays_or_dropped hi here rfl with there | there
      · exact .woken there (hgate ▸ settled)
      · exact .dropped there
    | returned here settled reports =>
      have hgate : n'.elector.gate = n.elector.gate := hface.gate settled
      obtain ⟨y, hy, hfate⟩ := h.fate here
      cases hfate with
      | aside => exact .returned hy (hgate ▸ settled) (reports.precedes settled hface)
    | dropped here =>
      obtain ⟨y, hy, hfate⟩ := h.fate here
      cases hfate with
      | aside => exact .dropped hy
  | true =>
    rw [if_pos rfl]
    obtain ⟨w, rfl⟩ := Incident.eq_step_of_isStepOf hi
    obtain ⟨a, asked, there, ready⟩ := h.going_of_step
    obtain ⟨hcourse, helector⟩ := h.course_elector_of_step there
    cases hw with
    | suspended here =>
      obtain ⟨rfl, -⟩ := Course.going.inj (Option.some.inj (there.symm.trans here))
      -- it is only woken by a settled gate
      have settled : n.elector.gate ≠ .pending := bne_iff_ne.mp ready
      exact .woken hcourse (helector ▸ settled)
    | woken here settled =>
      obtain ⟨rfl, -⟩ := Course.going.inj (Option.some.inj (there.symm.trans here))
      have hsame : n'.elector = n.elector := helector
      refine .returned hcourse (hsame ▸ settled) ?_
      exact (hn.reports settled).precedes settled hface
    | returned here settled reports => exact nomatch there.symm.trans here
    | dropped here => exact nomatch there.symm.trans here

/-- Throughout a run the steps of a waiting call are counted. -/
theorem Waiting.live (hw : n.Waiting id k) (hn : n.Coherent) (h : n.live? js = some (n', c)) :
    n'.Waiting id (k + js.countP (·.isStepOf id)) := by
  induction js generalizing n k c with
  | nil =>
    obtain ⟨rfl, -⟩ := of_live?_nil h
    exact hw
  | cons j js ih =>
    obtain ⟨n₁, c₁, hj, hlive, -⟩ := of_live?_cons h
    have hu := undergoes_of_undergo? hj
    have hrest := ih (hw.undergoes hn hu) (hn.undergoes hu) hlive
    have hcount : k + (if j.isStepOf id then 1 else 0) + js.countP (·.isStepOf id) =
        k + (j :: js).countP (·.isStepOf id) := by
      rw [List.countP_cons]
      omega
    rwa [hcount] at hrest

/-- While the gate is pending a waiting call is suspended at it. -/
theorem Waiting.of_pending (hw : n.Waiting id k) (hgate : n.elector.gate = .pending) :
    n.course id = some .brokenOff ∨
    n.course id = some (.going (.await .gate) false) ∧
      (Activity.await .gate).isReady n.elector id = false := by
  cases hw with
  | suspended here =>
    refine .inr ⟨here, ?_⟩
    show n.elector.gate.isSettled = false
    rw [hgate]
    rfl
  | woken here settled => exact absurd hgate settled
  | returned here settled reports => exact absurd hgate settled
  | dropped here => exact .inl here

/-- Behind a settled gate it has returned, or it can take a step and has taken at most one. -/
theorem Waiting.of_settled (hw : n.Waiting id k) (hgate : n.elector.gate ≠ .pending) :
    n.course id = some .brokenOff ∨
    (∃ s, n.course id = some (.ended (.awaited s)) ∧ n.Reports s) ∨
    ∃ p, n.course id = some (.going (.await p) false) ∧
      (Activity.await p).isReady n.elector id = true ∧ k < 2 := by
  cases hw with
  | suspended here => exact .inr (.inr ⟨.gate, here, bne_iff_ne.mpr hgate, by decide⟩)
  | woken here settled => exact .inr (.inr ⟨.readStatus, here, rfl, by decide⟩)
  | returned here settled reports => exact .inr (.inl ⟨_, here, reports⟩)
  | dropped here => exact .inl here

end Node

end Primacy.Election
