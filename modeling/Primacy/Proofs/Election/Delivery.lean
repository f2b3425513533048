/-
  Primacy.Proofs.Election.Delivery

  The status of an elector when a callback is called.  The gate decides whether a callback is
  called, and an open gate stays open when the elector is stopped.  A promotion calls back while the
  elector runs, unless it is suspended between the gate and the slot; a registration that comes
  after a stop finds the gate of a former primary open, and calls back all the same.
-/
import Primacy.Proofs.Election.Announcement
import Primacy.Proofs.Election.Callback
import Primacy.Proofs.Election.History
import Primacy.Proofs.Election.Repetition

namespace Primacy.Election

/-- A promotion that goes on to call back has just opened the gate. -/
theorem PromotionPoint.eq_openGate_of_step {route : Route} {e : Elector} {p : PromotionPoint}
    (h : (p.step route e).next = .inl .callBack) : p = .openGate ∧ e.gate = .pending := by
  cases p with
  | run =>
    simp only [step] at h
    split at h <;> cases h
  | checkShutdown =>
    simp only [step] at h
    split at h <;> cases h
  | openGate =>
    refine ⟨rfl, ?_⟩
    by_contra hg
    have hrelease : e.gate.release = (false, e.gate) := Gate.settle_of_ne hg .released
    simp only [step, hrelease] at h
    cases h
  | putHost => cases h
  | putPort => cases h
  | callBack => cases h

namespace Node

variable {n n' m : Node} {i j : Incident} {is js : List Incident} {id w : CallId} {a : Activity}
  {asked : Bool} {c : Chronicle}

/-! ## Electors that were halted -/

/-- A stop makes the elector stopped. -/
def IsHalt (n : Node) (i : Incident) : Prop :=
  ∃ id w asked, i = .move (.step id w) ∧ n.course id = some (.going (.stop .halt) asked)

theorem Undergoes.stopped_of_isHalt (h : n.Undergoes i n') (hi : n.IsHalt i) :
    n'.elector.status = .stopped := by
  obtain ⟨id, w, asked, rfl, here⟩ := hi
  rw [(h.course_elector_of_step here).2]
  rfl

/-- An elector is stopped exactly if a stop has halted it. -/
theorem stopped_iff_meets_halt (h : n.live? is = some (n', c)) (hn : n.elector.status ≠ .stopped) :
    n'.elector.status = .stopped ↔ n.Meets IsHalt is := by
  induction is using List.reverseRecOn generalizing n' c with
  | nil =>
    obtain ⟨rfl, -⟩ := of_live?_nil h
    exact iff_of_false hn id
  | append_singleton is i ih =>
    obtain ⟨n₁, c₁, hlive, hi, -⟩ := of_live?_concat h
    have hu := undergoes_of_undergo? hi
    rw [meets_concat hlive, ← ih hlive]
    refine ⟨fun hstopped => ?_, fun hbefore => ?_⟩
    · by_cases hs : n₁.elector.status = .stopped
      · exact .inl hs
      · exact .inr (hu.halting hs hstopped)
    · rcases hbefore with hs | hhalt
      · exact hu.precedes.stopped hs
      · exact hu.stopped_of_isHalt hhalt

/-- The gate of an elector is settled once a stop has ended. -/
theorem settled_of_ended {i : Identity} {owner : String} {port : Nat} {dir : Option String}
    (reached : (fresh (.fresh i owner port dir)).live? is = some (n, c)) {r : Except Error Unit}
    (ended : n.course id = some (.ended (.stopped r))) : n.elector.gate ≠ .pending := by
  induction is using List.reverseRecOn generalizing n c with
  | nil =>
    obtain ⟨rfl, -⟩ := of_live?_nil reached
    exact nomatch ended
  | append_singleton is i ih =>
    obtain ⟨n₁, c₁, hlive, hi, -⟩ := of_live?_concat reached
    have hu := undergoes_of_undergo? hi
    have hsettled : n₁.elector.gate ≠ .pending := by
      rcases hu.of_ended ended with hbefore | ⟨a, asked, here, ⟨hnext, -⟩ | ⟨x, hreply⟩⟩
      · exact ih hlive hbefore
      · -- otherwise another stop past the turnstile were about to close the gate
        obtain rfl := Activity.eq_leave_of_step hnext
        have hn := coherent_of_live? hlive
        intro hpending
        have hstopped : n₁.elector.status = .stopped := (hn.fits id _ asked here).halted rfl
        obtain ⟨id', s, there⟩ := hn.closing hstopped hpending
        obtain rfl := (custody_of_live? hlive).eq_of_isInside here rfl there rfl
        exact nomatch here.symm.trans there
      · exact absurd hreply Activity.reply_ne_stopped
    rw [show n.elector.gate = n₁.elector.gate from hu.precedes.gate hsettled]
    exact hsettled

/-- Behind an open gate an elector runs, or is stopped. -/
theorem Coherent.ran_of_released (hn : n.Coherent) (hgate : n.elector.gate = .released) :
    n.elector.status = .running ∨ n.elector.status = .stopped := by
  have hpending : ¬ (n.elector.status = .uninitialized ∨ n.elector.status = .standby) :=
    fun hwaiting => nomatch hgate.symm.trans (hn.consistent.waiting hwaiting)
  cases hs : n.elector.status with
  | uninitialized => exact absurd (.inl hs) hpending
  | standby => exact absurd (.inr hs) hpending
  | running => exact .inl rfl
  | stopped => exact .inr rfl

/-- A closed gate is that of a stopped elector. -/
theorem Coherent.stopped_of_closed (hn : n.Coherent) (hgate : n.elector.gate = .closed) :
    n.elector.status = .stopped := by
  cases hs : n.elector.status with
  | uninitialized => exact nomatch hgate.symm.trans (hn.consistent.waiting (.inl hs))
  | standby => exact nomatch hgate.symm.trans (hn.consistent.waiting (.inr hs))
  | running => exact absurd hgate (hn.consistent.running hs)
  | stopped => rfl

/-- Whoever attends to a callback has made no request. -/
theorem Custody.eq_false_of_attends (hn : n.Custody) (here : n.course id = some (.going a asked))
    (ha : a.attends = true) : asked = false := by
  cases asked with
  | false => rfl
  | true =>
    have hrequest := hn.pending id a here
    rw [(Activity.busy_of_attends ha).2] at hrequest
    exact nomatch hrequest

/-! ## Promotions that call back -/

/-- A promotion that is about to call back runs. -/
def Prompt (n : Node) : Prop :=
  ∀ id a route, n.course id = some (.going a false) → a.promotion? = some (route, .callBack) →
    n.elector.status = .running

/-- A promotion opens the gate while its elector runs, if nobody is between two steps: a stop that
is about to close the gate is not suspended. -/
theorem Prompt.undergoes (hn : n.Coherent) (h : n.Undergoes i n')
    (hrest : ∀ id, i.actor? ≠ some id → n.mayRest id = true) : n'.Prompt := by
  intro id b route here hb
  have hattends := Activity.attends_of_promotion hb
  generalize hasked : false = asked' at here
  cases h.origin here with
  | aside other before =>
    subst hasked
    have hbusy := (Activity.busy_of_attends (e := n.elector) hattends).1
    exact nomatch hbusy.symm.trans ((mayRest_of_going before).symm.trans (hrest id other))
  | @call entry => cases entry <;> exact nomatch hb
  | spawn => exact nomatch hb
  | ask before request => exact nomatch hasked
  | answer before request next =>
    exact absurd (Activity.deed?_of_promotion hb) (Activity.reply_ne_callBack request next)
  | @step w a _ asked before ready next =>
    rcases Activity.promotion?_of_step next hb with hp | ⟨p, ha, hp⟩
    · exact nomatch hp
    · obtain ⟨rfl, hgate⟩ := PromotionPoint.eq_openGate_of_step hp
      have hrunning : n.elector.status = .running := by
        have hran : n.elector.status = .running ∨ n.elector.status = .stopped :=
          (hn.fits id a asked before).promoting (Activity.stage_of_promotion ha)
        refine hran.resolve_right fun hstopped => ?_
        obtain ⟨id', s, there⟩ := hn.closing hstopped hgate
        have hother : Incident.actor? (.move (.step id w)) ≠ some id' := by
          intro heq
          obtain rfl : id = id' := Option.some.inj heq
          obtain ⟨rfl, -⟩ := Course.going.inj (Option.some.inj (before.symm.trans there))
          exact nomatch ha
        exact nomatch (mayRest_of_going there).symm.trans (hrest id' hother)
      have hface := h.face
      rw [deed?_of_step before, Activity.deed?_of_promotion ha] at hface
      exact (congrArg Face.status hface).trans hrunning

theorem prompt_of_live? {i : Identity} {owner : String} {port : Nat} {dir : Option String}
    (hcoop : (fresh (.fresh i owner port dir)).Cooperative is)
    (h : (fresh (.fresh i owner port dir)).live? is = some (n, c)) : n.Prompt :=
  (hcoop.keeps (P := fun m => m.Coherent ∧ m.Prompt)
    (fun hu hrest hm => ⟨hm.1.undergoes hu, .undergoes hm.1 hu hrest⟩) h
    ⟨coherent_fresh i owner port dir, nofun⟩).2

/-! ## Registrations that come late -/

theorem exists_notify_step {p : NotifyPoint} (here : n.course id = some (.going (.notify p) false))
    (hw : w ≠ id) (neww : n.course w = none) :
    ∃ n', n.undergo? (.move (.step id w)) = some n' ∧ n'.elector = (p.step n.elector).elector ∧
      n'.course w = none ∧ n'.course id =
        some (((Activity.notify p).step n.elector id).next.elim (.going · false) .ended) := by
  refine exists_step here rfl hw neww ?_
  obtain ⟨callback, he⟩ := p.step_elector n.elector
  rw [Activity.step, Turn.within_elector, he]

/-- Behind an open gate a registration calls back in its third step. -/
theorem exists_late_call (hgate : n.elector.gate = .released) (new : n.course id = none)
    (hw : w ≠ id) (neww : n.course w = none) (callback : String) :
    ∃ n' c, n.live? [.move (.call id (.notify callback)), .move (.step id w), .move (.step id w),
        .move (.step id w)] = some (n', c) ∧ c.fired = [callback] := by
  have hcall := move?_of_makes (.call (c := .notify callback) new)
  generalize hn₁ : n.setCourse id (.going (Entry.notify callback).activity false) = n₁ at hcall
  have here₁ : n₁.course id = some (.going (.notify (.register callback)) false) := by
    rw [← hn₁]
    exact Function.update_self ..
  have neww₁ : n₁.course w = none := by
    rw [← hn₁]
    exact (Function.update_of_ne hw ..).trans neww
  have hgate₁ : n₁.elector.gate = .released := by
    rw [← hn₁]
    exact hgate
  -- it writes the slot, finds the gate open, and takes the callback out
  obtain ⟨n₂, hmove₂, helector₂, neww₂, here₂⟩ := exists_notify_step here₁ hw neww₁
  have hgate₂ : n₂.elector.gate = .released := by
    rw [helector₂]
    exact hgate₁
  obtain ⟨n₃, hmove₃, helector₃, neww₃, here₃⟩ := exists_notify_step here₂ hw neww₂
  rw [Activity.attends_of_readGate hgate₂] at here₃
  have hslot₃ : n₃.elector.callback = some callback := by
    rw [helector₃, NotifyPoint.step, if_pos hgate₂]
    show n₂.elector.callback = some callback
    rw [helector₂]
    rfl
  obtain ⟨n₄, hmove₄, -, -, -⟩ := exists_notify_step here₃ hw neww₃
  have hfirst := (undergoes_of_undergo? hmove₂).fired
  rw [deed?_of_step here₁] at hfirst
  have hsecond := (undergoes_of_undergo? hmove₃).fired
  rw [deed?_of_step here₂] at hsecond
  have hthird := (undergoes_of_undergo? hmove₄).fired
  rw [deed?_of_step here₃] at hthird
  refine ⟨n₄, _, live?_cons hcall (live?_cons hmove₂ (live?_cons hmove₃ (live?_cons hmove₄ rfl))),
    ?_⟩
  rw [Chronicle.fired_append, Chronicle.fired_append, Chronicle.fired_append,
    Chronicle.fired_append, hfirst, hsecond, hthird]
  show (Deed.callBack.fires n₃.elector.face ++ [] : List String) = [callback]
  rw [Deed.fires_callBack, show n₃.elector.face.callback = some callback from hslot₃]
  rfl

/-! ## The status when a callback is called -/

/-- Whenever a callback is called, at the grain of single accesses, the gate is open, and the
elector runs or is stopped: it is stopped exactly if a stop has halted it before.  If nobody is
suspended between two steps, a promotion calls back while the elector runs, so that only a
registration calls back on a stopped one.  Once a stop has ended, the gate says what becomes of a
registration: behind an open gate it calls back in its third step on the stopped elector, and
behind a gate that is not open nothing is ever called. -/
theorem fired_running_iff {i : Identity} {owner : String} {port : Nat} {dir : Option String}
    (reached : (fresh (.fresh i owner port dir)).live? is = some (n, c)) :
    (∀ j n', n.undergo? j = some n' → (n.chronicle j).fired ≠ [] →
      n.elector.gate = .released ∧
      (n.elector.status = .running ↔ ¬ (fresh (.fresh i owner port dir)).Meets IsHalt is) ∧
      (n.elector.status = .stopped ↔ (fresh (.fresh i owner port dir)).Meets IsHalt is) ∧
      ((fresh (.fresh i owner port dir)).Cooperative is → n.elector.status = .stopped →
        ∃ id w asked, j = .move (.step id w) ∧
          n.course id = some (.going (.notify .callBack) asked))) ∧
    ∀ before r, n.course before = some (.ended (.stopped r)) →
      n.elector.status = .stopped ∧
      (n.elector.gate = .released → ∀ id w callback, n.course id = none → w ≠ id →
        n.course w = none → ∃ n' c',
          n.live? [.move (.call id (.notify callback)), .move (.step id w), .move (.step id w),
            .move (.step id w)] = some (n', c') ∧ c'.fired = [callback]) ∧
      (n.elector.gate ≠ .released → ∀ js n' c', n.live? js = some (n', c') → c'.fired = []) := by
  have hn := coherent_of_live? reached
  have hhalted := stopped_iff_meets_halt reached (by exact nofun)
  refine ⟨fun j n' hj hfired => ?_, fun before r hended => ?_⟩
  · have hu := undergoes_of_undergo? hj
    have hgate := hn.released_of_fired hu hfired
    have hran := hn.ran_of_released hgate
    refine ⟨hgate, ?_, hhalted, fun hcoop hstopped => ?_⟩
    · rw [← hhalted]
      rcases hran with hs | hs <;> rw [hs] <;> decide
    · obtain ⟨id, w, a, asked, rfl, here, ha⟩ := step_of_deed? (hu.deed?_of_fired hfired)
      rcases Activity.deed?_eq_callBack ha with ⟨route, hpromotion⟩ | rfl
      · have hrunning := prompt_of_live? hcoop reached id a route
          ((custody_of_live? reached).eq_false_of_attends here
            (Activity.attends_of_promotion hpromotion) ▸ here) hpromotion
        exact nomatch hrunning.symm.trans hstopped
      · exact ⟨id, w, asked, rfl, here⟩
  · refine ⟨hn.ended before r hended, fun hgate id w callback new hw neww =>
      exists_late_call hgate new hw neww callback, fun hgate js n' c' h => ?_⟩
    have hclosed : n.elector.gate = .closed := by
      have hsettled := settled_of_ended reached hended
      cases hg : n.elector.gate with
      | pending => exact absurd hg hsettled
      | released => exact absurd hg hgate
      | closed => rfl
    rw [Chronicle.fired_eq, (hn.live_of_closed hclosed h).2]
    rfl

/-- A start wins the lock, a stop comes and ends, and a callback is registered. -/
def lateCall : List Incident :=
  secondLife ++ List.map .move [.call 2 (.notify "late"), .step 2 9, .step 2 9]

/-- A start that was granted the lock is about to call back. -/
def promptCall : List Incident := hastyMoves ++ hastyEnd.dropLast

/-- A stop ends the waiting of a standby. -/
def closedMoves : List Incident := waitingMoves ++ waitingEnd

theorem late_fired_running_iff :
    ¬ blank.Meets IsHalt promptCall ∧ blank.Meets IsHalt lateCall ∧
    (∃ n' c', (blank.after secondLife).1.live? [.move (.call 2 (.notify "late")),
        .move (.step 2 9), .move (.step 2 9), .move (.step 2 9)] = some (n', c') ∧
      c'.fired = ["late"]) ∧
    ∀ js n' c', (blank.after closedMoves).1.live? js = some (n', c') → c'.fired = [] := by
  have hprompt : blank.live? promptCall = some (blank.after promptCall) := rfl
  have hlate : blank.live? lateCall = some (blank.after lateCall) := rfl
  have hended : blank.live? secondLife = some (blank.after secondLife) := rfl
  have hclosed : blank.live? closedMoves = some (blank.after closedMoves) := rfl
  obtain ⟨-, hrunning, -⟩ := (fired_running_iff hprompt).1 (.move (.step 0 9)) _ rfl nofun
  obtain ⟨-, -, hstopped, -⟩ := (fired_running_iff hlate).1 (.move (.step 2 9)) _ rfl nofun
  obtain ⟨-, hopen, -⟩ := (fired_running_iff hended).2 1 (.ok ()) rfl
  obtain ⟨-, -, hshut⟩ := (fired_running_iff hclosed).2 1 (.ok ()) rfl
  exact ⟨hrunning.mp rfl, hstopped.mp rfl, hopen rfl 2 9 "late" rfl (by decide) rfl,
    hshut nofun⟩

/-- A callback that is registered once a stop has ended is called on the stopped elector. -/
theorem fired_on_stopped :
    ¬ ∀ (is : List Incident) (n : Node) (c : Chronicle) (j : Incident) (n' : Node),
      blank.live? is = some (n, c) → blank.Cooperative (is ++ [j]) → n.undergo? j = some n' →
      (n.chronicle j).fired ≠ [] → n.elector.status = .running := by
  intro h
  have hlive : blank.live? lateCall = some (blank.after lateCall) := rfl
  have hcoop : blank.Cooperative (lateCall ++ [.move (.step 2 9)]) :=
    cooperative_of_isCooperative 10 (fun _ _ => rfl) rfl
  have hrunning := h lateCall _ _ (.move (.step 2 9)) _ hlive hcoop rfl nofun
  exact nomatch hrunning

end Node

end Primacy.Election
