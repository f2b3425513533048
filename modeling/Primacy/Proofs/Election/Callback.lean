/-
  Primacy.Proofs.Election.Callback

  No callback is lost, and none is called twice.  A registration writes the slot and then reads the
  gate; a promotion opens the gate and then empties the slot.  Whichever comes last finds the other
  one done, so that behind an open gate whatever is in the slot has somebody who is about to take it.
-/
import Primacy.Proofs.Election.Lifecycle

namespace Primacy.Election

/-! ## Where callbacks go -/

namespace Deed

/-- The callback that a deed registers. -/
def registers? : Deed → Option String
  | register callback => some callback
  | _ => none

theorem eq_register {d : Deed} {callback : String} (h : d.registers? = some callback) :
    d = .register callback := by
  cases d with
  | register callback' =>
    cases h
    rfl
  | _ => exact nomatch h

/-- The callbacks that a deed calls. -/
def fires (f : Face) (d : Deed) : List String := (d.announces f).filterMap Event.fired?

theorem fires_eq_nil {f : Face} {d : Deed} (hd : d ≠ .callBack) : d.fires f = [] := by
  cases d with
  | callBack => exact absurd rfl hd
  | openGate route =>
    rw [fires, announces]
    split
    · cases route <;> rfl
    · rfl
  | _ => rfl

theorem fires_callBack (f : Face) : callBack.fires f = f.callback.toList := by
  rw [fires, announces]
  cases f.callback <;> rfl

/-- What is registered is called, discarded, or left in the slot, and so is what was in the slot
before. -/
theorem account (f : Face) (d : Deed) :
    (d.fires f ++ (d.registers?.elim [] fun _ => f.callback.toList) ++
      (d.apply f).callback.toList).Perm (d.registers?.toList ++ f.callback.toList) := by
  by_cases hcall : d = .callBack
  · subst hcall
    rw [fires_callBack]
    show (f.callback.toList ++ [] ++ []).Perm ([] ++ f.callback.toList)
    rw [List.append_nil, List.append_nil, List.nil_append]
  · rw [fires_eq_nil hcall]
    cases hd : d.registers? with
    | some callback =>
      obtain rfl := eq_register hd
      show (f.callback.toList ++ [callback]).Perm ([callback] ++ f.callback.toList)
      exact List.perm_append_comm
    | none =>
      have hslot : (d.apply f).callback = f.callback :=
        callback_apply_of_ne (fun callback h => by rw [h] at hd; exact nomatch hd) hcall
      rw [hslot]
      exact .refl _

end Deed

/-- The callback that an activity registers is that of its deed. -/
theorem Activity.registers?_eq (a : Activity) : a.registers? = a.deed?.bind Deed.registers? := by
  cases a with
  | start p =>
    cases p with
    | promote blocking p => cases p <;> rfl
    | _ => rfl
  | stop p => cases p <;> rfl
  | await p => rfl
  | notify p => cases p <;> rfl
  | waiter p =>
    cases p with
    | promote p => cases p <;> rfl
    | _ => rfl

namespace Node

variable {n n' : Node} {i : Incident} {is : List Incident} {id : CallId} {a : Activity}
  {c : Chronicle}

theorem registers?_eq (n : Node) (i : Incident) :
    n.registers? i = (n.deed? i).bind Deed.registers? := by
  cases i with
  | move m =>
    cases m with
    | step id w =>
      rw [registers?, deed?, Option.bind_assoc]
      exact congrArg (Option.bind _) (funext Activity.registers?_eq)
    | _ => rfl
  | collapse id => rfl

/-- The callbacks that an incident calls are those of its deed. -/
theorem Undergoes.fired (h : n.Undergoes i n') :
    (n.chronicle i).fired = (n.deed? i).elim [] (·.fires n.elector.face) := by
  rw [Chronicle.fired_eq, h.announced]
  cases n.deed? i <;> rfl

/-- The books of callbacks, over one incident. -/
theorem Undergoes.account (h : n.Undergoes i n') :
    ((n.chronicle i).fired ++ (n.chronicle i).discarded ++ n'.elector.callback.toList).Perm
      ((n.chronicle i).registered ++ n.elector.callback.toList) := by
  have hslot : n'.elector.callback = (n.elector.face.after (n.deed? i)).callback := by
    rw [← h.face]
    rfl
  rw [h.fired, hslot]
  simp only [chronicle, registers?_eq]
  cases n.deed? i with
  | none => exact .refl _
  | some d => exact d.account n.elector.face

/-- The books of callbacks, over a run. -/
theorem live?_account (h : n.live? is = some (n', c)) :
    (c.fired ++ c.discarded ++ n'.elector.callback.toList).Perm
      (c.registered ++ n.elector.callback.toList) := by
  induction is generalizing n c with
  | nil =>
    obtain ⟨rfl, rfl⟩ := of_live?_nil h
    exact .refl _
  | cons i is ih =>
    obtain ⟨n₁, c₁, hi, hlive, rfl⟩ := of_live?_cons h
    have hfirst := (undergoes_of_undergo? hi).account
    have hrest := ih hlive
    rw [List.perm_iff_count] at hfirst hrest ⊢
    intro callback
    have hfirst := hfirst callback
    have hrest := hrest callback
    rw [Chronicle.fired_append]
    show List.count callback (_ ++ ((n.chronicle i).discarded ++ c₁.discarded) ++ _) =
      List.count callback ((n.chronicle i).registered ++ c₁.registered ++ _)
    simp only [List.count_append] at hfirst hrest ⊢
    omega

end Node

/-! ## Who takes a callback out -/

namespace Activity

variable {e : Elector} {me : CallId} {a : Activity} {callback : String} {route : Route}

/-- The activity is between the slot and the gate: a registration has written the slot, or a
promotion has opened the gate, and has yet to take the callback out. -/
def attends : Activity → Bool
  | notify .readGate => true
  | notify .callBack => true
  | start (.promote _ .callBack) => true
  | waiter (.promote .callBack) => true
  | _ => false

/-- It makes no request, and is not suspended. -/
theorem busy_of_attends (h : a.attends = true) :
    a.mayRest false = false ∧ a.request? e = none := by
  cases a with
  | start p =>
    cases p with
    | promote blocking p => cases p <;> first | exact ⟨rfl, rfl⟩ | exact nomatch h
    | _ => exact nomatch h
  | notify p => cases p <;> first | exact ⟨rfl, rfl⟩ | exact nomatch h
  | waiter p =>
    cases p with
    | promote p => cases p <;> first | exact ⟨rfl, rfl⟩ | exact nomatch h
    | _ => exact nomatch h
  | _ => exact nomatch h

/-- Behind an open gate it goes on to call back. -/
theorem deed?_of_attends (h : a.attends = true) :
    a.deed? = some .callBack ∨ a = notify .readGate := by
  cases a with
  | start p =>
    cases p with
    | promote blocking p => cases p <;> first | exact .inl rfl | exact nomatch h
    | _ => exact nomatch h
  | notify p => cases p <;> first | exact .inl rfl | exact .inr rfl | exact nomatch h
  | waiter p =>
    cases p with
    | promote p => cases p <;> first | exact .inl rfl | exact nomatch h
    | _ => exact nomatch h
  | _ => exact nomatch h

theorem attends_of_readGate (hgate : e.gate = .released) :
    ((notify .readGate).step e me).next = .inl (notify .callBack) := by
  rw [step, NotifyPoint.step, if_pos hgate]
  rfl

/-- Whoever registers a callback attends to it. -/
theorem attends_of_register (h : a.deed? = some (.register callback)) :
    (a.step e me).next = .inl (notify .readGate) := by
  cases a with
  | notify p => cases p <;> first | rfl | exact nomatch h
  | start p =>
    cases p with
    | promote blocking p => cases p <;> exact nomatch h
    | _ => exact nomatch h
  | stop p => cases p <;> exact nomatch h
  | await p => exact nomatch h
  | waiter p =>
    cases p with
    | promote p => cases p <;> exact nomatch h
    | _ => exact nomatch h

/-- A promotion that is about to call back attends to the callback. -/
theorem attends_of_promotion (h : a.promotion? = some (route, .callBack)) : a.attends = true := by
  cases a with
  | start s =>
    obtain ⟨blocking, rfl, -⟩ := promotion?_start h
    rfl
  | waiter s =>
    obtain ⟨rfl, -⟩ := promotion?_waiter h
    rfl
  | _ => exact nomatch h

/-- Only a promotion that is at the gate opens it. -/
theorem promotion?_of_openGate (h : a.deed? = some (.openGate route)) :
    a.promotion? = some (route, .openGate) := by
  cases a with
  | start p =>
    cases p with
    | promote blocking p =>
      cases p with
      | openGate =>
        cases h
        rfl
      | _ => exact nomatch h
    | _ => exact nomatch h
  | stop p => cases p <;> exact nomatch h
  | await p => exact nomatch h
  | notify p => cases p <;> exact nomatch h
  | waiter p =>
    cases p with
    | promote p =>
      cases p with
      | openGate =>
        cases h
        rfl
      | _ => exact nomatch h
    | _ => exact nomatch h

/-- A promotion that comes to a pending gate opens it, logs its marker and goes on to call back. -/
theorem step_of_openGate (me : CallId) (h : a.promotion? = some (route, .openGate))
    (hgate : e.gate = .pending) :
    ∃ b, a.step e me = .go { e with gate := .released } b [route.marker] ∧
      b.promotion? = some (route, .callBack) := by
  have hpoint : PromotionPoint.step route e .openGate =
      .go { e with gate := .released } .callBack [route.marker] := by
    simp only [PromotionPoint.step, show e.gate.release = (true, .released) by rw [hgate]; rfl]
    rfl
  cases a with
  | start s =>
    obtain ⟨blocking, rfl, rfl⟩ := promotion?_start h
    refine ⟨start (.promote blocking .callBack), ?_, rfl⟩
    rw [step, StartPoint.step, hpoint]
    rfl
  | waiter s =>
    obtain ⟨rfl, rfl⟩ := promotion?_waiter h
    refine ⟨waiter (.promote .callBack), ?_, rfl⟩
    rw [step, WaiterPoint.step, hpoint]
    rfl
  | _ => cases h

end Activity

namespace Node

variable {n n' : Node} {i : Incident} {is : List Incident} {id : CallId} {a : Activity}
  {c : Chronicle}

/-- An incident that opens the gate is a step of a promotion, which then goes on to call back. -/
theorem Undergoes.opening (h : n.Undergoes i n') (before : n.elector.gate ≠ .released)
    (after : n'.elector.gate = .released) :
    ∃ id w a asked b route, i = .move (.step id w) ∧ n.course id = some (.going a asked) ∧
      a.deed? = some (.openGate route) ∧ n.elector.gate = .pending ∧
      n'.course id = some (.going b false) ∧ b.promotion? = some (route, .callBack) := by
  have hface := congrArg Face.gate h.face
  cases hd : n.deed? i with
  | none =>
    rw [hd] at hface
    exact absurd (hface.symm.trans after) before
  | some d =>
    rw [hd] at hface
    have hafter : (d.apply n.elector.face).gate = .released := hface.symm.trans after
    obtain ⟨route, rfl⟩ := Deed.eq_openGate before hafter
    have hpending : n.elector.gate = .pending := by
      by_contra hsettled
      exact before ((Deed.gate_apply hsettled _).symm.trans hafter)
    obtain ⟨id, w, a, asked, rfl, here, ha⟩ := step_of_deed? hd
    obtain ⟨b, hstep, hb⟩ :=
      Activity.step_of_openGate id (Activity.promotion?_of_openGate ha) hpending
    have hcourse := (h.course_elector_of_step here).1
    rw [hstep] at hcourse
    exact ⟨id, w, a, asked, b, route, rfl, here, ha, hpending, hcourse, hb⟩

/-- Behind an open gate somebody attends to the callback in the slot. -/
def Attended (n : Node) : Prop :=
  n.elector.gate = .released → n.elector.callback ≠ none →
    ∃ id a, n.course id = some (.going a false) ∧ a.attends = true

theorem Attended.undergoes (hn : n.Attended) (h : n.Undergoes i n') : n'.Attended := by
  intro hgate hslot
  have hface := h.face
  by_cases hopen : n.elector.gate = .released ∧ n.elector.callback ≠ none
  · obtain ⟨id, a, here, hattends⟩ := hn hopen.1 hopen.2
    obtain ⟨hbusy, hrequest⟩ := Activity.busy_of_attends (e := n.elector) hattends
    rcases h.stays here hbusy hrequest with here' | ⟨w, rfl⟩
    · exact ⟨id, a, here', hattends⟩
    · rcases Activity.deed?_of_attends hattends with ha | rfl
      · -- the callback is taken out
        rw [deed?_of_step here, ha] at hface
        exact absurd (congrArg Face.callback hface) hslot
      · have hcourse := (h.course_elector_of_step here).1
        rw [Activity.attends_of_readGate hopen.1] at hcourse
        exact ⟨id, _, hcourse, rfl⟩
  · -- the incident opens the gate or fills the slot
    cases hd : n.deed? i with
    | none =>
      rw [hd] at hface
      refine absurd ⟨?_, ?_⟩ hopen
      · exact (congrArg Face.gate hface).symm.trans hgate
      · rw [show n'.elector.callback = n.elector.callback from congrArg Face.callback hface] at hslot
        exact hslot
    | some d =>
      by_cases hregister : ∃ callback, d = .register callback
      · obtain ⟨callback, rfl⟩ := hregister
        obtain ⟨id, w, a, asked, rfl, here, ha⟩ := step_of_deed? hd
        have hcourse := (h.course_elector_of_step here).1
        rw [Activity.attends_of_register ha] at hcourse
        exact ⟨id, _, hcourse, rfl⟩
      · rw [hd] at hface
        have hcall : d ≠ .callBack := by
          rintro rfl
          exact hslot (congrArg Face.callback hface)
        have hsame : n'.elector.callback = n.elector.callback :=
          (congrArg Face.callback hface).trans
            (Deed.callback_apply_of_ne (fun callback hr => hregister ⟨callback, hr⟩) hcall)
        have hshut : n.elector.gate ≠ .released := fun hreleased =>
          hopen ⟨hreleased, hsame ▸ hslot⟩
        obtain ⟨id, _, _, _, b, _, -, -, -, -, hcourse, hb⟩ := h.opening hshut hgate
        exact ⟨id, b, hcourse, Activity.attends_of_promotion hb⟩

theorem attended_of_live? {i : Identity} {owner : String} {port : Nat} {dir : Option String}
    (h : (fresh (.fresh i owner port dir)).live? is = some (n, c)) : n.Attended :=
  live?_keeps (fun hu hn => hn.undergoes hu) h nofun

/-- A callback is called by the deed that takes it out. -/
theorem Undergoes.deed?_of_fired (h : n.Undergoes i n') (hfired : (n.chronicle i).fired ≠ []) :
    n.deed? i = some .callBack := by
  rw [h.fired] at hfired
  cases hd : n.deed? i with
  | none =>
    rw [hd] at hfired
    exact absurd rfl hfired
  | some d =>
    rw [hd] at hfired
    by_contra hne
    exact hfired (Deed.fires_eq_nil fun hcall => hne (congrArg some hcall))

/-- A callback is called behind an open gate. -/
theorem Coherent.released_of_fired (hn : n.Coherent) (h : n.Undergoes i n')
    (hfired : (n.chronicle i).fired ≠ []) : n.elector.gate = .released := by
  obtain ⟨id, w, a, asked, -, here, ha⟩ := step_of_deed? (h.deed?_of_fired hfired)
  exact (hn.fits id a asked here).calling ha

/-- Before the gate is open no callback is called. -/
theorem Coherent.fired_of_live? (hn : n.Coherent) (h : n.live? is = some (n', c))
    (hgate : n'.elector.gate ≠ .released) : c.fired = [] := by
  induction is generalizing n c with
  | nil =>
    obtain ⟨-, rfl⟩ := of_live?_nil h
    rfl
  | cons i is ih =>
    obtain ⟨n₁, c₁, hi, hlive, rfl⟩ := of_live?_cons h
    have hu := undergoes_of_undergo? hi
    have hfirst : (n.chronicle i).fired = [] := by
      by_contra hfired
      exact hgate ((live?_precedes h).released (hn.released_of_fired hu hfired))
    rw [Chronicle.fired_append, hfirst, ih (hn.undergoes hu) hlive]
    rfl

/-! ## The books of callbacks -/

/-- Whatever calls race, at the grain of single accesses: the callbacks that were called, those that
a later registration discarded and the one in the slot are together the ones that were registered.
So none is called more often than it was registered.  Callbacks are called behind an open gate only,
and whenever nobody is between the slot and the gate, the slot behind an open gate is empty. -/
theorem callbacks_accounted {i : Identity} {owner : String} {port : Nat} {dir : Option String}
    (reached : (fresh (.fresh i owner port dir)).live? is = some (n, c)) :
    (c.fired ++ c.discarded ++ n.elector.callback.toList).Perm c.registered ∧
    c.fired.length + c.discarded.length + (if n.elector.callback.isSome then 1 else 0) =
      c.registered.length ∧
    (∀ callback, c.fired.count callback ≤ c.registered.count callback) ∧
    (c.registered.Nodup → c.fired.Nodup) ∧
    (∀ j n', n.undergo? j = some n' → (n.chronicle j).fired ≠ [] →
      n.elector.gate = .released) ∧
    (n.elector.gate ≠ .released → c.fired = []) ∧
    (n.elector.gate = .released →
      (∀ id a asked, n.course id = some (.going a asked) → a.attends = false) →
      n.elector.callback = none) := by
  have hperm : (c.fired ++ c.discarded ++ n.elector.callback.toList).Perm c.registered := by
    have haccount := live?_account reached
    rwa [show (fresh (.fresh i owner port dir)).elector.callback.toList = [] from rfl,
      List.append_nil] at haccount
  have hn := coherent_of_live? reached
  refine ⟨hperm, ?_, fun callback => ?_, fun hnodup => ?_, fun j n' hj hfired => ?_,
    (coherent_fresh i owner port dir).fired_of_live? reached, fun hgate hnobody => ?_⟩
  · rw [← hperm.length_eq, List.length_append, List.length_append]
    cases n.elector.callback <;> rfl
  · rw [← hperm.count_eq callback, List.count_append, List.count_append, Nat.add_assoc]
    exact Nat.le_add_right ..
  · have hall := hperm.nodup_iff.mpr hnodup
    rw [List.append_assoc] at hall
    exact hall.sublist (List.sublist_append_left ..)
  · exact hn.released_of_fired (undergoes_of_undergo? hj) hfired
  · by_contra hslot
    obtain ⟨id, a, here, hattends⟩ := attended_of_live? reached hgate hslot
    exact nomatch (hnobody id a false here).symm.trans hattends

/-- Two registrations race a promotion: the first is discarded by the second, which has yet to read
the gate when the promotion takes its callback out; a third one comes afterwards. -/
def racingMoves : List Incident :=
  List.map .move
    [.call 0 (.start "memory" false), .step 0 9, .step 0 9, .ask 0, .answer 0 (.ok true), .ask 0,
     .answer 0 (.ok true), .ask 0, .answer 0 (.ok true), .step 0 9, .ask 0, .answer 0 (.ok true),
     .step 0 9, .step 0 9, .ask 0, .answer 0 (.ok true), .ask 0, .answer 0 (.ok true),
     .call 1 (.notify "first"), .step 1 9, .step 0 9, .call 2 (.notify "second"), .step 2 9,
     .step 0 9, .step 1 9, .step 2 9, .step 2 9, .step 1 9, .call 3 (.notify "third"), .step 3 9,
     .step 3 9, .step 3 9]

theorem racing_callbacks_accounted :
    (blank.after racingMoves).2.registered = ["first", "second", "third"] ∧
    (blank.after racingMoves).2.fired = ["second", "third"] ∧
    (blank.after racingMoves).2.discarded = ["first"] ∧
    (blank.after racingMoves).2.fired.Nodup := by
  have hreached : blank.live? racingMoves = some (blank.after racingMoves) := rfl
  obtain ⟨-, -, -, hnodup, -⟩ := callbacks_accounted hreached
  exact ⟨rfl, rfl, rfl, hnodup (by decide)⟩

end Node

end Primacy.Election
