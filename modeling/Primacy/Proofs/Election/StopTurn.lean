/-
  Primacy.Proofs.Election.StopTurn

  What one turn does to an elector and to the lock, and a turn of a stop in particular.  A stop asks
  for nothing but to unlock, and has no ticket at the lock; when a lock was lost it unlocks in vain,
  and when a stop has ended before it passes the turnstile and does nothing else.
-/
import Primacy.Proofs.Election.Repetition

namespace Primacy.Election

/-! ## Requests that are not answered at once -/

namespace Activity

/-- The activity waits for a grant of the lock. -/
def asksLock : Activity → Bool
  | start .await => true
  | waiter .await => true
  | _ => false

theorem asksLock_iff (a : Activity) (e : Elector) :
    a.asksLock = true ↔ a.request? e = some .lock := by
  constructor
  · intro h
    cases a with
    | start p =>
      cases p with
      | await => rfl
      | _ => exact nomatch h
    | waiter p =>
      cases p with
      | await => rfl
      | _ => exact nomatch h
    | _ => exact nomatch h
  · intro h
    cases a with
    | start p =>
      cases p with
      | await => rfl
      | publish writes blocking => cases writes <;> exact nomatch h
      | promote blocking p => cases p <;> exact nomatch h
      | _ => exact nomatch h
    | waiter p =>
      obtain rfl := eq_await_of_lock h
      rfl
    | stop p => cases p <;> exact nomatch h
    | await p => exact nomatch h
    | notify p => exact nomatch h

/-- A stop asks for nothing but to unlock. -/
theorem eq_unlock_of_request {e : Elector} {p : StopPoint} {q : Request}
    (h : (stop p).request? e = some q) : p = .unlock ∧ q = .unlock := by
  cases p with
  | unlock => exact ⟨rfl, (Option.some.inj h).symm⟩
  | _ => exact nomatch h

end Activity

namespace Node

variable {n n' : Node} {m : Move} {id id' w : CallId} {a : Activity} {asked : Bool} {p : StopPoint}
  {x : Unit} {r : Reply} {s s' : Lock.Service.memory.State} {c : Course}

/-- Whoever waits for an answer waits for a grant of the lock, or for the registry. -/
def Patient (n : Node) : Prop :=
  ∀ id a, n.course id = some (.going a true) → a.asksLock = true ∨ a.isPut = true

/-- Whoever waits for an answer waited for it before, unless it makes its request right now. -/
theorem Makes.of_asked (h : n.Makes m n') (here : n'.course id = some (.going a true)) :
    m = .ask id ∨ m.actor? ≠ some id ∧ n.course id = some (.going a true) := by
  cases h with
  | @call id' c new =>
    rcases course_setCourse here with ⟨-, hc⟩ | ⟨-, here⟩
    · exact nomatch hc
    · exact .inr ⟨nofun, here⟩
  | @step id' w b asked there ready new =>
    rcases course_spawn here with ⟨-, -, -, hc⟩ | here
    · exact nomatch hc
    · rcases going_carryOut here with ⟨-, -, hasked⟩ | ⟨hne, here⟩
      · exact nomatch hasked
      · exact .inr ⟨fun h => hne (Option.some.inj h).symm, here⟩
  | @ask id' b q there request =>
    rcases course_setCourse here with ⟨rfl, -⟩ | ⟨hne, here⟩
    · exact .inl rfl
    · exact .inr ⟨fun h => hne (Option.some.inj h).symm, here⟩
  | @answer id' r b q there request =>
    rcases going_carryOut here with ⟨-, -, hasked⟩ | ⟨hne, here⟩
    · exact nomatch hasked
    · exact .inr ⟨fun h => hne (Option.some.inj h).symm, here⟩
  | breakOff there may =>
    rcases course_setCourse here with ⟨-, hc⟩ | ⟨-, here⟩
    · exact nomatch hc
    · exact .inr ⟨nofun, here⟩
  | discard => exact .inr ⟨nofun, here⟩

theorem Patient.makes (hn : n.Patient) (h : n.Makes m n') (hm : ∀ id, m ≠ .ask id) :
    n'.Patient := by
  intro id a here
  rcases h.of_asked here with rfl | ⟨-, hbefore⟩
  · exact absurd rfl (hm id)
  · exact hn id a hbefore

/-- Whoever waits in the end, having asked or not before, waits for a grant or for the
registry. -/
theorem Patient.asks (hn : n.Patient) {n₁ : Node} (here : n.course id = some (.going a asked))
    (asks : if asked then n₁ = n else n.Makes (.ask id) n₁)
    (ha : a.asksLock = true ∨ a.isPut = true) : n₁.Patient := by
  have hself := (asked_of_asks here asks).1
  cases asked with
  | true => exact asks ▸ hn
  | false =>
    have hmakes : n.Makes (.ask id) n₁ := asks
    intro id' b there
    rcases hmakes.of_asked there with hid | ⟨-, hbefore⟩
    · cases hid
      obtain ⟨rfl, -⟩ := Course.going.inj (Option.some.inj (hself.symm.trans there))
      exact ha
    · exact hn id' b hbefore

/-- On a lock in memory whoever comes to wait for an answer waits for a grant or for the
registry. -/
theorem Advances.patient (h : n.Advances .memory s id w x r n' s') (hn : n.Patient) :
    n'.Patient := by
  cases h with
  | step here made => exact hn.makes made nofun
  | @put a asked key value _ here request made =>
    have hput : a.isPut = true := (a.isPut_iff n.elector).mpr ⟨key, value, request⟩
    cases asked with
    | true => exact hn.makes made nofun
    | false =>
      have asks : if false then n' = n else n.Makes (.ask id) n' := made
      exact hn.asks here asks (.inr hput)
  | @wait a asked q c _ _ here request target asks look =>
    obtain ⟨owner, rfl⟩ := Lock.Memory.eq_lock_of_serve look
    have hlock : q = .lock := by
      cases q with
      | lock => rfl
      | _ => exact nomatch target
    subst hlock
    exact hn.asks here asks (.inl ((a.asksLock_iff n.elector).mpr request))
  | @answer a asked q c n₁ _ l _ here request target asks look made =>
    -- its request is answered in the same turn
    intro id' b there
    rcases made.of_asked there with hid | ⟨hne, hbefore⟩
    · exact nomatch hid
    · cases asked with
      | true =>
        obtain rfl : n₁ = n := asks
        exact hn id' b hbefore
      | false =>
        have hmakes : n.Makes (.ask id) n₁ := asks
        rcases hmakes.of_asked hbefore with hid | ⟨-, hfirst⟩
        · cases hid
          exact absurd rfl hne
        · exact hn id' b hfirst

/-! ## A stop and the lock -/

section

variable {L : Lock.Service} {s s' : L.State} {x : L.Surroundings}

/-- A turn of a stop leaves the lock to its holder, unless it is the elector's own owner; then it
may free the lock. -/
theorem Advances.holder_of_stop (h : n.Advances L s id w x r n' s')
    (here : n.course id = some (.going (.stop p) asked)) :
    L.holder s' = L.holder s ∨ L.holder s = some n.elector.owner ∧ L.holder s' = none := by
  -- the one call that it makes is to unlock in its own name
  have hlook : ∀ {a : Activity} {asked' : Bool} {q : Request} {c : Lock.Call}
      {o : Option (Except LockError Bool)}, n.course id = some (.going a asked') →
      a.request? n.elector = some q → q.target n.elector.owner = .inl c →
      L.look s x id c = (o, s') →
      L.holder s' = L.holder s ∨ L.holder s = some n.elector.owner ∧ L.holder s' = none := by
    intro a asked' q c o here' request target look
    obtain ⟨rfl, -⟩ := Course.going.inj (Option.some.inj (here.symm.trans here'))
    obtain ⟨-, rfl⟩ := Activity.eq_unlock_of_request request
    cases target
    have hholder := L.holder_look s x id (.unlock n.elector.owner)
    rw [look] at hholder
    rw [hholder]
    by_cases howner : L.holder s = some n.elector.owner
    · rw [howner]
      exact .inr ⟨rfl, if_pos ⟨rfl, rfl⟩⟩
    · exact .inl (Lock.Call.holderAfter_of_kept rfl (.inr howner))
  cases h with
  | step here' made => exact .inl (L.holder_withdraw ..)
  | put here' request made => exact .inl rfl
  | wait here' request target asks look => exact hlook here' request target look
  | answer here' request target asks look made => exact hlook here' request target look

/-- A node that was granted the lock once is not granted it again. -/
theorem Custody.not_isGranted (hn : n.Custody) (hgrants : n.grants ≠ 0) {q : Request} {r : Reply}
    (here : n.course id = some (.going a asked)) (request : a.request? n.elector = some q) :
    q.isGranted r = false := by
  -- the grant would go to an activity that waits, and nobody waits behind a grant
  by_contra hgranted
  have hp := Activity.reply_passage (r := r) request
  rw [Bool.not_eq_false] at hgranted
  rw [hgranted] at hp
  have hstage : n.ledger.stage id = .waiting := (stage_of_going here).trans hp.waiting_of_granted
  exact hgrants (hn.balanced.waiting id hstage)

/-- An elector that was granted the lock once and has lost it does not come to hold it again. -/
theorem Advances.not_holder (h : n.Advances L s id w x r n' s') (hn : n.Custody)
    (hgrants : n.grants ≠ 0) (hs : L.holder s ≠ some n.elector.owner) :
    L.holder s' ≠ some n.elector.owner := by
  have hlook : ∀ {a : Activity} {asked : Bool} {q : Request} {c : Lock.Call}
      {o : Option (Except LockError Bool)}, n.course id = some (.going a asked) →
      a.request? n.elector = some q → q.target n.elector.owner = .inl c →
      L.look s x id c = (o, s') → L.holder s' ≠ some n.elector.owner := by
    intro a asked q c o here request target look
    have hnone : c.granted? o = none := by
      cases o with
      | none => cases c <;> rfl
      | some l =>
        rw [Request.granted?_target target, hn.not_isGranted hgrants here request]
        rfl
    have hholder := L.holder_look s x id c
    rw [look] at hholder
    rw [hholder, Ne, Lock.Call.holderAfter_eq_some_iff hnone]
    exact fun h => hs h.1
  cases h with
  | step here made =>
    rw [L.holder_withdraw]
    exact hs
  | put here request made => exact hs
  | wait here request target asks look => exact hlook here request target look
  | answer here request target asks look made => exact hlook here request target look

end

theorem Makes.grants_le (h : n.Makes m n') : n.grants ≤ n'.grants := by
  cases h with
  | step here ready new =>
    unfold spawn
    split <;> exact Nat.le_refl _
  | answer here request => exact Nat.le_add_right ..
  | _ => exact Nat.le_refl _

/-- While somebody else holds the lock, an elector that is ousted stays so. -/
theorem Ousted.advances (hn : n.Ousted) (h : n.Advances .memory s id w x r n' s')
    (hs : Lock.Memory.holder s ≠ some n.elector.owner) : n'.Ousted := by
  have hstop : ∀ {a : Activity} {asked : Bool} {q : Request} {p : StopPoint},
      n.course id = some (.going a asked) → a.request? n.elector = some q →
      n.course id = some (.going (.stop p) true) → q = .unlock := by
    intro a asked q p here request there
    obtain ⟨rfl, -⟩ := Course.going.inj (Option.some.inj (here.symm.trans there))
    exact (Activity.eq_unlock_of_request request).2
  have hasks : ∀ {asked : Bool} {n₁ : Node}, (if asked then n₁ = n else n.Makes (.ask id) n₁) →
      n₁.Ousted := by
    intro asked n₁ asks
    cases asked with
    | true => exact asks ▸ hn
    | false => exact hn.makes asks nofun fun _ _ _ hm => nomatch hm
  cases h with
  | step here made => exact hn.makes made nofun fun _ _ _ hm => nomatch hm
  | @put a asked key value _ here request made =>
    cases asked with
    | false =>
      have asks : if false then n' = n else n.Makes (.ask id) n' := made
      exact hasks asks
    | true =>
      have hmakes : n.Makes (.answer id r) n' := made
      refine hn.makes hmakes nofun fun id' r' p hm there => ?_
      cases hm
      exact nomatch hstop here request there
  | wait here request target asks look => exact hasks asks
  | @answer a asked q c n₁ _ l _ here request target asks look made =>
    obtain ⟨here₁, helector⟩ := asked_of_asks here asks
    refine (hasks asks).makes made nofun fun id' r' p hm there => ?_
    cases hm
    -- the stop unlocks in vain
    obtain ⟨rfl, -⟩ := Course.going.inj (Option.some.inj (here₁.symm.trans there))
    obtain ⟨-, rfl⟩ := Activity.eq_unlock_of_request request
    cases target
    have hanswer := Lock.Memory.serve_unlock_of_ne (t := id) hs
    have hlook : Lock.Memory.serve s id (.unlock n.elector.owner) = (some l, s') := look
    rw [hanswer] at hlook
    cases hlook
    rw [helector]
    rfl

/-! ## A stop that comes too late -/

/-- Between `n` and `n'` nothing changed but how far the call `id` has got, and the turnstile. -/
structure Around (n : Node) (id : CallId) (n' : Node) : Prop where
  elector : n'.elector = { n.elector with init := n'.elector.init }
  requests : n'.requests = n.requests
  grants : n'.grants = n.grants
  course : ∀ id', id' ≠ id → n'.course id' = n.course id'

theorem Around.refl (n : Node) (id : CallId) : n.Around id n := ⟨rfl, rfl, rfl, fun _ _ => rfl⟩

/-- A turn of a stop with nothing to report changes nothing else about an elector that is shut. -/
theorem Advances.around {L : Lock.Service} {s s' : L.State} {x : L.Surroundings}
    (h : n.Advances L s id w x r n' s') (here : n.course id = some (.going (.stop p) asked))
    (hcalm : p.isCalm = true) (hshut : n.elector.IsShut) :
    n.Around id n' ∧ s' = L.withdraw s id := by
  have hunasked : ∀ {a : Activity} {asked' : Bool} {q : Request},
      n.course id = some (.going a asked') → a.request? n.elector ≠ some q := by
    intro a asked' q there request
    obtain ⟨rfl, -⟩ := Course.going.inj (Option.some.inj (here.symm.trans there))
    obtain ⟨rfl, -⟩ := Activity.eq_unlock_of_request request
    exact nomatch hcalm
  cases h with
  | step there made =>
    obtain rfl := made.of_stop_step here
    refine ⟨⟨?_, rfl, rfl, fun id' hne => Function.update_of_ne hne ..⟩, rfl⟩
    exact p.step_of_isShut hshut hcalm id
  | put there request made => exact absurd request (hunasked there)
  | wait there request target asks look => exact absurd request (hunasked there)
  | answer there request target asks look made => exact absurd request (hunasked there)

/-- The node with the stop `id` at the point `p`, and the turnstile as in `t`. -/
def atStop (n : Node) (id : CallId) (p : StopPoint) (t : Turnstile) : Node :=
  { n.setCourse id (.going (.stop p) false) with elector := { n.elector with init := t } }

theorem setCourse_atStop (n : Node) (id : CallId) (p p' : StopPoint) (t t' : Turnstile) :
    { (n.atStop id p t).setCourse id (.going (.stop p') false) with
      elector := { n.elector with init := t' } } = n.atStop id p' t' := by
  simp only [atStop, setCourse, Function.update_idem]

/-- A stop that was alone at the turnstile leaves it free. -/
theorem carryOut_atStop_leave (hfree : n.elector.init = .free) (id : CallId) (r : StopResult) :
    (n.atStop id (.leave r) ⟨some id, []⟩).carryOut id
      ((Activity.stop (.leave r)).step { n.elector with init := ⟨some id, []⟩ } id) =
      n.setCourse id (.ended (.stopped r)) := by
  have helector : ({ n.elector with init := .free } : Elector) = n.elector := by rw [← hfree]
  show ({ (n.atStop id (.leave r) ⟨some id, []⟩).setCourse id (.ended (.stopped r)) with
    elector := { n.elector with init := .free } } : Node) = _
  rw [helector]
  simp only [atStop, setCourse, Function.update_idem]

/-- A stop that is ready can take its turn. -/
theorem advance?_of_stop {L : Lock.Service} {s : L.State} {x : L.Surroundings}
    (here : n.course id = some (.going (.stop p) asked))
    (ready : p.isReady n.elector id = true) (new : n.course w = none) :
    n.advance? L s id w x r =
      some (n.carryOut id ((Activity.stop p).step n.elector id), L.withdraw s id) := by
  have hready : (Activity.stop p).isReady n.elector id = true := ready
  have hmakes := Makes.step here hready new
  have hmove := move?_of_makes hmakes
  rw [hmakes.of_stop_step here] at hmove
  unfold advance?
  rw [here]
  dsimp only
  rw [if_pos hready, hmove]
  rfl

/-! ## Calls that are not stops -/

theorem Reachable.owner {e : Elector} (h : Reachable e n) : n.elector.owner = e.owner := by
  induction h with
  | fresh => rfl
  | move before made ih => exact (makes_of_move? made).owner.trans ih

/-- A call that is not a stop does not become one. -/
theorem Fate.isStop {i : Incident} {y : Course} (h : n.Fate id i c y) (hc : c.isStop = false) :
    y.isStop = false := by
  cases h with
  | aside => exact hc
  | @step w a asked ready =>
    rw [Course.apply_elim Course.isStop]
    cases a with
    | stop p => exact nomatch hc
    | start p => exact Turn.elim_within_const (fun _ => rfl) fun _ => rfl
    | await p => exact Turn.elim_within_const (fun _ => rfl) fun _ => rfl
    | notify p => exact Turn.elim_within_const (fun _ => rfl) fun _ => rfl
    | waiter p => exact Turn.elim_within_const (fun _ => rfl) fun _ => rfl
  | @ask a q request => cases a <;> exact hc
  | @answer a q r request =>
    rw [Course.apply_elim Course.isStop]
    cases a with
    | stop p => exact nomatch hc
    | start p => exact Turn.elim_within_const (fun _ => rfl) fun _ => rfl
    | waiter p => exact Turn.elim_within_const (fun _ => rfl) fun _ => rfl
    | await p => exact nomatch request
    | notify p => exact nomatch request
  | breakOff may => rfl
  | collapse => rfl

/-- The name is that of a call, or of a waiter, and not that of a stop. -/
def NamesOther (n : Node) (id : CallId) : Prop := ∃ c, n.course id = some c ∧ c.isStop = false

theorem NamesOther.makes (hn : n.NamesOther id) (h : n.Makes m n') : n'.NamesOther id := by
  obtain ⟨c, hc, hstop⟩ := hn
  obtain ⟨y, hy, hfate⟩ := Undergoes.fate (i := .move m) (.move h) hc
  exact ⟨y, hy, hfate.isStop hstop⟩

/-- A turn adds no ticket to a lock in memory but one of a call that is not a stop. -/
theorem Advances.of_mem_waiting (h : n.Advances .memory s id w x r n' s') {t : Lock.Ticket}
    (ht : t ∈ Lock.Memory.waiting s') : t ∈ Lock.Memory.waiting s ∨ n.NamesOther t := by
  have hlook : ∀ {a : Activity} {asked : Bool} {q : Request} {k : Lock.Call}
      {o : Option (Except LockError Bool)}, n.course id = some (.going a asked) →
      a.request? n.elector = some q → q.target n.elector.owner = .inl k →
      Lock.Memory.serve s id k = (o, s') → t ∈ Lock.Memory.waiting s ∨ n.NamesOther t := by
    intro a asked q k o here request target look
    have hmem : t ∈ (Lock.Memory.serve s id k).2.waiting := by
      rw [look]
      exact ht
    refine (Lock.Memory.mem_waiting_of_serve hmem).imp_right ?_
    rintro ⟨rfl, owner, rfl⟩
    -- it asks for a grant, which no stop does
    refine ⟨_, here, ?_⟩
    cases a with
    | stop p =>
      obtain ⟨-, rfl⟩ := Activity.eq_unlock_of_request request
      exact nomatch target
    | _ => rfl
  cases h with
  | step here made => exact .inl (List.mem_filter.mp ht).1
  | put here request made => exact .inl ht
  | wait here request target asks look => exact hlook here request target look
  | answer here request target asks look made => exact hlook here request target look

end Node

end Primacy.Election
