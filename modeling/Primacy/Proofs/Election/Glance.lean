/-
  Primacy.Proofs.Election.Glance

  Calls that wait for an elector to become primary, and find it running.  Such a call returns at
  once and does not look at the gate, so it may return while the promotion is at its writes, or
  after one that never opened the gate.  A call that was woken returns behind an open gate, and the
  gate opens when the writes are over.
-/
import Primacy.Proofs.Election.Awakening
import Primacy.Proofs.Election.Candidacy

namespace Primacy.Election

/-- A passage that makes the elector run begins a promotion. -/
theorem Passage.promoting_of_running {e e' : Elector} {answered granted : Bool} {s s' : Stage}
    (h : Passage e e' answered granted s s') (before : e.status ≠ .running)
    (after : e'.status = .running) : s' = .promoting := by
  cases h with
  | run => rfl
  | standBy _ status => exact nomatch after.symm.trans status
  | halt status => exact nomatch after.symm.trans status
  | stay _ status => exact absurd (status.symm.trans after) before
  | retire _ status => exact absurd (status.symm.trans after) before
  | link _ status => exact absurd (status.symm.trans after) before
  | connect status => exact absurd (status.symm.trans after) before
  | grant status => exact absurd (status.symm.trans after) before

/-! ## Promotions up to the gate -/

namespace PromotionPoint

variable {route : Route} {e : Elector} {p p' : PromotionPoint} {r : Reply}

/-- The promotion made the elector run, and has yet to open the gate. -/
def isEarly : PromotionPoint → Bool
  | run => false
  | callBack => false
  | _ => true

theorem isEarly_iff : p.isEarly = true ↔ p.stage = .promoting ∧ p ≠ .callBack := by
  cases p <;> decide

/-- Up to the gate a promotion goes on, unless a stop ends it. -/
theorem step_of_isEarly (route : Route) (e : Elector) (hp : p.isEarly = true) :
    (p.step route e).next = .inr .superseded ∨
      ∃ p', (p.step route e).next = .inl p' ∧ p'.stage = .promoting := by
  cases hnext : (p.step route e).next with
  | inr x =>
    cases ends_of_step hnext with
    | refused => exact nomatch hp
    | requested => exact .inl rfl
    | settled => exact .inl rfl
    | promoted => exact nomatch hp
  | inl p' =>
    refine .inr ⟨p', rfl, ?_⟩
    cases p with
    | checkShutdown =>
      simp only [step] at hnext
      split at hnext
      · cases hnext
      · cases hnext
        rfl
    | openGate =>
      simp only [step] at hnext
      split at hnext
      · cases hnext
        rfl
      · cases hnext
    | run => exact nomatch hp
    | callBack => exact nomatch hp
    | _ =>
      cases hnext
      rfl

theorem reply_of_isEarly (e : Elector) (r : Reply) (hp : p.isEarly = true) :
    ∃ p', (p.reply e r).next = .inl p' ∧ p'.stage = .promoting := by
  cases p with
  | run => exact nomatch hp
  | callBack => exact nomatch hp
  | putHost => cases r <;> exact ⟨_, rfl, rfl⟩
  | putPort => cases r <;> exact ⟨_, rfl, rfl⟩
  | _ => exact ⟨_, rfl, rfl⟩

/-- No step of a promotion takes it from one write to the next, or from the writes to the gate. -/
theorem eq_of_step (h : (p.step route e).next = .inl p') (hp : p' = .putPort ∨ p' = .openGate) :
    p' = p := by
  cases p with
  | run | checkShutdown | openGate =>
    simp only [step] at h
    split at h <;> cases h
    rcases hp with hp | hp <;> cases hp
  | callBack => cases h
  | _ =>
    cases h
    rfl

theorem eq_openGate {route' : Route} (h : p.deed? route = some (.openGate route')) :
    p = .openGate := by
  cases p <;> first | rfl | exact nomatch h

/-- What an answer makes of the writes: the second follows the first unless that fails, and the gate
follows both. -/
inductive Answers (r : Reply) : PromotionPoint → PromotionPoint → Prop where
  | stay {p : PromotionPoint} : Answers r p p
  | host {b : Bool} (ok : r = .ok b) : Answers r .putHost .putPort
  | failed {err : Error} (error : r = .error err) : Answers r .putHost .openGate
  | port : Answers r .putPort .openGate

theorem answers_of_reply (h : (p.reply e r).next = .inl p') : Answers r p p' := by
  cases p with
  | putHost =>
    cases r <;> cases h
    · exact .failed rfl
    · exact .host rfl
  | putPort =>
    cases r <;> cases h <;> exact .port
  | _ =>
    cases h
    exact .stay

/-- A promotion waits for nothing but its two writes. -/
theorem eq_put_of_request (h : (p.request? e).isSome = true) : p = .putHost ∨ p = .putPort := by
  cases p with
  | putHost => exact .inl rfl
  | putPort => exact .inr rfl
  | _ => exact nomatch h

end PromotionPoint

namespace Activity

variable {e : Elector} {a : Activity} {r : Reply}

/-- Only a call that waits for the gate is woken. -/
theorem eq_gate_of_step {me : CallId} (h : (a.step e me).next = .inl (.await .readStatus)) :
    a = .await .gate := by
  cases a with
  | await p =>
    cases p with
    | gate => rfl
    | check => cases hs : e.status <;> simp only [step, AwaitPoint.step, hs] at h <;> cases h
    | readStatus => cases h
  | start p => rcases Turn.of_within h with ⟨_, -, heq⟩ | ⟨_, -, heq⟩ <;> cases heq
  | stop p => rcases Turn.of_within h with ⟨_, -, heq⟩ | ⟨_, -, heq⟩ <;> cases heq
  | notify p => rcases Turn.of_within h with ⟨_, -, heq⟩ | ⟨_, -, heq⟩ <;> cases heq
  | waiter p => rcases Turn.of_within h with ⟨_, -, heq⟩ | ⟨_, -, heq⟩ <;> cases heq

theorem reply_ne_await {p : AwaitPoint} {q : Request} (hq : a.request? e = some q) :
    (a.reply e r).next ≠ .inl (.await p) := by
  intro h
  cases a with
  | start p => rcases Turn.of_within h with ⟨_, -, heq⟩ | ⟨_, -, heq⟩ <;> exact nomatch heq
  | stop p => rcases Turn.of_within h with ⟨_, -, heq⟩ | ⟨_, -, heq⟩ <;> exact nomatch heq
  | waiter p => rcases Turn.of_within h with ⟨_, -, heq⟩ | ⟨_, -, heq⟩ <;> exact nomatch heq
  | await p => exact nomatch hq
  | notify p => exact nomatch hq

end Activity

namespace Node

variable {n n' : Node} {i : Incident} {is : List Incident} {id id' : CallId} {a : Activity}
  {asked : Bool} {c : Chronicle} {route : Route} {x : PromotionPoint} {ident : Identity}
  {owner : String} {port : Nat} {dir : Option String}

/-! ## Promotions that never open the gate -/

/-- A promotion ends because of a stop, is dropped, or breaks down under its writes. -/
def GivesUp (n : Node) (i : Incident) : Prop :=
  ∃ id a asked route x, n.course id = some (.going a asked) ∧ a.promotion? = some (route, x) ∧
    ((∃ w, i = .move (.step id w) ∧ (x.step route n.elector).next = .inr .superseded) ∨
      i = .move (.breakOff id) ∨ i = .collapse id)

/-- The elector has run, and nobody is there to open the gate. -/
structure Barred (n : Node) : Prop where
  ran : n.elector.status = .running ∨ n.elector.status = .stopped
  gate : n.elector.gate ≠ .released
  idle : ∀ id, n.ledger.stage id ≠ .promoting

theorem Barred.undergoes (hn : n.Barred) (h : n.Undergoes i n') : n'.Barred where
  ran := h.precedes.running_or_stopped hn.ran
  gate := by
    intro hopen
    obtain ⟨id, w, a, asked, b, route, -, here, ha, -⟩ := h.opening hn.gate hopen
    exact hn.idle id ((stage_of_going here).trans (Activity.stage_of_openGate ha))
  idle id hid := by
    rcases h.promoting_before hid with hbefore | ⟨-, hcan⟩
    · exact hn.idle id hbefore
    · rcases hn.ran with hs | hs <;> rw [hs] at hcan <;> exact nomatch hcan

/-- Whoever is dropped or breaks down in a promotion waits for one of its writes. -/
theorem Custody.put_of_going (hn : n.Custody) (here : n.course id = some (.going a true))
    (ha : a.promotion? = some (route, x)) : x = .putHost ∨ x = .putPort := by
  have hrequest := hn.pending id a here
  rw [Activity.request?_of_promotion ha] at hrequest
  exact PromotionPoint.eq_put_of_request hrequest

/-- What gives up has yet to open the gate. -/
theorem GivesUp.exists_early (hi : n.GivesUp i) (hn : n.Custody) (h : n.Undergoes i n') :
    ∃ id a asked route x, n.course id = some (.going a asked) ∧
      a.promotion? = some (route, x) ∧ x.isEarly = true ∧ n'.ledger.stage id ≠ .promoting ∧
      ∀ w route', i = .move (.step id w) → a.deed? = some (.openGate route') →
        n.elector.gate ≠ .pending := by
  obtain ⟨id, a, asked, route, x, here, ha, hends⟩ := hi
  have hdropped : asked = true → x.isEarly = true := by
    rintro rfl
    rcases hn.put_of_going here ha with rfl | rfl <;> rfl
  refine ⟨id, a, asked, route, x, here, ha, ?_⟩
  rcases hends with ⟨w, rfl, hx⟩ | rfl | rfl
  · have hsuperseded := PromotionPoint.ends_of_step hx
    refine ⟨?_, ?_, fun _ _ _ hdeed => ?_⟩
    · cases hsuperseded <;> rfl
    · -- the activity goes on without the promotion
      intro hstage
      obtain ⟨b, asked', there⟩ := going_of_stage (by rw [hstage]; exact nofun)
      have hcourse := (h.course_elector_of_step here).1
      cases hnext : (a.step n.elector id).next with
      | inr r =>
        rw [hnext] at hcourse
        exact nomatch there.symm.trans hcourse
      | inl b' =>
        rw [hnext] at hcourse
        obtain ⟨rfl, -⟩ := Course.going.inj (Option.some.inj (there.symm.trans hcourse))
        obtain ⟨route', x', hb, hrun⟩ :=
          Activity.exists_promotion ((stage_of_going there).symm.trans hstage)
        obtain ⟨p', ha', hp'⟩ := (Activity.promotion?_of_step hnext hb).resolve_left hrun
        cases ha.symm.trans ha'
        exact nomatch hx.symm.trans hp'
    · rw [Activity.deed?_of_promotion ha] at hdeed
      cases hsuperseded with
      | requested => exact nomatch hdeed
      | settled hgate => exact hgate
  · cases h with
    | move made =>
      cases made with
      | breakOff here' may =>
        obtain ⟨rfl, rfl⟩ := Course.going.inj (Option.some.inj (here.symm.trans here'))
        have hasked := Activity.mayRest_of_mayBreakOff may
        rw [Activity.mayRest_of_promotion ha] at hasked
        refine ⟨hdropped hasked, ?_, nofun⟩
        rw [ledger_breakOff, Ledger.move_stage_self]
        exact nofun
  · cases h with
    | collapse here' =>
      obtain ⟨rfl, hasked⟩ := Course.going.inj (Option.some.inj (here.symm.trans here'))
      refine ⟨hdropped hasked, ?_, nofun⟩
      rw [ledger_breakOff, Ledger.move_stage_self]
      exact nofun

/-- Nobody opens the gate in place of a promotion that gives up. -/
theorem barred_of_givesUp
    (reached : (fresh (.fresh ident owner port dir)).live? is = some (n, c))
    (h : n.Undergoes i n') (hi : n.GivesUp i) : n'.Barred := by
  have hn := coherent_of_live? reached
  obtain ⟨id, a, asked, route, x, here, ha, hearly, hleft, hsettled⟩ :=
    hi.exists_early (custody_of_live? reached) h
  obtain ⟨hx, hcall⟩ := PromotionPoint.isEarly_iff.mp hearly
  have hstage : a.stage = .promoting := (Activity.stage_of_promotion ha).trans hx
  have hran : n.elector.status = .running ∨ n.elector.status = .stopped :=
    (hn.fits id a asked here).promoting hstage
  have hshut : n.elector.gate ≠ .released := by
    intro hgate
    have hdeed := deed?_of_promoting reached hgate here hstage
    rw [Activity.deed?_of_promotion ha] at hdeed
    exact hcall (PromotionPoint.deed?_eq_callBack hdeed)
  have hpromoting : n.ledger.stage id = .promoting := (stage_of_going here).trans hstage
  refine ⟨h.precedes.running_or_stopped hran, fun hopen => ?_, fun id' hid' => ?_⟩
  · obtain ⟨id', w, a', asked', b, route', rfl, here', hdeed, hpending, -⟩ := h.opening hshut hopen
    have hpromoting' : n.ledger.stage id' = .promoting :=
      (stage_of_going here').trans (Activity.stage_of_openGate hdeed)
    obtain rfl := eq_of_promoting reached hpromoting hpromoting'
    obtain ⟨rfl, -⟩ := Course.going.inj (Option.some.inj (here.symm.trans here'))
    exact hsettled w route' rfl hdeed hpending
  · rcases h.promoting_before hid' with hbefore | ⟨-, hcan⟩
    · obtain rfl := eq_of_promoting reached hpromoting hbefore
      exact hleft hid'
    · rcases hran with hs | hs <;> rw [hs] at hcan <;> exact nomatch hcan

theorem barred_of_meets
    (reached : (fresh (.fresh ident owner port dir)).live? is = some (n, c))
    (hmeets : (fresh (.fresh ident owner port dir)).Meets GivesUp is) : n.Barred := by
  induction is using List.reverseRecOn generalizing n c with
  | nil => exact hmeets.elim
  | append_singleton is i ih =>
    obtain ⟨n₁, c₁, hlive, hi, -⟩ := of_live?_concat reached
    have hu := undergoes_of_undergo? hi
    rcases (meets_concat hlive).mp hmeets with hbefore | hnow
    · exact (ih hlive hbefore).undergoes hu
    · exact barred_of_givesUp hlive hu hnow

/-! ## Electors that run -/

/-- An incident that makes the elector run begins a promotion. -/
theorem Undergoes.promotes (h : n.Undergoes i n') (before : n.elector.status ≠ .running)
    (after : n'.elector.status = .running) : ∃ id, n'.ledger.stage id = .promoting := by
  cases h with
  | move made =>
    cases made with
    | call new => exact absurd after before
    | @step id w a asked here ready new =>
      rw [spawn_elector] at after
      refine ⟨id, ?_⟩
      have hpassage := (Activity.step_passage ready).promoting_of_running before after
      have hcourse := course_step (t := a.step n.elector id) n.elector here new
      cases hnext : (a.step n.elector id).next with
      | inl b =>
        rw [hnext] at hcourse hpassage
        exact (stage_of_going hcourse).trans hpassage
      | inr r =>
        rw [hnext] at hpassage
        exact nomatch hpassage
    | ask here request => exact absurd after before
    | @answer id r a q here request =>
      have hsame := congrArg Face.status (a.reply_face n.elector r)
      exact absurd (hsame.symm.trans after) before
    | @breakOff id a asked here may =>
      have hsame := (a.abandon_status_started n.elector id).1
      exact absurd (hsame.symm.trans after) before
    | discard => exact absurd after before
  | collapse here => exact absurd after before

/-- A promotion goes on, it has opened the gate, or it gives up. -/
theorem Undergoes.promoting_after (h : n.Undergoes i n') (hn : n.Coherent)
    (hid : n.ledger.stage id = .promoting) :
    n.elector.gate = .released ∨ n'.ledger.stage id = .promoting ∨ n.GivesUp i := by
  obtain ⟨a, asked, here⟩ := going_of_stage (by rw [hid]; exact nofun)
  have hstage : a.stage = .promoting := (stage_of_going here).symm.trans hid
  obtain ⟨route, x, ha, hrun⟩ := Activity.exists_promotion hstage
  by_cases hcall : x = .callBack
  · subst hcall
    exact .inl ((hn.fits id a asked here).calling (Activity.deed?_of_promotion ha))
  have hearly : x.isEarly = true :=
    PromotionPoint.isEarly_iff.mpr ⟨(Activity.stage_of_promotion ha).symm.trans hstage, hcall⟩
  refine .inr ?_
  obtain ⟨y, hy, hfate⟩ := h.fate here
  cases hfate with
  | aside => exact .inl ((stage_of_going hy).trans hstage)
  | @step w a asked ready =>
    rcases x.step_of_isEarly route n.elector hearly with hends | ⟨x', hgoes, hx'⟩
    · exact .inr ⟨id, a, asked, route, x, here, ha, .inl ⟨w, rfl, hends⟩⟩
    · obtain ⟨b, hnext, hb⟩ := Activity.step_of_promotion id ha hgoes
      rw [hnext] at hy
      exact .inl ((stage_of_going hy).trans ((Activity.stage_of_promotion hb).trans hx'))
  | ask request => exact .inl ((stage_of_going hy).trans hstage)
  | @answer _ q r request =>
    obtain ⟨x', hgoes, hx'⟩ := x.reply_of_isEarly n.elector r hearly
    obtain ⟨b, hnext, hb⟩ := Activity.reply_of_promotion ha hgoes
    rw [hnext] at hy
    exact .inl ((stage_of_going hy).trans ((Activity.stage_of_promotion hb).trans hx'))
  | @breakOff a asked may => exact .inr ⟨id, a, asked, route, x, here, ha, .inr (.inl rfl)⟩
  | collapse => exact .inr ⟨id, _, true, route, x, here, ha, .inr (.inr rfl)⟩

/-- While an elector runs its gate is open, or its promotion is under way, or it has given up. -/
theorem released_or_promoting
    (reached : (fresh (.fresh ident owner port dir)).live? is = some (n, c))
    (hrunning : n.elector.status = .running) :
    n.elector.gate = .released ∨ (∃ id, n.ledger.stage id = .promoting) ∨
      (fresh (.fresh ident owner port dir)).Meets GivesUp is := by
  induction is using List.reverseRecOn generalizing n c with
  | nil =>
    obtain ⟨rfl, -⟩ := of_live?_nil reached
    exact nomatch hrunning
  | append_singleton is i ih =>
    obtain ⟨n₁, c₁, hlive, hi, -⟩ := of_live?_concat reached
    have hu := undergoes_of_undergo? hi
    rw [meets_concat hlive]
    by_cases hbefore : n₁.elector.status = .running
    · rcases ih hlive hbefore with hgate | ⟨id, hid⟩ | hmeets
      · exact .inl (hu.precedes.released hgate)
      · rcases hu.promoting_after (coherent_of_live? hlive) hid with hgate | hstays | hgives
        · exact .inl (hu.precedes.released hgate)
        · exact .inr (.inl ⟨id, hstays⟩)
        · exact .inr (.inr (.inr hgives))
      · exact .inr (.inr (.inl hmeets))
    · exact .inr (.inl (hu.promotes hbefore hrunning))

/-! ## Writes of the record -/

/-- A write of the record by the promotion that `id` is busy with is answered. -/
def Writes (id : CallId) (x : PromotionPoint) (r : Reply) (n : Node) (i : Incident) : Prop :=
  i = .move (.answer id r) ∧
    ∃ a route, n.course id = some (.going a true) ∧ a.promotion? = some (route, x)

/-- In the run `id` has written both parts of the record, as far as the registry lets it: the second
write may have failed, or the first one, and then there is no second. -/
def HasRecorded (n₀ : Node) (is : List Incident) (id : CallId) : Prop :=
  ((∃ b, n₀.Meets (Writes id .putHost (.ok b)) is) ∧ ∃ r, n₀.Meets (Writes id .putPort r) is) ∨
    ∃ err, n₀.Meets (Writes id .putHost (.error err)) is

theorem HasRecorded.append {n₀ : Node} (h : n₀.HasRecorded is id) (js : List Incident) :
    n₀.HasRecorded (is ++ js) id := by
  rcases h with ⟨⟨b, hhost⟩, r, hport⟩ | ⟨err, hhost⟩
  · exact .inl ⟨⟨b, hhost.append js⟩, r, hport.append js⟩
  · exact .inr ⟨err, hhost.append js⟩

/-- A promotion comes to its second write after the first, and to the gate after both. -/
theorem recorded_of_promotion
    (reached : (fresh (.fresh ident owner port dir)).live? is = some (n, c))
    (here : n.course id = some (.going a asked)) (ha : a.promotion? = some (route, x)) :
    (x = .putPort →
      ∃ b, (fresh (.fresh ident owner port dir)).Meets (Writes id .putHost (.ok b)) is) ∧
    (x = .openGate → (fresh (.fresh ident owner port dir)).HasRecorded is id) := by
  induction is using List.reverseRecOn generalizing n c a asked route x with
  | nil =>
    obtain ⟨rfl, -⟩ := of_live?_nil reached
    exact nomatch here
  | append_singleton is i ih =>
    obtain ⟨n₁, c₁, hlive, hi, -⟩ := of_live?_concat reached
    have hu := undergoes_of_undergo? hi
    -- what a promotion has written it has written from then on
    have hkeep : ∀ {b asked' route'}, n₁.course id = some (.going b asked') →
        b.promotion? = some (route', x) →
        (x = .putPort → ∃ b, (fresh (.fresh ident owner port dir)).Meets
          (Writes id .putHost (.ok b)) (is ++ [i])) ∧
        (x = .openGate → (fresh (.fresh ident owner port dir)).HasRecorded (is ++ [i]) id) := by
      intro b asked' route' before hb
      obtain ⟨hhost, hboth⟩ := ih hlive before hb
      exact ⟨fun hx => (hhost hx).imp fun _ h => h.append [i], fun hx => (hboth hx).append [i]⟩
    cases hu.origin here with
    | aside other before => exact hkeep before ha
    | @call entry => cases entry <;> exact nomatch ha
    | spawn => exact nomatch ha
    | @step w b _ asked' before ready next =>
      rcases Activity.promotion?_of_step next ha with rfl | ⟨p, hb, hp⟩
      · exact ⟨nofun, nofun⟩
      · have hsame : x = .putPort ∨ x = .openGate → x = p := PromotionPoint.eq_of_step hp
        refine ⟨fun hx => ?_, fun hx => ?_⟩
        · obtain rfl := hsame (.inl hx)
          exact (hkeep before hb).1 hx
        · obtain rfl := hsame (.inr hx)
          exact (hkeep before hb).2 hx
    | ask before request => exact hkeep before ha
    | @answer b _ q r before request next =>
      rcases Activity.promotion?_of_reply next ha with rfl | ⟨p, hb, hp⟩
      · exact ⟨nofun, nofun⟩
      · have hnow : Writes id p r n₁ (.move (.answer id r)) := ⟨rfl, b, route, before, hb⟩
        cases PromotionPoint.answers_of_reply hp with
        | stay => exact hkeep before hb
        | host ok =>
          subst ok
          exact ⟨fun _ => ⟨_, (meets_concat hlive).mpr (.inr hnow)⟩, nofun⟩
        | failed error =>
          subst error
          exact ⟨nofun, fun _ => .inr ⟨_, (meets_concat hlive).mpr (.inr hnow)⟩⟩
        | port =>
          obtain ⟨b', hhost⟩ := (ih hlive before hb).1 rfl
          exact ⟨nofun, fun _ => .inl ⟨⟨b', hhost.append _⟩, r,
            (meets_concat hlive).mpr (.inr hnow)⟩⟩

/-- The gate opens only when the writes are over. -/
theorem recorded_of_released
    (reached : (fresh (.fresh ident owner port dir)).live? is = some (n, c))
    (hgate : n.elector.gate = .released) :
    ∃ id, (fresh (.fresh ident owner port dir)).HasRecorded is id := by
  induction is using List.reverseRecOn generalizing n c with
  | nil =>
    obtain ⟨rfl, -⟩ := of_live?_nil reached
    exact nomatch hgate
  | append_singleton is i ih =>
    obtain ⟨n₁, c₁, hlive, hi, -⟩ := of_live?_concat reached
    have hu := undergoes_of_undergo? hi
    by_cases hopen : n₁.elector.gate = .released
    · exact (ih hlive hopen).imp fun _ h => h.append [i]
    · obtain ⟨id, w, a, asked, b, route, -, here, ha, -⟩ := hu.opening hopen hgate
      obtain ⟨route', x, hpromotion, -⟩ :=
        Activity.exists_promotion (Activity.stage_of_openGate ha)
      rw [Activity.deed?_of_promotion hpromotion] at ha
      obtain rfl : x = .openGate := PromotionPoint.eq_openGate ha
      exact ⟨id, ((recorded_of_promotion hlive here hpromotion).2 rfl).append _⟩

/-! ## Calls that find the elector running -/

/-- A call returns as primary where it reads the status, and the elector runs. -/
theorem Undergoes.awaits (h : n.Undergoes i n') {p : AwaitPoint}
    (here : n.course id = some (.going (.await p) asked))
    (ended : n'.course id = some (.ended (.awaited .running))) :
    i.actor? = some id ∧ n.elector.status = .running ∧ (p = .check ∨ p = .readStatus) := by
  rcases h.ends here ended with ⟨w, rfl, ready, hnext⟩ | ⟨r, q, -, request, -⟩
  · refine ⟨rfl, ?_⟩
    cases p with
    | check =>
      refine ⟨?_, .inl rfl⟩
      cases hs : n.elector.status with
      | running => rfl
      | _ =>
        simp only [Activity.step, AwaitPoint.step, hs] at hnext
        cases hnext
    | gate => cases hnext
    | readStatus => exact ⟨Ending.awaited.inj (Sum.inr.inj hnext), .inr rfl⟩
  · cases request

/-- A call that was woken has seen the gate settled. -/
theorem settled_of_woken
    (reached : (fresh (.fresh ident owner port dir)).live? is = some (n, c))
    (here : n.course id = some (.going (.await .readStatus) asked)) :
    n.elector.gate ≠ .pending := by
  induction is using List.reverseRecOn generalizing n c asked with
  | nil =>
    obtain ⟨rfl, -⟩ := of_live?_nil reached
    exact nomatch here
  | append_singleton is i ih =>
    obtain ⟨n₁, c₁, hlive, hi, -⟩ := of_live?_concat reached
    have hu := undergoes_of_undergo? hi
    have hkeep : n₁.elector.gate ≠ .pending → n.elector.gate ≠ .pending := by
      intro hsettled
      rw [show n.elector.gate = n₁.elector.gate from hu.precedes.gate hsettled]
      exact hsettled
    generalize ha : Activity.await .readStatus = a at here
    cases hu.origin here with
    | aside other before =>
      subst ha
      exact hkeep (ih hlive before)
    | @call entry => cases entry <;> exact nomatch ha
    | spawn => exact nomatch ha
    | @step w b _ asked' before ready next =>
      subst ha
      obtain rfl := Activity.eq_gate_of_step next
      exact hkeep (bne_iff_ne.mp ready)
    | ask before request =>
      subst ha
      exact nomatch request
    | @answer b _ q r before request next =>
      subst ha
      exact absurd next (Activity.reply_ne_await request)

/-- Whoever has yet to open the gate of a running elector is at its writes, if all others may be
suspended. -/
theorem put_of_mayRest (hn : n.Custody) (here : n.course id = some (.going a asked))
    (ha : a.promotion? = some (route, x)) (hrest : n.mayRest id = true) :
    asked = true ∧ (x = .putHost ∨ x = .putPort) := by
  rw [mayRest_of_going here, Activity.mayRest_of_promotion ha] at hrest
  subst hrest
  exact ⟨rfl, hn.put_of_going here ha⟩

/-- Behind the gate of an elector that runs a promotion is under way, or none ever comes. -/
theorem pending_iff
    (reached : (fresh (.fresh ident owner port dir)).live? is = some (n, c))
    (hrunning : n.elector.status = .running) :
    n.elector.gate = .pending ↔
      (∃ id a asked route x, n.course id = some (.going a asked) ∧
        a.promotion? = some (route, x) ∧ x.isEarly = true) ∨
      (fresh (.fresh ident owner port dir)).Meets GivesUp is := by
  have hn := coherent_of_live? reached
  have hpending : n.elector.gate ≠ .released → n.elector.gate = .pending := by
    intro hshut
    have hopen : n.elector.gate ≠ .closed := hn.consistent.running hrunning
    cases hg : n.elector.gate with
    | pending => rfl
    | released => exact absurd hg hshut
    | closed => exact absurd hg hopen
  constructor
  · intro hgate
    have hshut : n.elector.gate ≠ .released := by
      rw [hgate]
      exact nofun
    rcases released_or_promoting reached hrunning with hreleased | ⟨id, hid⟩ | hmeets
    · exact absurd hreleased hshut
    · obtain ⟨a, asked, here⟩ := going_of_stage (by rw [hid]; exact nofun)
      have hstage : a.stage = .promoting := (stage_of_going here).symm.trans hid
      obtain ⟨route, x, ha, -⟩ := Activity.exists_promotion hstage
      refine .inl ⟨id, a, asked, route, x, here, ha, PromotionPoint.isEarly_iff.mpr
        ⟨(Activity.stage_of_promotion ha).symm.trans hstage, ?_⟩⟩
      rintro rfl
      exact hshut ((hn.fits id a asked here).calling (Activity.deed?_of_promotion ha))
    · exact .inr hmeets
  · rintro (⟨id, a, asked, route, x, here, ha, hx⟩ | hmeets)
    · refine hpending fun hreleased => ?_
      obtain ⟨hstage, hcall⟩ := PromotionPoint.isEarly_iff.mp hx
      have hdeed :=
        deed?_of_promoting reached hreleased here ((Activity.stage_of_promotion ha).trans hstage)
      rw [Activity.deed?_of_promotion ha] at hdeed
      exact hcall (PromotionPoint.deed?_eq_callBack hdeed)
    · exact hpending (barred_of_meets reached hmeets).gate

/-- A call that finds the elector running returns at once.  A call that returns as primary and was
woken does so behind an open gate, and the gate opens when the record is written, as far as it can
be.  A call that was not woken may return behind a gate that is pending: the promotion is under way,
at its writes if all others may be suspended, or it has given up, and then the gate never opens. -/
theorem running_awaited
    (reached : (fresh (.fresh ident owner port dir)).live? is = some (n, c)) :
    (∀ id asked w, n.course id = some (.going (.await .check) asked) →
      n.elector.status = .running → n.course w = none →
      ∃ n', n.undergo? (.move (.step id w)) = some n' ∧
        n'.course id = some (.ended (.awaited .running))) ∧
    ∀ id p asked i n', n.course id = some (.going (.await p) asked) →
      n.undergo? i = some n' → n'.course id = some (.ended (.awaited .running)) →
      (p = .check ∨ p = .readStatus ∧ n.elector.gate = .released) ∧
      (n.elector.gate = .released ∧
          (∃ id', (fresh (.fresh ident owner port dir)).HasRecorded is id') ∨
        n.elector.gate = .pending) ∧
      (n.elector.gate = .pending ↔
        (∃ id' a asked' route x, n.course id' = some (.going a asked') ∧
          a.promotion? = some (route, x) ∧ x.isEarly = true) ∨
        (fresh (.fresh ident owner port dir)).Meets GivesUp is) ∧
      ((fresh (.fresh ident owner port dir)).Cooperative (is ++ [i]) →
        ∀ id' a asked' route x, n.course id' = some (.going a asked') →
          a.promotion? = some (route, x) → x.isEarly = true →
          asked' = true ∧ (x = .putHost ∨ x = .putPort)) ∧
      ((fresh (.fresh ident owner port dir)).Meets GivesUp is →
        ∀ js n'' c', n'.live? js = some (n'', c') → n''.elector.gate ≠ .released) := by
  have hn := coherent_of_live? reached
  constructor
  · intro id asked w here hrunning new
    refine ⟨_, move?_of_makes (.step here rfl new), ?_⟩
    rw [course_step n.elector here new, Activity.step, AwaitPoint.step, hrunning]
    rfl
  · intro id p asked i n' here hi ended
    have hu := undergoes_of_undergo? hi
    obtain ⟨hactor, hrunning, hp⟩ := hu.awaits here ended
    have hopen : n.elector.gate ≠ .closed := hn.consistent.running hrunning
    refine ⟨hp.imp_right fun hread => ⟨hread, ?_⟩, ?_, pending_iff reached hrunning, ?_, ?_⟩
    · subst hread
      have hsettled := settled_of_woken reached here
      cases hg : n.elector.gate with
      | pending => exact absurd hg hsettled
      | released => rfl
      | closed => exact absurd hg hopen
    · cases hg : n.elector.gate with
      | pending => exact .inr rfl
      | released => exact .inl ⟨rfl, recorded_of_released reached hg⟩
      | closed => exact absurd hg hopen
    · intro hcoop id' a asked' route x here' ha hx
      have hrest := (hcoop.of_concat reached).2
      refine put_of_mayRest (custody_of_live? reached) here' ha (hrest id' fun hsame => ?_)
      -- whoever promotes does not wait for the promotion
      obtain rfl : id = id' := Option.some.inj (hactor.symm.trans hsame)
      obtain ⟨rfl, -⟩ := Course.going.inj (Option.some.inj (here.symm.trans here'))
      cases ha
    · intro hmeets js n'' c' hlater
      have hbarred := (barred_of_meets reached hmeets).undergoes hu
      exact (live?_keeps (fun hu hn => hn.undergoes hu) hlater hbarred).gate

/-- A start that won the lock waits for its first write. -/
def writingStart : List Incident := secondLife.take 15

/-- A call that waits for the promotion comes while the start is at its writes, after it was dropped
there, and when it has opened the gate. -/
def writingCall : List Incident := writingStart ++ [.move (.call 2 .await)]

def droppedCall : List Incident := writingStart ++ [.move (.breakOff 0), .move (.call 2 .await)]

def openCall : List Incident := secondLife.take 21 ++ [.move (.call 2 .await)]

theorem writing_running_awaited :
    ((blank.after (writingCall ++ [.move (.step 2 9)])).1.course 2 =
        some (.ended (.awaited .running)) ∧
      (blank.after writingCall).1.elector.gate = .pending) ∧
    (∃ id', blank.HasRecorded openCall id') ∧
    ∀ js n'' c', (blank.after (droppedCall ++ [.move (.step 2 9)])).1.live? js = some (n'', c') →
      n''.elector.gate ≠ .released := by
  have hwriting : blank.live? writingCall = some (blank.after writingCall) := rfl
  have hopen : blank.live? openCall = some (blank.after openCall) := rfl
  have hdropped : blank.live? droppedCall = some (blank.after droppedCall) := rfl
  have hreturns : (blank.after writingCall).1.undergo? (.move (.step 2 9)) =
      some (blank.after (writingCall ++ [.move (.step 2 9)])).1 := rfl
  have hreturnsOpen : (blank.after openCall).1.undergo? (.move (.step 2 9)) =
      some (blank.after (openCall ++ [.move (.step 2 9)])).1 := rfl
  have hreturnsDropped : (blank.after droppedCall).1.undergo? (.move (.step 2 9)) =
      some (blank.after (droppedCall ++ [.move (.step 2 9)])).1 := rfl
  obtain ⟨hat, hcalls⟩ := running_awaited hwriting
  obtain ⟨n', hstep, hended⟩ := hat 2 false 9 rfl rfl rfl
  obtain rfl := Option.some.inj (hreturns.symm.trans hstep)
  obtain ⟨-, -, hpending, -⟩ := hcalls 2 .check false _ _ rfl hreturns hended
  have hputs : ∃ id' a asked' route x,
      (blank.after writingCall).1.course id' = some (.going a asked') ∧
        a.promotion? = some (route, x) ∧ x.isEarly = true :=
    ⟨0, .start (.promote false .putHost), true, .immediate, .putHost, rfl, rfl, rfl⟩
  obtain ⟨-, hcallsOpen⟩ := running_awaited hopen
  obtain ⟨-, hrecord, -⟩ := hcallsOpen 2 .check false _ _ rfl hreturnsOpen rfl
  obtain ⟨-, hcallsDropped⟩ := running_awaited hdropped
  obtain ⟨-, -, -, -, hbarred⟩ := hcallsDropped 2 .check false _ _ rfl hreturnsDropped rfl
  have hstart : blank.live? writingStart = some (blank.after writingStart) := rfl
  have hgives : (blank.after writingStart).1.GivesUp (.move (.breakOff 0)) :=
    ⟨0, .start (.promote false .putHost), true, .immediate, .putHost, rfl, rfl, .inr (.inl rfl)⟩
  have hmeets : blank.Meets GivesUp droppedCall :=
    ((meets_concat hstart).mpr (.inr hgives)).append [.move (.call 2 .await)]
  exact ⟨⟨hended, hpending.mpr (.inl hputs)⟩, (hrecord.resolve_right nofun).2, hbarred hmeets⟩

/-- A call returns as primary while the promotion is at its writes, and the gate is not open. -/
theorem running_before_gate :
    ¬ ∀ (is : List Incident) (n : Node) (c : Chronicle) (i : Incident) (n' : Node) (id : CallId)
      (asked : Bool), blank.live? is = some (n, c) → blank.Cooperative (is ++ [i]) →
      n.undergo? i = some n' → n.course id = some (.going (.await .check) asked) →
      n'.course id = some (.ended (.awaited .running)) → n.elector.gate = .released := by
  intro h
  have hlive : blank.live? writingCall = some (blank.after writingCall) := rfl
  have hcoop : blank.Cooperative (writingCall ++ [.move (.step 2 9)]) :=
    cooperative_of_isCooperative 10 (fun _ _ => rfl) rfl
  have hreturns : (blank.after writingCall).1.undergo? (.move (.step 2 9)) =
      some (blank.after (writingCall ++ [.move (.step 2 9)])).1 := rfl
  exact nomatch h writingCall _ _ _ _ 2 _ hlive hcoop hreturns rfl rfl

end Node

end Primacy.Election
