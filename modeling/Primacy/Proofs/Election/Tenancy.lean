/-
  Primacy.Proofs.Election.Tenancy

  An elector together with what a lock service has down for its owner.  An unlock may fail, or may
  be dropped before it is answered, and then it is for the lock service to say who has the lock.
  An elector unlocks once and never again, so a stop may end well although the lock is still held:
  what a failed unlock leaves behind stays there.
-/
import Primacy.Proofs.Election.History
import Primacy.Proofs.Election.Repetition

namespace Primacy.Election

/-! ## Locks that are in use -/

namespace Ledger

variable {l : Ledger} {id : CallId} {e e' : Elector} {s : Stage} {answered granted : Bool}

/-- The elector shows the lock, or somebody has it and has yet to hear that it was given back. -/
def InUse (l : Ledger) : Prop := l.status = .running ∨ ∃ id, (l.stage id).inHand = true

/-- Nobody has the lock, and nobody is on the way to it any more. -/
structure Spent (l : Ledger) : Prop where
  started : l.started = true
  status : l.status ≠ .running
  stage : ∀ id, (l.stage id).competes = false ∧ l.stage id ≠ .releasing

theorem Spent.not_inUse (hl : l.Spent) : ¬ l.InUse := by
  rintro (hrunning | ⟨id, hid⟩)
  · exact hl.status hrunning
  · obtain ⟨hcompetes, hreleasing⟩ := hl.stage id
    cases hs : l.stage id with
    | holding =>
      rw [hs] at hcompetes
      exact nomatch hcompetes
    | releasing => exact hreleasing hs
    | _ =>
      rw [hs] at hid
      exact nomatch hid

/-- Whether the lock is in use, as far as one activity and the status tell. -/
theorem inUse_iff (l : Ledger) (id : CallId) :
    l.InUse ↔ (l.status = .running ∨ (l.stage id).inHand = true) ∨
      ∃ id', id' ≠ id ∧ (l.stage id').inHand = true := by
  constructor
  · rintro (hrunning | ⟨id', hid'⟩)
    · exact .inl (.inl hrunning)
    · by_cases hne : id' = id
      · exact .inl (.inr (hne ▸ hid'))
      · exact .inr ⟨id', hne, hid'⟩
  · rintro ((hrunning | hid) | ⟨id', -, hid'⟩)
    · exact .inl hrunning
    · exact .inr ⟨id, hid⟩
    · exact .inr ⟨id', hid'⟩

theorem inUse_move : (l.move id s e granted).InUse ↔
    (e.status = .running ∨ s.inHand = true) ∨ ∃ id', id' ≠ id ∧ (l.stage id').inHand = true := by
  rw [inUse_iff _ id, move_stage_self]
  refine or_congr_right (exists_congr fun id' => and_congr_right fun hne => ?_)
  rw [move_stage_other s granted hne]

/-- A passage that neither grants the lock nor hears that it was given back leaves it in use, or out
of use. -/
theorem inUse_passage (hp : Passage e e' answered false (l.stage id) s)
    (hstatus : e.status = l.status) (hfree : (l.stage id).inHand = true → answered = false) :
    (l.move id s e' false).InUse ↔ l.InUse := by
  rw [inUse_move, inUse_iff l id, ← hstatus]
  refine or_congr_left ?_
  generalize l.stage id = s₀ at hp hfree
  generalize hg : false = granted at hp
  cases hp with
  | stay free status started => rw [status]
  | retire free status started =>
    have hout : s₀.inHand = false := by
      cases h : s₀.inHand with
      | false => rfl
      | true => exact nomatch (free h).symm.trans (hfree h)
    rw [status, hout]
    rfl
  | link unstarted status started =>
    rw [status]
    rfl
  | connect status started =>
    rw [status]
    rfl
  | standBy before status started =>
    rw [status, before]
    exact iff_of_false (by rintro (h | h) <;> cases h) (by rintro (h | h) <;> cases h)
  | grant status started => exact nomatch hg
  | run before status started => exact iff_of_true (.inl status) (.inr rfl)
  | halt status started =>
    rw [status]
    by_cases hrunning : e.status = .running
    · rw [if_pos hrunning]
      exact iff_of_true (.inr rfl) (.inl hrunning)
    · rw [if_neg hrunning]
      exact iff_of_false (by rintro (h | h) <;> cases h) (by
        rintro (h | h)
        · exact hrunning h
        · cases h)

theorem inUse_spawn (hid : l.stage id = .idle) : (l.spawn id).InUse ↔ l.InUse := by
  rw [inUse_iff _ id, inUse_iff l id, hid]
  have hself : (l.spawn id).stage id = .waiting := Function.update_self ..
  have hother : ∀ id', id' ≠ id → (l.spawn id).stage id' = l.stage id' := fun _ hne =>
    Function.update_of_ne hne ..
  rw [hself]
  refine or_congr Iff.rfl (exists_congr fun id' => and_congr_right fun hne => ?_)
  rw [hother id' hne]

/-- With an activity that is over the lock is spent, if no other one goes after it. -/
theorem Spent.of_idle (started : e.started = true) (status : e.status ≠ .running)
    (others : ∀ id', id' ≠ id → (l.stage id').competes = false ∧ l.stage id' ≠ .releasing) :
    (l.move id .idle e granted).Spent where
  started := started
  status := status
  stage id' := by
    by_cases hne : id' = id
    · rw [hne, move_stage_self]
      exact ⟨rfl, nofun⟩
    · rw [move_stage_other _ _ hne]
      exact others id' hne

theorem Spent.passage (hl : l.Spent) (hc : l.Competition)
    (hp : Passage e e' answered granted (l.stage id) s) (hstatus : e.status = l.status)
    (hstarted : e.started = l.started) : (l.move id s e' granted).Spent := by
  obtain ⟨hcompetes, hreleasing⟩ := hl.stage id
  have hlinking : l.stage id ≠ .linking := fun h => nomatch hl.started.symm.trans (hc.linking id h)
  -- where the activity stays at its stage, or has nothing more to do with the lock
  have hkeep : e'.status ≠ .running → e'.started = e.started →
      s = l.stage id ∨ s = .idle → (l.move id s e' granted).Spent := by
    intro hstatus' hstarted' hs
    refine ⟨(hstarted'.trans hstarted).trans hl.started, hstatus', fun id' => ?_⟩
    by_cases hne : id' = id
    · rw [hne, move_stage_self]
      rcases hs with rfl | rfl
      · exact ⟨hcompetes, hreleasing⟩
      · exact ⟨rfl, nofun⟩
    · rw [move_stage_other s granted hne]
      exact hl.stage id'
  have hidle : e.status ≠ .running := hstatus ▸ hl.status
  generalize l.stage id = s₀ at hp hcompetes hreleasing hlinking hkeep
  cases hp with
  | stay free status started => exact hkeep (status ▸ hidle) started (.inl rfl)
  | retire free status started => exact hkeep (status ▸ hidle) started (.inr rfl)
  | link unstarted status started =>
    exact nomatch unstarted.symm.trans (hstarted.trans hl.started)
  | connect status started => exact absurd rfl hlinking
  | standBy before status started => exact nomatch hcompetes
  | grant status started => exact nomatch hcompetes
  | run before status started => exact nomatch hcompetes
  | halt status started =>
    refine hkeep ?_ started (.inr (if_neg hidle))
    rw [status]
    exact nofun

end Ledger

/-- With the answer to its request whoever has the lock in hand is done. -/
theorem Passage.idle_of_inHand {e e' : Elector} {s s' : Stage} (h : Passage e e' true false s s')
    (hin : s.inHand = true) : s' = .idle ∧ e'.status = e.status ∧ e'.started = e.started := by
  cases h with
  | stay free => exact nomatch free hin
  | retire free status started => exact ⟨rfl, status, started⟩
  | connect => exact nomatch hin

/-- Whoever is dropped has nothing more to do with the lock, as if its request were answered. -/
theorem Passage.of_dropped {e e' : Elector} {s : Stage} (status : e'.status = e.status)
    (started : e'.started = e.started) : Passage e e' true false s .idle :=
  .retire (fun _ => rfl) status started

theorem Passage.of_granted {e e' : Elector} {answered : Bool} {s s' : Stage}
    (h : Passage e e' answered true s s') : s = .waiting ∧ s' = .holding := by
  cases h with
  | grant => exact ⟨rfl, rfl⟩

/-- Whoever tries for the lock is on the way to it. -/
theorem Activity.stage_of_tryLock {a : Activity} {e : Elector} (h : a.request? e = some .tryLock) :
    a.stage = .waiting := by
  cases a with
  | start p =>
    cases p with
    | tryLock => rfl
    | publish writes blocking => cases writes <;> exact nomatch h
    | promote blocking p => cases p <;> exact nomatch h
    | _ => exact nomatch h
  | stop p => cases p <;> exact nomatch h
  | waiter p =>
    cases p with
    | promote p => cases p <;> exact nomatch h
    | _ => exact nomatch h
  | _ => exact nomatch h

/-- This is how far a stop has got that has nothing to report, unless it was dropped. -/
def Course.IsIdleStop : Course → Prop
  | going (.stop p) _ => p.isCalm = true
  | ended r => r = .stopped (.ok ())
  | brokenOff => True
  | _ => False

namespace Node

variable {n n' : Node} {i : Incident} {is js : List Incident} {id id' : CallId} {a b : Activity}
  {asked : Bool} {c : Chronicle} {q : Request} {x : Course} {l : Ledger} {ident : Identity}
  {owner : String} {port : Nat} {dir : Option String}

/-! ## The books over one incident -/

/-- What an incident does to the books. -/
inductive Books (n : Node) : Incident → Ledger → Prop where
  | call {id : CallId} {entry : Entry} : n.Books (.move (.call id entry)) n.ledger
  | step {id w : CallId} {a : Activity} {asked : Bool} {s : Stage} {e : Elector}
      (here : n.course id = some (.going a asked))
      (passage : Passage n.elector e false false a.stage s) :
      n.Books (.move (.step id w)) (n.ledger.move id s e false)
  /-- A start leaves the competition to the waiter that it brings to life. -/
  | spawn {id w : CallId} {asked : Bool} {e : Elector}
      (here : n.course id = some (.going (.start .spawnWaiter) asked))
      (new : n.course w = none) (status : e.status = n.elector.status)
      (started : e.started = n.elector.started) :
      n.Books (.move (.step id w)) ((n.ledger.move id .idle e false).spawn w)
  | ask {id : CallId} {a : Activity} {q : Request} (here : n.course id = some (.going a false))
      (request : a.request? n.elector = some q) : n.Books (.move (.ask id)) (n.ledger.ask id q)
  | answer {id : CallId} {r : Reply} {a : Activity} {q : Request} {s : Stage} {e : Elector}
      (here : n.course id = some (.going a true)) (request : a.request? n.elector = some q)
      (passage : Passage n.elector e true (q.isGranted r) a.stage s) :
      n.Books (.move (.answer id r)) (n.ledger.move id s e (q.isGranted r))
  | breakOff {id : CallId} {a : Activity} {asked : Bool} {e : Elector}
      (here : n.course id = some (.going a asked)) (may : a.mayBreakOff asked = true)
      (status : e.status = n.elector.status) (started : e.started = n.elector.started) :
      n.Books (.move (.breakOff id)) (n.ledger.move id .idle e false)
  | discard : n.Books (.move .discard) n.ledger
  | collapse {id : CallId} {p : WaiterPoint} {e : Elector}
      (here : n.course id = some (.going (.waiter p) true))
      (status : e.status = n.elector.status) (started : e.started = n.elector.started) :
      n.Books (.collapse id) (n.ledger.move id .idle e false)

theorem Undergoes.books (h : n.Undergoes i n') : n.Books i n'.ledger := by
  cases h with
  | move made =>
    cases made with
    | @call id entry new =>
      rw [ledger_call entry new]
      exact .call
    | @step id w a asked here ready new =>
      have hcarry : (n.carryOut id (a.step n.elector id)).ledger =
          n.ledger.move id (stageAfter (a.step n.elector id).next) (a.step n.elector id).elector
            false := ledger_carryOut n id (a.step n.elector id) false
      unfold spawn
      split
      · next hspawn =>
        obtain rfl := Activity.eq_spawnWaiter_of_active ready hspawn.1 hspawn.2
        rw [ledger_spawn, hcarry]
        exact .spawn here new rfl rfl
      · rw [hcarry]
        exact .step here (Activity.step_passage ready)
    | @ask id a q here request =>
      rw [ledger_ask here]
      exact .ask here request
    | @answer id r a q here request =>
      rw [ledger_carryOut]
      exact .answer here request (Activity.reply_passage request)
    | @breakOff id a asked here may =>
      obtain ⟨hstatus, hstarted⟩ := a.abandon_status_started n.elector id
      rw [ledger_breakOff]
      exact .breakOff here may hstatus hstarted
    | discard => exact .discard
  | collapse here =>
    rw [ledger_breakOff]
    exact .collapse here rfl rfl

/-- Once nobody is on the way to the lock, nobody ever is. -/
theorem Books.spent (h : n.Books i l) (hn : n.Custody) (hspent : n.ledger.Spent) : l.Spent := by
  have hcompetition := hn.balanced.toCompetition
  have hpassage : ∀ {id a asked s e answered granted},
      n.course id = some (.going a asked) → Passage n.elector e answered granted a.stage s →
      (n.ledger.move id s e granted).Spent := fun here passage =>
    hspent.passage hcompetition ((stage_of_going here).symm ▸ passage) rfl rfl
  cases h with
  | call => exact hspent
  | step here passage => exact hpassage here passage
  | @spawn id w asked e here new status started =>
    have hcompetes := (hspent.stage id).1
    rw [stage_of_going here] at hcompetes
    exact nomatch hcompetes
  | ask here request => exact ⟨hspent.started, hspent.status, hspent.stage⟩
  | answer here request passage => exact hpassage here passage
  | breakOff here may status started =>
    exact hpassage here (.of_dropped status started)
  | discard => exact hspent
  | collapse here status started =>
    exact hpassage here (.of_dropped status started)

/-! ## One hand at most -/

/-- Whoever has the lock in hand is at work. -/
theorem going_of_inHand (h : (n.ledger.stage id).inHand = true) :
    ∃ a asked, n.course id = some (.going a asked) ∧ a.stage.inHand = true := by
  have hbusy : n.ledger.stage id ≠ .idle := by
    intro hidle
    rw [hidle] at h
    exact nomatch h
  obtain ⟨a, asked, here⟩ := going_of_stage hbusy
  exact ⟨a, asked, here, (stage_of_going here) ▸ h⟩

/-- Nobody else has the lock beside one that has yet to ask for it to be unlocked. -/
theorem Custody.eq_of_holds (hn : n.Custody) (hid : n.ledger.Holds (some id))
    (hid' : (n.ledger.stage id').inHand = true) : id' = id := by
  cases hasked : n.ledger.asked id' with
  | false => exact Option.some.inj (hn.balanced.sole (some id') (some id) ⟨hid', hasked⟩ hid)
  | true =>
    obtain ⟨a, asked, here, ha⟩ := going_of_inHand hid'
    obtain rfl : asked = true := (asked_of_going here).symm.trans hasked
    have hunlock := hn.settled id' a here ha
    have hnone : n.requests.count .unlock = 0 := (hn.balanced.owed _ hid).2
    exact absurd (List.count_pos_iff.mpr hunlock) (by omega)

theorem eq_of_inHand (reached : (fresh (.fresh ident owner port dir)).live? is = some (n, c))
    (hid : (n.ledger.stage id).inHand = true) (hid' : (n.ledger.stage id').inHand = true) :
    id = id' := by
  induction is using List.reverseRecOn generalizing n c with
  | nil =>
    obtain ⟨rfl, -⟩ := of_live?_nil reached
    exact nomatch hid
  | append_singleton is i ih =>
    obtain ⟨n₁, c₁, hlive, hi, -⟩ := of_live?_concat reached
    have hn := custody_of_live? reached
    have hn₁ := custody_of_live? hlive
    have hu := undergoes_of_undergo? hi
    obtain ⟨a, asked, here, ha⟩ := going_of_inHand hid
    obtain ⟨b, asked', there, hb⟩ := going_of_inHand hid'
    cases asked with
    | false => exact (hn.eq_of_holds ⟨hid, asked_of_going here⟩ hid').symm
    | true =>
      cases asked' with
      | false => exact hn.eq_of_holds ⟨hid', asked_of_going there⟩ hid
      | true =>
        -- both have asked for an unlock, and one of them did so before the incident
        cases hu.origin here with
        | aside other before =>
          cases hu.origin there with
          | aside other' before' =>
            exact ih hlive ((stage_of_going before).symm ▸ ha) ((stage_of_going before').symm ▸ hb)
          | ask before' request' =>
            have hholds : n₁.ledger.Holds (some id') :=
              ⟨(stage_of_going before').symm ▸ hb, asked_of_going before'⟩
            exact hn₁.eq_of_holds hholds ((stage_of_going before).symm ▸ ha)
        | ask before request =>
          have hholds : n₁.ledger.Holds (some id) :=
            ⟨(stage_of_going before).symm ▸ ha, asked_of_going before⟩
          cases hu.origin there with
          | aside other' before' =>
            exact (hn₁.eq_of_holds hholds ((stage_of_going before').symm ▸ hb)).symm
          | ask before' request' => rfl

/-! ## Stops of an elector that is stopped -/

/-- A stop that finds the elector stopped asks for nothing. -/
theorem Fate.isIdleStop {y : Course} (h : n.Fate id i x y) (hx : x.IsIdleStop)
    (hstatus : n.elector.status = .stopped) : y.IsIdleStop ∧ i ≠ .move (.ask id) := by
  cases h with
  | aside ask => exact ⟨hx, ask⟩
  | @step w a asked ready =>
    refine ⟨?_, nofun⟩
    cases a with
    | stop p =>
      rw [Course.apply_elim Course.IsIdleStop]
      dsimp only [Activity.step]
      rw [Turn.elim_within]
      have hcalm : p.isCalm = true := hx
      cases hnext : (p.step n.elector id).next with
      | inl p' => exact p.isCalm_of_step hcalm (fun _ => hstatus) hnext
      | inr r =>
        obtain rfl := p.ok_of_step hcalm hnext
        rfl
    | _ => exact hx.elim
  | @ask a q request =>
    cases a with
    | stop p =>
      cases p with
      | unlock => exact nomatch hx
      | _ => exact nomatch request
    | _ => exact hx.elim
  | @answer a q r request =>
    cases a with
    | stop p =>
      cases p with
      | unlock => exact nomatch hx
      | _ => exact nomatch request
    | _ => exact hx.elim
  | breakOff may => exact ⟨trivial, nofun⟩
  | collapse => exact hx.elim

theorem Halted.undergoes (hn : n.Halted) (hc : n.Custody) (h : n.Undergoes i n') : n'.Halted := by
  cases h with
  | move made => exact hn.makes hc made
  | collapse here => exact hn.setCourse rfl rfl nofun nofun nofun

theorem halted_of_live? (h : (fresh (.fresh ident owner port dir)).live? is = some (n, c)) :
    n.Halted :=
  (live?_keeps (P := fun n => n.Custody ∧ n.Halted)
    (fun hu hn => ⟨hn.1.undergoes hu, hn.2.undergoes hn.1 hu⟩) h
    ⟨custody_fresh nofun, halted_fresh _⟩).2

/-! ## Requests that are waited for -/

/-- The request whose answer an activity waits for. -/
def awaited? (n : Node) (id : CallId) : Option Request :=
  match n.course id with
  | some (.going a true) => a.request? n.elector
  | _ => none

theorem awaited?_of_going (here : n.course id = some (.going a true)) :
    n.awaited? id = a.request? n.elector := by
  rw [awaited?, here]

theorem going_of_awaited? (h : n.awaited? id = some q) :
    ∃ a, n.course id = some (.going a true) ∧ a.request? n.elector = some q := by
  rw [awaited?] at h
  split at h
  · next a here => exact ⟨a, here, h⟩
  · exact nomatch h

/-- Who waits for the answer to an unlock has the only lock in hand, and nobody comes after it. -/
theorem Custody.spent_of_unlock (hn : n.Custody)
    (hlone : ∀ id', (n.ledger.stage id').inHand = true → id' = id)
    (h : n.awaited? id = some .unlock) {e : Elector} (status : e.status = n.elector.status)
    (started : e.started = n.elector.started) :
    (n.ledger.move id .idle e false).Spent ∧ n.ledger.InUse := by
  obtain ⟨a, here, request⟩ := going_of_awaited? h
  have hhand : (n.ledger.stage id).inHand = true := by
    rw [stage_of_going here]
    exact (Activity.request?_eq_unlock_iff request).mp rfl
  have hunlocks : 0 < n.ledger.unlocks :=
    List.count_pos_iff.mpr (hn.settled id a here ((stage_of_going here) ▸ hhand))
  have hgrants : 0 < n.ledger.grants := Nat.lt_of_lt_of_le hunlocks hn.balanced.bounded.1
  have hrunning : n.elector.status ≠ .running := by
    intro hrunning
    have hnone : n.ledger.unlocks = 0 := (hn.balanced.owed none hrunning).2
    omega
  have hstarted : n.elector.started = true := by
    cases hs : n.elector.started with
    | true => rfl
    | false =>
      have hnone : n.ledger.grants = 0 := hn.balanced.unstarted hs
      omega
  refine ⟨.of_idle (started.trans hstarted) (status ▸ hrunning) fun id' hne => ?_,
    .inr ⟨id, hhand⟩⟩
  have hout : (n.ledger.stage id').inHand ≠ true := fun h => hne (hlone id' h)
  cases hs : n.ledger.stage id' with
  | holding =>
    rw [hs] at hout
    exact absurd rfl hout
  | releasing =>
    rw [hs] at hout
    exact absurd rfl hout
  | waiting =>
    have hnone : n.ledger.grants = 0 := hn.balanced.waiting id' hs
    omega
  | _ => exact ⟨rfl, nofun⟩

/-- Who is on the way to the lock is alone in it, and the lock is not in use. -/
theorem Custody.spent_of_waiting (hn : n.Custody) (hwaiting : n.ledger.stage id = .waiting)
    {e : Elector} (status : e.status = n.elector.status)
    (started : e.started = n.elector.started) :
    (n.ledger.move id .idle e false).Spent ∧ ¬ n.ledger.InUse := by
  have hgrants : n.ledger.grants = 0 := hn.balanced.waiting id hwaiting
  have hcompetes : (n.ledger.stage id).competes = true := by
    rw [hwaiting]
    rfl
  have hunused : ¬ n.ledger.InUse := by
    rintro (hrunning | ⟨id', hid'⟩)
    · have hone : n.ledger.grants = 1 := (hn.balanced.owed none hrunning).1
      omega
    · cases hasked : n.ledger.asked id' with
      | false =>
        have hone : n.ledger.grants = 1 := (hn.balanced.owed (some id') ⟨hid', hasked⟩).1
        omega
      | true =>
        obtain ⟨b, asked, there, hb⟩ := going_of_inHand hid'
        obtain rfl : asked = true := (asked_of_going there).symm.trans hasked
        have hunlocks : 0 < n.ledger.unlocks := List.count_pos_iff.mpr (hn.settled id' b there hb)
        have hbounded := hn.balanced.bounded.1
        omega
  have hstarted : n.elector.started = true := hn.balanced.competing id hcompetes
  have hrunning : n.elector.status ≠ .running := fun hs => hunused (.inl hs)
  refine ⟨.of_idle (started.trans hstarted) (status ▸ hrunning) fun id' hne => ⟨?_, ?_⟩, hunused⟩
  · exact Bool.eq_false_iff.mpr fun h => hne (hn.balanced.alone id' id h hcompetes)
  · intro hreleasing
    refine hunused (.inr ⟨id', ?_⟩)
    rw [hreleasing]
    rfl

theorem Custody.spent_of_tryLock (hn : n.Custody) (h : n.awaited? id = some .tryLock)
    {e : Elector} (status : e.status = n.elector.status)
    (started : e.started = n.elector.started) :
    (n.ledger.move id .idle e false).Spent ∧ ¬ n.ledger.InUse := by
  obtain ⟨a, here, request⟩ := going_of_awaited? h
  refine hn.spent_of_waiting ?_ status started
  rw [stage_of_going here]
  exact Activity.stage_of_tryLock request

end Node

/-! ## Tenants -/

/-- An elector, and whether the lock service has its owner down as the holder. -/
structure Tenant where
  node : Node
  holds : Bool

/-- An incident, and who has the lock after it where that is for the lock service to say: whether
an unlock that fails or is dropped leaves the lock with its owner, and whether a try that is dropped
gets it. -/
structure Dealing where
  incident : Node.Incident
  kept : Bool

namespace Tenant

variable {t t' t₁ : Tenant} {d : Dealing} {ds : List Dealing} {left : Prop} {kept : Bool}
  {i : Node.Incident} {l : Ledger} {id : CallId} {a : Activity} {asked : Bool}
  {ident : Identity} {owner : String} {port : Nat} {dir : Option String}

def fresh (e : Elector) : Tenant := ⟨.fresh e, false⟩

/-- Whether the owner holds the lock after an activity is dropped.  A wait for the lock that is
dropped leaves nothing held. -/
def holdsWithout (t : Tenant) (kept : Bool) (id : CallId) : Bool :=
  match t.node.awaited? id with
  | some .unlock => t.holds && kept
  | some .tryLock => t.holds || kept
  | _ => t.holds

/-- Whether the owner holds the lock after an incident.  An unlock that succeeds frees the lock. -/
def holdsAfter (t : Tenant) (kept : Bool) : Node.Incident → Bool
  | .move (.answer id r) =>
    match t.node.awaited? id with
    | some .unlock => t.holds && kept && !r.isOk
    | some q => t.holds || q.isGranted r
    | none => t.holds
  | .move (.breakOff id) => t.holdsWithout kept id
  | .collapse id => t.holdsWithout kept id
  | _ => t.holds

def deal? (t : Tenant) (d : Dealing) : Option Tenant :=
  (t.node.undergo? d.incident).map fun n => ⟨n, t.holdsAfter d.kept d.incident⟩

/-- The tenant after dealings, the first one first. -/
def run? (t : Tenant) : List Dealing → Option Tenant
  | [] => some t
  | d :: ds => (t.deal? d).bind (·.run? ds)

/-- It is for the lock service to say who has the lock after this: an unlock fails or is dropped, or
a try is dropped. -/
def LeavesOpen (t : Tenant) : Node.Incident → Prop
  | .move (.answer id (.error _)) => t.node.awaited? id = some .unlock
  | .move (.breakOff id) =>
    t.node.awaited? id = some .unlock ∨ t.node.awaited? id = some .tryLock
  | .collapse id => t.node.awaited? id = some .unlock ∨ t.node.awaited? id = some .tryLock
  | _ => False

/-- The lock service leaves the lock with the owner where that is for it to say. -/
def Keeps (t : Tenant) (d : Dealing) : Prop := t.LeavesOpen d.incident ∧ d.kept = true

/-- At some point of the dealings one of the given kind happens. -/
def Meets (P : Tenant → Dealing → Prop) (t : Tenant) : List Dealing → Prop
  | [] => False
  | d :: ds => P t d ∨ ∃ t', t.deal? d = some t' ∧ t'.Meets P ds

/-! ## Runs of a tenant -/

theorem run?_append {es : List Dealing} (h : t.run? (ds ++ es) = some t') :
    ∃ t₁, t.run? ds = some t₁ ∧ t₁.run? es = some t' := by
  induction ds generalizing t with
  | nil => exact ⟨t, rfl, h⟩
  | cons d ds ih =>
    obtain ⟨t₂, hd, hrest⟩ := Option.bind_eq_some_iff.mp h
    obtain ⟨t₁, hds, hes⟩ := ih hrest
    refine ⟨t₁, ?_, hes⟩
    rw [run?, hd]
    exact hds

theorem append_run? {es : List Dealing} (h : t.run? ds = some t₁) (hes : t₁.run? es = some t') :
    t.run? (ds ++ es) = some t' := by
  induction ds generalizing t with
  | nil =>
    obtain rfl := Option.some.inj h
    exact hes
  | cons d ds ih =>
    obtain ⟨t₂, hd, hrest⟩ := Option.bind_eq_some_iff.mp h
    rw [List.cons_append, run?, hd]
    exact ih hrest

theorem of_run?_concat (h : t.run? (ds ++ [d]) = some t') :
    ∃ t₁, t.run? ds = some t₁ ∧ t₁.deal? d = some t' := by
  obtain ⟨t₁, hds, hlast⟩ := run?_append h
  obtain ⟨t₂, hd, hnil⟩ := Option.bind_eq_some_iff.mp hlast
  obtain rfl := Option.some.inj hnil
  exact ⟨t₁, hds, hd⟩

theorem meets_concat {P : Tenant → Dealing → Prop} (h : t.run? ds = some t') :
    t.Meets P (ds ++ [d]) ↔ t.Meets P ds ∨ P t' d := by
  induction ds generalizing t with
  | nil =>
    obtain rfl := Option.some.inj h
    refine ⟨fun hmeets => ?_, fun hmeets => hmeets.elim nofun .inl⟩
    rcases hmeets with hp | ⟨_, -, hnil⟩
    · exact .inr hp
    · exact hnil.elim
  | cons e ds ih =>
    obtain ⟨t₁, he, hrest⟩ := Option.bind_eq_some_iff.mp h
    have hlater := ih hrest
    constructor
    · rintro (hp | ⟨t₂, ht₂, hmeets⟩)
      · exact .inl (.inl hp)
      · obtain rfl := Option.some.inj (he.symm.trans ht₂)
        exact (hlater.mp hmeets).imp_left fun h => .inr ⟨t₁, ht₂, h⟩
    · rintro ((hp | ⟨t₂, ht₂, hmeets⟩) | hp)
      · exact .inl hp
      · obtain rfl := Option.some.inj (he.symm.trans ht₂)
        exact .inr ⟨t₁, ht₂, hlater.mpr (.inl hmeets)⟩
      · exact .inr ⟨t₁, he, hlater.mpr (.inr hp)⟩

theorem Meets.append {P : Tenant → Dealing → Prop} (h : t.Meets P ds) (es : List Dealing) :
    t.Meets P (ds ++ es) := by
  induction ds generalizing t with
  | nil => exact h.elim
  | cons d ds ih => exact h.imp_right fun ⟨t', hd, hlater⟩ => ⟨t', hd, ih hlater⟩

/-- The elector of a tenant lives as it would by itself. -/
theorem live?_of_run? (h : t.run? ds = some t') :
    ∃ c, t.node.live? (ds.map (·.incident)) = some (t'.node, c) := by
  induction ds generalizing t with
  | nil =>
    obtain rfl := Option.some.inj h
    exact ⟨_, rfl⟩
  | cons d ds ih =>
    obtain ⟨t₁, hd, hrest⟩ := Option.bind_eq_some_iff.mp h
    obtain ⟨n, hi, rfl⟩ := Option.map_eq_some_iff.mp hd
    obtain ⟨c, hlive⟩ := ih hrest
    exact ⟨_, Node.live?_cons hi hlive⟩

/-! ## Who holds the lock -/

/-- The owner holds the lock if it is in use, or if it was left to him, and then nobody comes after
it any more. -/
structure Tenure (holds : Bool) (l : Ledger) (left : Prop) : Prop where
  holds_iff : holds = true ↔ l.InUse ∨ left
  spent : left → l.Spent

theorem Tenure.congr {holds : Bool} {l l' : Ledger} {left' : Prop} (h : Tenure holds l left)
    (hspent : l.Spent → l'.Spent) (huse : l'.InUse ↔ l.InUse) (hleft : left' ↔ left) :
    Tenure holds l' left' where
  holds_iff := by rw [h.holds_iff, huse, hleft]
  spent hl := hspent (h.spent (hleft.mp hl))

/-- Where the lock was in use and nobody comes after it any more, it is for the lock service to say
whether the owner is left with it. -/
theorem Tenure.leave {l l' : Ledger} (h : Tenure t.holds l left) (huse : l.InUse)
    (hspent : l'.Spent) (kept : Bool) : Tenure (t.holds && kept) l' (left ∨ kept = true) where
  holds_iff := by
    have hholds : t.holds = true := h.holds_iff.mpr (.inl huse)
    have hleft : ¬ left := fun hl => (h.spent hl).not_inUse huse
    rw [hholds, Bool.true_and, or_iff_right hspent.not_inUse, or_iff_right hleft]
  spent _ := hspent

theorem Tenure.take {l l' : Ledger} (h : Tenure t.holds l left) (huse : ¬ l.InUse)
    (hspent : l'.Spent) (kept : Bool) : Tenure (t.holds || kept) l' (left ∨ kept = true) where
  holds_iff := by
    rw [Bool.or_eq_true, h.holds_iff, or_iff_right huse, or_iff_right hspent.not_inUse]
  spent _ := hspent

/-- Who holds the lock is the same after a passage that neither grants it nor hears that it was
given back. -/
theorem Tenure.passage (h : Tenure t.holds t.node.ledger left) (hn : t.node.Custody) {e : Elector}
    {s : Stage} {answered : Bool} {P : Prop}
    (hp : Passage t.node.elector e answered false (t.node.ledger.stage id) s)
    (hfree : (t.node.ledger.stage id).inHand = true → answered = false) (hP : ¬ P) :
    Tenure t.holds (t.node.ledger.move id s e false) (left ∨ P) :=
  h.congr (fun hl => hl.passage hn.balanced.toCompetition hp rfl rfl)
    (Ledger.inUse_passage hp rfl hfree) (or_iff_left hP)

/-- Where an activity is dropped, the lock service decides only if it waits for an unlock or for a
try. -/
theorem Tenure.drop (h : Tenure t.holds t.node.ledger left) (hn : t.node.Custody)
    (hlone : ∀ id id', (t.node.ledger.stage id).inHand = true →
      (t.node.ledger.stage id').inHand = true → id = id')
    (here : t.node.course id = some (.going a asked))
    (hasked : a.stage.inHand = true → asked = true) {e : Elector}
    (status : e.status = t.node.elector.status) (started : e.started = t.node.elector.started) :
    Tenure (t.holdsWithout kept id) (t.node.ledger.move id .idle e false)
      (left ∨
        (t.node.awaited? id = some .unlock ∨ t.node.awaited? id = some .tryLock) ∧
          kept = true) := by
  by_cases hunlock : t.node.awaited? id = some .unlock
  · obtain ⟨a', here', request⟩ := Node.going_of_awaited? hunlock
    have hhand : (t.node.ledger.stage id).inHand = true := by
      rw [Node.stage_of_going here']
      exact (Activity.request?_eq_unlock_iff request).mp rfl
    obtain ⟨hspent, huse⟩ :=
      hn.spent_of_unlock (fun id' hid' => hlone id' id hid' hhand) hunlock status started
    have hkept := h.leave huse hspent kept
    simpa only [holdsWithout, hunlock, true_or, true_and] using hkept
  by_cases htry : t.node.awaited? id = some .tryLock
  · obtain ⟨hspent, huse⟩ := hn.spent_of_tryLock htry status started
    have hkept := h.take huse hspent kept
    simpa only [holdsWithout, htry, or_true, true_and] using hkept
  -- nobody asks the lock service
  have hholds : t.holdsWithout kept id = t.holds := by
    rw [holdsWithout]
    split
    · next hq => exact absurd hq hunlock
    · next hq => exact absurd hq htry
    · rfl
  have hfree : (t.node.ledger.stage id).inHand ≠ true := by
    rw [Node.stage_of_going here]
    intro hin
    obtain rfl := hasked hin
    obtain ⟨q, request⟩ := Option.isSome_iff_exists.mp (hn.pending id a here)
    have hq : q = .unlock := (Activity.request?_eq_unlock_iff request).mpr hin
    exact hunlock ((Node.awaited?_of_going here).trans (request.trans (congrArg some hq)))
  rw [hholds]
  refine h.passage hn (.of_dropped status started) (fun hin => absurd hin hfree) ?_
  rintro ⟨hq | hq, -⟩
  · exact hunlock hq
  · exact htry hq

/-- An answer settles who holds the lock, unless it is to an unlock and an error. -/
theorem Tenure.answer (h : Tenure t.holds t.node.ledger left) (hn : t.node.Custody)
    (hlone : ∀ id id', (t.node.ledger.stage id).inHand = true →
      (t.node.ledger.stage id').inHand = true → id = id')
    (here : t.node.course id = some (.going a true)) {q : Request} {r : Reply} {s : Stage}
    {e : Elector} (request : a.request? t.node.elector = some q)
    (passage : Passage t.node.elector e true (q.isGranted r) a.stage s) :
    Tenure (t.holdsAfter kept (.move (.answer id r)))
      (t.node.ledger.move id s e (q.isGranted r))
      (left ∨ t.LeavesOpen (.move (.answer id r)) ∧ kept = true) := by
  have hq : t.node.awaited? id = some q := (Node.awaited?_of_going here).trans request
  have hstage := Node.stage_of_going here
  by_cases hunlock : q = .unlock
  · -- the lock is given back, as far as the elector is concerned
    subst hunlock
    have hin : a.stage.inHand = true := (Activity.request?_eq_unlock_iff request).mp rfl
    obtain ⟨rfl, status, started⟩ := passage.idle_of_inHand hin
    obtain ⟨hspent, huse⟩ := hn.spent_of_unlock
      (fun id' hid' => hlone id' id hid' (hstage ▸ hin)) hq status started
    have hkept := h.leave huse hspent (kept && !r.isOk)
    have hholds : t.holdsAfter kept (.move (.answer id r)) = (t.holds && (kept && !r.isOk)) := by
      simp only [holdsAfter, hq, Bool.and_assoc]
    rw [hholds]
    refine hkept.congr (fun hl => hl) Iff.rfl (or_congr_right ?_)
    cases r with
    | ok b => simp [LeavesOpen, Except.isOk, Except.toBool]
    | error err => simp [LeavesOpen, Except.isOk, Except.toBool, hq]
  have hquiet : ¬ (t.LeavesOpen (.move (.answer id r)) ∧ kept = true) := by
    rintro ⟨hopen, -⟩
    cases r with
    | ok b => exact hopen
    | error err => exact hunlock (Option.some.inj (hq.symm.trans hopen))
  have hholds : t.holdsAfter kept (.move (.answer id r)) = (t.holds || q.isGranted r) := by
    simp only [holdsAfter, hq]
  rw [hholds]
  cases hgranted : q.isGranted r with
  | true =>
    -- the one that waited for the lock has it
    rw [hgranted] at passage
    obtain ⟨hwaiting, rfl⟩ := passage.of_granted
    refine ⟨iff_of_true (Bool.or_true _) (.inl (.inr ⟨id, ?_⟩)), ?_⟩
    · rw [Ledger.move_stage_self]
      rfl
    · intro hleft
      have hcompetes := ((h.spent (hleft.resolve_right hquiet)).stage id).1
      rw [hstage, hwaiting] at hcompetes
      exact nomatch hcompetes
  | false =>
    rw [hgranted] at passage
    have hfree : (t.node.ledger.stage id).inHand ≠ true := by
      rw [hstage]
      exact fun hin => hunlock ((Activity.request?_eq_unlock_iff request).mpr hin)
    rw [Bool.or_false]
    exact h.passage hn (hstage.symm ▸ passage) (fun hin => absurd hin hfree) hquiet

/-- After an incident the owner holds the lock if it is in use, or if it was left to him then or
before. -/
theorem Tenure.books (h : Tenure t.holds t.node.ledger left) (hn : t.node.Custody)
    (hlone : ∀ id id', (t.node.ledger.stage id).inHand = true →
      (t.node.ledger.stage id').inHand = true → id = id') (hl : t.node.Books i l) :
    Tenure (t.holdsAfter kept i) l (left ∨ t.Keeps ⟨i, kept⟩) := by
  have hspent := hl.spent hn
  cases hl with
  | call => exact h.congr hspent Iff.rfl (or_iff_left (·.1))
  | step here passage =>
    exact h.passage hn ((Node.stage_of_going here).symm ▸ passage) (fun _ => rfl) (·.1)
  | @spawn id w asked e here new status started =>
    have hwaiting : t.node.ledger.stage id = .waiting := Node.stage_of_going here
    have hidle : t.node.ledger.stage w = .idle := by
      simp only [Node.ledger, new, Option.elim_none]
    have hne : w ≠ id := by
      rintro rfl
      cases hidle.symm.trans hwaiting
    refine h.congr hspent ?_ (or_iff_left (·.1))
    rw [Ledger.inUse_spawn ((Ledger.move_stage_other _ _ hne).trans hidle)]
    refine Ledger.inUse_passage (.of_dropped status started) rfl fun hin => ?_
    rw [hwaiting] at hin
    cases hin
  | ask here request => exact h.congr hspent Iff.rfl (or_iff_left (·.1))
  | answer here request passage => exact h.answer hn hlone here request passage
  | breakOff here may status started =>
    exact h.drop hn hlone here (Activity.asked_of_mayBreakOff may) status started
  | discard => exact h.congr hspent Iff.rfl (or_iff_left (·.1))
  | collapse here status started => exact h.drop hn hlone here (fun _ => rfl) status started

/-- Throughout a run of a fresh tenant the owner holds the lock exactly if it is in use, or if the
lock service left it with him. -/
theorem tenure_of_run? (h : (fresh (.fresh ident owner port dir)).run? ds = some t) :
    Tenure t.holds t.node.ledger ((fresh (.fresh ident owner port dir)).Meets Keeps ds) := by
  induction ds using List.reverseRecOn generalizing t with
  | nil =>
    obtain rfl := Option.some.inj h
    refine ⟨iff_of_false nofun ?_, nofun⟩
    rintro ((hrunning | ⟨id, hid⟩) | hkeeps)
    · exact nomatch hrunning
    · exact nomatch hid
    · exact hkeeps
  | append_singleton ds d ih =>
    obtain ⟨t₁, hds, hd⟩ := of_run?_concat h
    obtain ⟨n, hi, rfl⟩ := Option.map_eq_some_iff.mp hd
    obtain ⟨c, hlive⟩ := live?_of_run? hds
    rw [meets_concat hds]
    exact (ih hds).books (Node.custody_of_live? hlive)
      (fun _ _ hid hid' => Node.eq_of_inHand hlive hid hid')
      (Node.undergoes_of_undergo? hi).books

/-! ## Stops after the first -/

/-- A stop that is called when one has ended asks for nothing, and can only end well. -/
theorem idle_of_run? (h : t.run? ds = some t') (hstatus : t.node.elector.status = .stopped)
    {x : Course} (here : t.node.course id = some x) (hx : x.IsIdleStop) :
    (∃ y, t'.node.course id = some y ∧ y.IsIdleStop) ∧
      .move (.ask id) ∉ ds.map (·.incident) := by
  induction ds generalizing t x with
  | nil =>
    obtain rfl := Option.some.inj h
    exact ⟨⟨x, here, hx⟩, List.not_mem_nil⟩
  | cons d ds ih =>
    obtain ⟨t₁, hd, hrest⟩ := Option.bind_eq_some_iff.mp h
    obtain ⟨n, hi, rfl⟩ := Option.map_eq_some_iff.mp hd
    have hu := Node.undergoes_of_undergo? hi
    obtain ⟨y, hy, hfate⟩ := hu.fate here
    obtain ⟨hidle, hask⟩ := hfate.isIdleStop hx hstatus
    obtain ⟨hend, hnone⟩ := ih hrest (hu.precedes.stopped hstatus) hy hidle
    refine ⟨hend, fun hmem => ?_⟩
    rcases List.mem_cons.mp hmem with hhead | htail
    · exact hask hhead.symm
    · exact hnone htail

theorem exists_course_of_run? (h : t.run? ds = some t') {x : Course}
    (here : t.node.course id = some x) : ∃ y, t'.node.course id = some y := by
  induction ds generalizing t x with
  | nil =>
    obtain rfl := Option.some.inj h
    exact ⟨x, here⟩
  | cons d ds ih =>
    obtain ⟨t₁, hd, hrest⟩ := Option.bind_eq_some_iff.mp h
    obtain ⟨n, hi, rfl⟩ := Option.map_eq_some_iff.mp hd
    obtain ⟨y, hy, -⟩ := (Node.undergoes_of_undergo? hi).fate here
    exact ih hrest hy

/-- Under a name that is still free nobody has asked for anything. -/
theorem not_asked_of_run? (h : t.run? ds = some t') (hfree : t'.node.course id = none) :
    .move (.ask id) ∉ ds.map (·.incident) := by
  intro hmem
  obtain ⟨d, hd, hincident⟩ := List.mem_map.mp hmem
  obtain ⟨ds₁, ds₂, rfl⟩ := List.append_of_mem hd
  obtain ⟨t₁, -, hlast⟩ := run?_append h
  obtain ⟨t₂, hdeal, hrest⟩ := Option.bind_eq_some_iff.mp hlast
  obtain ⟨n, hi, rfl⟩ := Option.map_eq_some_iff.mp hdeal
  rw [hincident] at hi
  cases Node.undergoes_of_undergo? hi with
  | move made =>
    cases made with
    | ask here request =>
      obtain ⟨y, hy⟩ := exists_course_of_run? hrest (Function.update_self ..)
      exact nomatch hfree.symm.trans hy

/-- A stop that is called on a stopped elector asks for nothing, and can only end well. -/
theorem idle_of_call (h : t.run? ds = some t') (hstatus : t.node.elector.status = .stopped)
    (hcall : .move (.call id .stop) ∈ ds.map (·.incident)) :
    .move (.ask id) ∉ ds.map (·.incident) ∧
      ∀ r, t'.node.course id = some (.ended r) → r = .stopped (.ok ()) := by
  obtain ⟨d, hd, hincident⟩ := List.mem_map.mp hcall
  obtain ⟨ds₁, ds₂, rfl⟩ := List.append_of_mem hd
  obtain ⟨t₁, hbefore, hlast⟩ := run?_append h
  obtain ⟨t₂, hdeal, hafter⟩ := Option.bind_eq_some_iff.mp hlast
  obtain ⟨n, hi, rfl⟩ := Option.map_eq_some_iff.mp hdeal
  have hstatus₁ : t₁.node.elector.status = .stopped := by
    obtain ⟨c, hlive⟩ := live?_of_run? hbefore
    exact (Node.live?_precedes hlive).stopped hstatus
  rw [hincident] at hi
  cases Node.undergoes_of_undergo? hi with
  | move made =>
    cases made with
    | call new =>
      have hcourse := Function.update_self id (some (.going (.stop .request) false)) t₁.node.course
      obtain ⟨⟨y, hy, hidle⟩, hnone⟩ := idle_of_run? hafter hstatus₁ hcourse rfl
      refine ⟨?_, fun r hr => ?_⟩
      · rw [List.map_append, List.mem_append, List.map_cons, List.mem_cons, hincident]
        rintro (hmem | hhead | hmem)
        · exact not_asked_of_run? hbefore new hmem
        · exact nomatch hhead
        · exact hnone hmem
      · obtain rfl := Option.some.inj (hy.symm.trans hr)
        exact hidle

/-- Once a stop has ended, the owner holds the lock in two cases only: the lock service left it with
him, and then it stays with him, or a start or a waiter has yet to give back the lock that it was
granted.  Stops that are called from then on ask for nothing, and end well all the same. -/
theorem holds_after_stop_iff (reached : (fresh (.fresh ident owner port dir)).run? ds = some t)
    {r : StopResult} (ended : t.node.course id = some (.ended (.stopped r))) :
    (t.holds = true ↔ (fresh (.fresh ident owner port dir)).Meets Keeps ds ∨
      ∃ id' a asked, t.node.course id' = some (.going a asked) ∧ a.stage = .holding) ∧
    ∀ es t', t.run? es = some t' →
      ((fresh (.fresh ident owner port dir)).Meets Keeps ds → t'.holds = true) ∧
      ∀ id', .move (.call id' .stop) ∈ es.map (·.incident) →
        .move (.ask id') ∉ es.map (·.incident) ∧
          ∀ r', t'.node.course id' = some (.ended r') → r' = .stopped (.ok ()) := by
  have hhalted : t.node.Halted := by
    obtain ⟨c, hlive⟩ := live?_of_run? reached
    exact Node.halted_of_live? hlive
  obtain ⟨hstatus, hreleasing⟩ := hhalted.ended id r ended
  have htenure := tenure_of_run? reached
  refine ⟨?_, fun es t' h => ⟨fun hkeeps => ?_, fun id' hcall => idle_of_call h hstatus hcall⟩⟩
  · rw [htenure.holds_iff, or_comm]
    refine or_congr_right ⟨?_, ?_⟩
    · rintro (hrunning | ⟨id', hid'⟩)
      · exact nomatch hrunning.symm.trans hstatus
      · obtain ⟨a, asked, here, ha⟩ := Node.going_of_inHand hid'
        refine ⟨id', a, asked, here, ?_⟩
        cases hs : a.stage with
        | holding => rfl
        | releasing => exact absurd ((Node.stage_of_going here).trans hs) (hreleasing id')
        | _ =>
          rw [hs] at ha
          exact nomatch ha
    · rintro ⟨id', a, asked, here, ha⟩
      refine .inr ⟨id', ?_⟩
      rw [Node.stage_of_going here, ha]
      rfl
  · exact (tenure_of_run? (append_run? reached h)).holds_iff.mpr (.inr (hkeeps.append es))

/-- Before anything has happened. -/
def vacant : Tenant := fresh (.fresh ⟨"host", 7, "lead", "a"⟩ "a#1" 4000 none)

/-- What dealings lead to, if all of them can happen. -/
def after (t : Tenant) (ds : List Dealing) : Tenant := (t.run? ds).getD t

/-- The lock service never lets go of what it has down for the owner. -/
def clingingTo (is : List Node.Incident) : List Dealing := is.map (⟨·, true⟩)

def outage : Error := .lock (.unavailable "memory")

/-- A stop of an elector that ran asks for the lock to be unlocked. -/
def unlocking : List Dealing :=
  clingingTo (Node.secondLife.take 22 ++
    List.map .move [.call 1 .stop, .step 1 9, .step 1 9, .step 1 9, .step 1 9, .step 1 9, .ask 1])

/-- The lock service fails under it. -/
def leaking : List Dealing :=
  unlocking ++ clingingTo [.move (.answer 1 (.error outage)), .move (.step 1 9)]

def secondStop : List Dealing :=
  clingingTo (List.map .move
    [.call 2 .stop, .step 2 9, .step 2 9, .step 2 9, .step 2 9, .step 2 9, .step 2 9])

theorem leaked_holds_after_stop :
    (vacant.after leaking).node.course 1 = some (.ended (.stopped (.error outage))) ∧
    (vacant.after leaking).holds = true ∧
    (vacant.after (leaking ++ secondStop)).node.course 2 = some (.ended (.stopped (.ok ()))) ∧
    .move (.ask 2) ∉ secondStop.map (·.incident) ∧
    (vacant.after (leaking ++ secondStop)).holds = true := by
  have hreached : vacant.run? leaking = some (vacant.after leaking) := rfl
  have hended : (vacant.after leaking).node.course 1 =
      some (.ended (.stopped (.error outage))) := rfl
  have hmeets : vacant.Meets Keeps leaking := by
    have hasked : vacant.run? unlocking = some (vacant.after unlocking) := rfl
    exact ((meets_concat hasked).mpr (.inr ⟨rfl, rfl⟩)).append (clingingTo [.move (.step 1 9)])
  obtain ⟨hholds, hlater⟩ := holds_after_stop_iff hreached hended
  obtain ⟨hstays, hidle⟩ := hlater secondStop (vacant.after (leaking ++ secondStop)) rfl
  obtain ⟨hask, -⟩ := hidle 2 (.head _)
  exact ⟨hended, hholds.mpr (.inl hmeets), rfl, hask, hstays hmeets⟩

/-- A stop has failed to unlock, another one has ended well, and the owner still holds the lock. -/
theorem not_freed_of_stop :
    ¬ ∀ (ds : List Dealing) (t : Tenant) (id : CallId), vacant.run? ds = some t →
      t.node.course id = some (.ended (.stopped (.ok ()))) → t.holds = false := by
  intro h
  exact nomatch h (leaking ++ secondStop) (vacant.after (leaking ++ secondStop)) 2 rfl rfl

end Tenant

end Primacy.Election
