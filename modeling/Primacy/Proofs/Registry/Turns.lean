/-
  Primacy.Proofs.Registry.Turns

  Turns on a counter.  Between two resets of a counter its increments are numbered from one, so
  exactly one of those who ask whether they are first is told that they are.  This is so for a
  registry in memory, which takes one request after the other, and for calls on one registry file,
  which take effect in the order in which they get the lock of the file.
-/
import Primacy.Proofs.Dialogue.Exchange
import Primacy.Proofs.Registry.Answer
import Primacy.Proofs.Registry.Sharing

namespace Primacy.Registry

open Text.Utf8 (Bytes)

/-- A request to a registry and what it was answered. -/
abbrev Exchange := Primacy.Exchange Request Request.Reply

/-! ## Transcripts -/

namespace Content

/-- What a registry in memory answers to requests, the earliest first. -/
def transcript (c : Content) : List Request → List Exchange
  | [] => []
  | q :: qs => ⟨q, c.reply q⟩ :: (c.after q).transcript qs

variable {c c' : Content} {name : String} {q : Request}

theorem transcript_append (c : Content) (qs qs' : List Request) :
    c.transcript (qs ++ qs') = c.transcript qs ++ (c.replay qs).transcript qs' := by
  induction qs generalizing c with
  | nil => rfl
  | cons q qs ih => exact congrArg (_ :: ·) (ih (c.after q))

/-- A part of a transcript is the transcript of a part of the requests. -/
theorem transcript_eq_append {qs : List Request} {before rest : List Exchange}
    (h : c.transcript qs = before ++ rest) :
    ∃ qs₁ qs₂, qs = qs₁ ++ qs₂ ∧ before = c.transcript qs₁ ∧
      rest = (c.replay qs₁).transcript qs₂ := by
  induction before generalizing c qs with
  | nil => exact ⟨[], qs, rfl, rfl, h.symm⟩
  | cons x before ih =>
    cases qs with
    | nil => cases h
    | cons q qs =>
      obtain ⟨rfl, htail⟩ := List.cons.inj h
      obtain ⟨qs₁, qs₂, rfl, rfl, hrest⟩ := ih htail
      exact ⟨q :: qs₁, qs₂, rfl, rfl, hrest⟩

theorem counter_after_zero (c : Content) (name : String) :
    (c.after (.zero name)).counter name = 0 := answer_zero rfl

/-- A counter that is below its greatest value is incremented. -/
theorem increment_of_lt (h : c.counter name < Text.int64Max) :
    c.reply (.increment name) = .ok (c.counter name + 1) ∧
    (c.after (.increment name)).counter name = c.counter name + 1 := by
  obtain ⟨n, c', hanswer, -⟩ := does_increment h
  obtain ⟨hreply, hafter⟩ := reply_after_of_ok hanswer
  obtain ⟨rfl, hcounter⟩ := answer_increment hanswer
  exact ⟨hreply, hafter ▸ hcounter⟩

theorem counter_after_of_ne (hq : q.counter? ≠ some name) :
    (c.after q).counter name = c.counter name := by
  cases h : c.answer q with
  | ok x =>
    rw [(reply_after_of_ok h).2]
    exact counter_of_answer h hq
  | error e => rw [(reply_after_of_error h).2]

/-- What a request to a counter is answered depends on this counter alone, and so does what it
leaves there. -/
theorem reply_counter_eq (hc : c.counter name = c'.counter name)
    (hq : q.counter? = some name) :
    c.reply q = c'.reply q ∧ (c.after q).counter name = (c'.after q).counter name := by
  cases q with
  | put key value => cases hq
  | get key => cases hq
  | zero other =>
    obtain rfl := Option.some.inj hq
    exact ⟨rfl, (counter_after_zero c _).trans (counter_after_zero c' _).symm⟩
  | increment other =>
    obtain rfl := Option.some.inj hq
    by_cases hlt : c.counter other < Text.int64Max
    · obtain ⟨hreply, hafter⟩ := increment_of_lt hlt
      obtain ⟨hreply', hafter'⟩ := increment_of_lt (hc ▸ hlt)
      rw [hreply, hafter, hreply', hafter', hc]
      exact ⟨rfl, rfl⟩
    · obtain ⟨hreply, hafter⟩ := reply_after_of_error (increment_breaksOff hlt)
      obtain ⟨hreply', hafter'⟩ := reply_after_of_error (increment_breaksOff (hc ▸ hlt))
      rw [hreply, hafter, hreply', hafter']
      exact ⟨rfl, hc⟩

end Content

/-! ## Periods -/

/-- The exchanges about one counter. -/
def exchangesOf (name : String) (log : List Exchange) : List Exchange :=
  log.filter fun x => x.request.counter? = some name

/-- The increments of one counter. -/
def turnsOf (name : String) (log : List Exchange) : List Exchange :=
  log.filter fun x => x.request = .increment name

/-- The `n`th turn on a counter, from `0` on. -/
def turn (name : String) (n : Int) : Exchange := ⟨.increment name, .ok (n + 1)⟩

/-- `period` is a longest part of `log` without a reset of the counter. -/
def IsPeriod (name : String) (log period : List Exchange) : Prop :=
  ∃ before after, log = before ++ period ++ after ∧
    (∀ x ∈ period, x.request ≠ .zero name) ∧
    (before = [] ∨ ∃ earlier x, before = earlier ++ [x] ∧ x.request = .zero name) ∧
    (after = [] ∨ ∃ x later, after = x :: later ∧ x.request = .zero name)

/-- Whoever makes this exchange to learn whether it is the first writer is told that it is. -/
def IsToldFirst (name : String) (x : Exchange) : Prop :=
  (isFirstWriter name).run.Leads [x] (.done (.ok true))

/-- The turns of a period are numbered from one, and of those who take one exactly one is told that
it is first, if there are any. -/
structure IsNumbered (name : String) (period : List Exchange) : Prop where
  turns : turnsOf name period =
    (List.range (turnsOf name period).length).map fun i : Nat => turn name i
  first : turnsOf name period ≠ [] → ∃ before x after, period = before ++ x :: after ∧
    IsToldFirst name x ∧ ∀ y ∈ before ++ after, ¬ IsToldFirst name y
  none : turnsOf name period = [] → ∀ x ∈ period, ¬ IsToldFirst name x

/-- The turns of every period are numbered, as long as the counter need not pass its greatest
value. -/
def Gated (name : String) (log : List Exchange) : Prop :=
  ∀ period, IsPeriod name log period → ((turnsOf name period).length : Int) ≤ Text.int64Max →
    IsNumbered name period

variable {name : String}

theorem isFirstWriter_run (name : String) : (isFirstWriter name).run =
    .ask (.increment name) fun r => .done (r.map fun turn => decide (turn = 1)) := by
  show Dialogue.ask _ _ = _
  congr 1
  funext r
  cases r <;> rfl

/-- The first turn is the only one whose taker is told that it is first. -/
theorem isToldFirst_iff {x : Exchange} : IsToldFirst name x ↔ x = turn name 0 := by
  rw [IsToldFirst, isFirstWriter_run]
  constructor
  · intro h
    obtain ⟨-, h⟩ | ⟨r, rest, hx, hrest⟩ := h.of_ask
    · cases h
    · obtain ⟨rfl, rfl⟩ := List.cons.inj hx
      obtain ⟨-, hdone⟩ := hrest.of_done
      cases r with
      | error e => cases hdone
      | ok n =>
        have hn : true = decide (n = 1) := Except.ok.inj (Dialogue.done.inj hdone)
        rw [of_decide_eq_true hn.symm]
        rfl
  · rintro rfl
    exact .on (.here _)

theorem turn_inj {n m : Int} (h : turn name n = turn name m) : n = m := by
  have hreply : (Except.ok (n + 1) : Except RegistryError Int) = .ok (m + 1) :=
    eq_of_heq (Primacy.Exchange.mk.inj h).2
  have hn := Except.ok.inj hreply
  omega

/-- Numbers from one make a numbered period. -/
theorem isNumbered_of_turns {period : List Exchange}
    (h : turnsOf name period =
      (List.range (turnsOf name period).length).map fun i : Nat => turn name i) :
    IsNumbered name period where
  turns := h
  first hne := by
    obtain ⟨k, hk⟩ := Nat.exists_eq_succ_of_ne_zero (mt List.length_eq_zero_iff.mp hne)
    rw [hk, List.range_succ_eq_map, List.map_cons, List.map_map] at h
    obtain ⟨before, after, hperiod, hbefore, hfirst, hafter⟩ := List.filter_eq_cons_iff.mp h
    refine ⟨before, _, after, hperiod, isToldFirst_iff.mpr rfl, fun y hy hfirst' => ?_⟩
    obtain rfl := isToldFirst_iff.mp hfirst'
    rcases List.mem_append.mp hy with hy | hy
    · exact hbefore _ hy hfirst
    · -- the turns behind the first one have greater numbers
      have hmem : turn name 0 ∈ after.filter fun x => x.request = .increment name :=
        List.mem_filter.mpr ⟨hy, decide_eq_true rfl⟩
      rw [hafter] at hmem
      obtain ⟨i, -, hi⟩ := List.mem_map.mp hmem
      have hi' := turn_inj hi
      simp only [Nat.succ_eq_add_one, Nat.cast_add, Nat.cast_one] at hi'
      omega
  none hnil x hx hfirst := by
    obtain rfl := isToldFirst_iff.mp hfirst
    have hmem : turn name 0 ∈ turnsOf name period :=
      List.mem_filter.mpr ⟨hx, decide_eq_true rfl⟩
    rw [hnil] at hmem
    cases hmem

namespace Content

variable {c c' : Content}

/-- Without resets, the turns are numbered on from where the counter stands. -/
theorem turnsOf_transcript {qs : List Request} (hzero : ∀ q ∈ qs, q ≠ .zero name)
    (hmax : c.counter name + (turnsOf name (c.transcript qs)).length ≤ Text.int64Max) :
    turnsOf name (c.transcript qs) =
      (List.range (turnsOf name (c.transcript qs)).length).map fun i : Nat =>
        turn name (c.counter name + i) := by
  induction qs generalizing c with
  | nil => rfl
  | cons q qs ih =>
    have htail := fun q hq => hzero q (List.mem_cons_of_mem _ hq)
    by_cases hq : q = .increment name
    · subst hq
      have hcons : turnsOf name (c.transcript (.increment name :: qs)) =
          ⟨.increment name, c.reply (.increment name)⟩ ::
            turnsOf name ((c.after (.increment name)).transcript qs) :=
        List.filter_cons_of_pos (decide_eq_true rfl)
      rw [hcons, List.length_cons] at hmax ⊢
      rw [Nat.cast_add, Nat.cast_one] at hmax
      obtain ⟨hreply, hafter⟩ := increment_of_lt (by omega : c.counter name < Text.int64Max)
      have hrest := ih htail (by rw [hafter]; omega)
      rw [hafter] at hrest
      rw [List.range_succ_eq_map, List.map_cons, List.map_map]
      refine congrArg₂ List.cons ?_ (hrest.trans (List.map_congr_left fun i _ => ?_))
      · rw [hreply, Nat.cast_zero, add_zero]
        rfl
      · rw [Function.comp_apply, Nat.succ_eq_add_one, Nat.cast_add, Nat.cast_one, add_assoc,
          add_comm 1]
    · have hcons : turnsOf name (c.transcript (q :: qs)) =
          turnsOf name ((c.after q).transcript qs) :=
        List.filter_cons_of_neg (by simpa using hq)
      have hcounter : (c.after q).counter name = c.counter name := by
        refine counter_after_of_ne fun hname => ?_
        cases q with
        | put key value => cases hname
        | get key => cases hname
        | increment other => exact hq (congrArg _ (Option.some.inj hname))
        | zero other =>
          exact hzero _ List.mem_cons_self (congrArg _ (Option.some.inj hname))
      rw [hcons] at hmax ⊢
      rw [← hcounter] at hmax ⊢
      exact ih htail hmax

/-- A transcript that ends with a reset, or has not begun, leaves a fresh counter at zero. -/
theorem counter_replay_eq_zero (fresh : c.counter name = 0) {qs : List Request}
    (h : c.transcript qs = [] ∨
      ∃ earlier x, c.transcript qs = earlier ++ [x] ∧ x.request = .zero name) :
    (c.replay qs).counter name = 0 := by
  rcases h with h | ⟨earlier, x, h, hx⟩
  · cases qs with
    | nil => exact fresh
    | cons q qs => cases h
  · obtain ⟨qs₁, qs₂, rfl, -, hlast⟩ := transcript_eq_append h
    -- the last request is the reset
    cases qs₂ with
    | nil => cases hlast
    | cons q qs₂ =>
      obtain ⟨rfl, hnil⟩ := List.cons.inj hlast
      cases qs₂ with
      | cons q' qs₂ => cases hnil
      | nil =>
        rw [replay_concat]
        obtain rfl : q = .zero name := hx
        exact counter_after_zero ..

theorem request_mem_transcript {qs : List Request} {q : Request} (h : q ∈ qs) :
    ∃ x ∈ c.transcript qs, x.request = q := by
  induction qs generalizing c with
  | nil => cases h
  | cons q' qs ih =>
    rcases List.mem_cons.mp h with rfl | h
    · exact ⟨_, List.mem_cons_self, rfl⟩
    · obtain ⟨x, hx, hq⟩ := ih (c := c.after q') h
      exact ⟨x, List.mem_cons_of_mem _ hx, hq⟩

/-- A registry in memory numbers the turns of every period. -/
theorem gated_transcript (fresh : c.counter name = 0) (qs : List Request) :
    Gated name (c.transcript qs) := by
  rintro period ⟨before, after, hlog, hzero, hbefore, -⟩ hmax
  rw [List.append_assoc] at hlog
  obtain ⟨qs₁, rest, rfl, rfl, hrest⟩ := transcript_eq_append hlog
  obtain ⟨qs₂, qs₃, rfl, rfl, -⟩ := transcript_eq_append hrest.symm
  have hstart := counter_replay_eq_zero fresh hbefore
  have hquiet : ∀ q ∈ qs₂, q ≠ .zero name := by
    intro q hq
    obtain ⟨x, hx, rfl⟩ := request_mem_transcript (c := c.replay qs₁) hq
    exact hzero x hx
  have hturns := turnsOf_transcript hquiet (by rw [hstart, zero_add]; exact hmax)
  simp only [hstart, zero_add] at hturns
  exact isNumbered_of_turns hturns

/-- What is asked of other counters and of entries does not matter to a counter. -/
theorem exchangesOf_transcript (hc : c.counter name = c'.counter name) (qs : List Request) :
    exchangesOf name (c.transcript qs) =
      c'.transcript (qs.filter fun q => q.counter? = some name) := by
  induction qs generalizing c c' with
  | nil => rfl
  | cons q qs ih =>
    by_cases hq : q.counter? = some name
    · obtain ⟨hreply, hafter⟩ := reply_counter_eq hc hq
      have hlog : exchangesOf name (c.transcript (q :: qs)) =
          ⟨q, c.reply q⟩ :: exchangesOf name ((c.after q).transcript qs) :=
        List.filter_cons_of_pos (decide_eq_true hq)
      rw [hlog, hreply, ih hafter, List.filter_cons_of_pos (by simpa using hq)]
      rfl
    · have hlog : exchangesOf name (c.transcript (q :: qs)) =
          exchangesOf name ((c.after q).transcript qs) :=
        List.filter_cons_of_neg (by simpa using hq)
      rw [hlog, ih ((counter_after_of_ne hq).trans hc),
        List.filter_cons_of_neg (by simpa using hq)]

end Content

/-! ## Calls on one registry file -/

/-- What a call that is done was answered. -/
def FileCall.exchange? {q : Request} : FileCall q → Option Exchange
  | done r => some ⟨q, r⟩
  | _ => none

theorem FileCall.exchange?_of_isInside {q : Request} {p : FileCall q} (h : p.isInside = true) :
    p.exchange? = none := by
  cases p with
  | done r => cases h
  | _ => rfl

theorem FileCall.exists_done {q : Request} {p : FileCall q} (hentered : p.hasEntered = true)
    (hinside : p.isInside ≠ true) : ∃ r, p = .done r := by
  cases p with
  | opening => cases hentered
  | locking => cases hentered
  | done r => exact ⟨r, rfl⟩
  | _ => exact absurd rfl hinside

namespace Sharing

variable {ι : Type} [DecidableEq ι] {call : ι → Request} {s : Sharing call} {c : Content}

/-- What the calls that are done were answered, in the order in which they got the lock. -/
def log (s : Sharing call) : List Exchange := s.order.filterMap fun i => (s.point i).exchange?

omit [DecidableEq ι] in
/-- Calls that are done were answered as their transcript says. -/
theorem Sound.filterMap_exchange? (hs : s.Sound c) (served : List ι) :
    ∀ {rest : List ι}, s.order = served ++ rest → (∀ i ∈ served, ∃ r, s.point i = .done r) →
      served.filterMap (fun i => (s.point i).exchange?) = c.transcript (served.map call) := by
  -- on the calls from the last one to the first
  induction served using List.reverseRecOn with
  | nil => exact fun _ _ => rfl
  | append_singleton served i ih =>
    intro rest horder hdone
    rw [List.append_assoc] at horder
    obtain ⟨r, hr⟩ := hdone i (List.mem_append_right _ List.mem_cons_self)
    have hreply := (hs.answered i r hr).eq_reply served hs.nodup horder
    rw [List.filterMap_append, ih horder fun j hj => hdone j (List.mem_append_left _ hj),
      List.map_append, Content.transcript_append]
    refine congrArg (_ ++ ·) ?_
    simp only [List.filterMap_cons, hr, FileCall.exchange?, hreply]
    rfl

omit [DecidableEq ι] in
/-- All calls that had the lock are done, except for the one that has it. -/
theorem Sound.exists_served (hs : s.Sound c) :
    ∃ served, s.order = served ++ s.holder.toList ∧ ∀ i ∈ served, ∃ r, s.point i = .done r := by
  cases hholder : s.holder with
  | none =>
    refine ⟨s.order, (List.append_nil _).symm, fun i hi => ?_⟩
    refine FileCall.exists_done ((hs.entered i).mp hi) fun hinside => ?_
    exact nomatch ((hs.inside i).mpr hinside).symm.trans hholder
  | some j =>
    obtain ⟨served, horder, -⟩ := hs.held j hholder
    refine ⟨served, horder, fun i hi => ?_⟩
    have hmem : i ∈ s.order := horder ▸ List.mem_append_left _ hi
    refine FileCall.exists_done ((hs.entered i).mp hmem) fun hinside => ?_
    -- a call gets the lock once
    obtain rfl := Option.some.inj (((hs.inside i).mpr hinside).symm.trans hholder)
    have hnodup := hs.nodup
    rw [horder] at hnodup
    exact (List.nodup_append.mp hnodup).2.2 i hi i List.mem_cons_self rfl

omit [DecidableEq ι] in
theorem Sound.log_eq (hs : s.Sound c) :
    ∃ served, s.order = served ++ s.holder.toList ∧ s.log = c.transcript (served.map call) ∧
      ∀ i r, s.point i = .done r → i ∈ served := by
  obtain ⟨served, horder, hdone⟩ := hs.exists_served
  refine ⟨served, horder, ?_, fun i r hr => ?_⟩
  · have hholder : s.holder.toList.filterMap (fun i => (s.point i).exchange?) = [] := by
      cases hholder : s.holder with
      | none => rfl
      | some j =>
        have hnone := FileCall.exchange?_of_isInside ((hs.inside j).mp hholder)
        exact List.filterMap_cons_none hnone
    rw [log, horder, List.filterMap_append, hholder, List.append_nil]
    exact hs.filterMap_exchange? served horder hdone
  · have hmem : i ∈ s.order := by
      rw [hs.entered, hr]
      rfl
    rw [horder] at hmem
    refine (List.mem_append.mp hmem).resolve_right fun h => ?_
    have hinside := (hs.inside i).mp (Option.mem_toList.mp h)
    rw [hr] at hinside
    cases hinside

end Sharing

/-! ## First writers -/

/-- Between two resets of a counter that was fresh at first, its increments are numbered from one,
and exactly one of those who ask whether they are first is told so, if anyone asks; what is asked of
other counters and of entries does not matter.  This holds of a registry in memory, whatever is
asked of it, and of calls on one registry file, whose order is the one in which they get its
lock. -/
theorem first_writer_of_period {c : Content} {name : String} (fresh : c.counter name = 0) :
    (∀ qs, Gated name (c.transcript qs) ∧
      exchangesOf name (c.transcript qs) =
        c.transcript (qs.filter fun q => q.counter? = some name)) ∧
    ∀ (ι : Type) [DecidableEq ι] (call : ι → Request) (file : Option Bytes) (s : Sharing call),
      Content.ofBytes (file.getD []) = .ok c → Sharing.Reachable call file s →
      Gated name s.log ∧ s.order.Nodup ∧
      ∃ served, s.order = served ++ s.holder.toList ∧
        (∀ i r, s.point i = .done r → i ∈ served) ∧
        s.log = c.transcript (served.map call) ∧
        exchangesOf name s.log =
          c.transcript ((served.map call).filter fun q => q.counter? = some name) := by
  refine ⟨fun qs => ⟨Content.gated_transcript fresh qs, Content.exchangesOf_transcript rfl qs⟩, ?_⟩
  intro ι _ call file s hfile h
  have hs := h.sound hfile
  obtain ⟨served, horder, hlog, hdone⟩ := hs.log_eq
  rw [hlog]
  exact ⟨Content.gated_transcript fresh _, hs.nodup, served, horder, hdone, rfl,
    Content.exchangesOf_transcript rfl _⟩

/-- Two callers who take turns on the counter of a file that is not there; and a registry in memory
where the counter is reset after the first turn. -/
theorem race_first_writer_of_period :
    (∃ s : Sharing Sharing.race, Sharing.Reachable Sharing.race none s ∧
      s.log = [turn "turns" 0, turn "turns" 1] ∧ IsNumbered "turns" s.log) ∧
    IsPeriod "turns"
      (Content.empty.transcript
        [.increment "turns", .zero "turns", .put "key" "value", .increment "turns"])
      [⟨.put "key" "value", .ok ()⟩, turn "turns" 0] ∧
    IsNumbered "turns" [⟨.put "key" "value", .ok ()⟩, turn "turns" 0] := by
  obtain ⟨hmemory, hfile⟩ :=
    first_writer_of_period (show Content.empty.counter "turns" = 0 from rfl)
  have hperiod : IsPeriod "turns"
      (Content.empty.transcript
        [.increment "turns", .zero "turns", .put "key" "value", .increment "turns"])
      [⟨.put "key" "value", .ok ()⟩, turn "turns" 0] := by
    refine ⟨[turn "turns" 0, ⟨.zero "turns", .ok ()⟩], [], rfl, ?_,
      .inr ⟨[turn "turns" 0], _, rfl, rfl⟩, .inl rfl⟩
    simp [turn]
  refine ⟨?_, hperiod, (hmemory _).1 _ hperiod (by decide)⟩
  have h₁ : Sharing.Reachable Sharing.race none _ := .step .start 0 0 rfl
  have h₂ : Sharing.Reachable Sharing.race none _ := .step h₁ 0 0 rfl
  have hempty : Content.ofBytes ((none : Option Bytes).getD []) = .ok .empty := Content.ofBytes_nil
  obtain ⟨s, later, hs, horder, hdone⟩ := h₂.exists_done hempty
  obtain ⟨hgated, hnodup, served, hserved, hmem, hlog, -⟩ :=
    hfile (Fin 2) Sharing.race none s hempty hs
  have hall : ∀ i, i ∈ served := fun i => (hdone i).elim (hmem i)
  have hboth : served = [0, 1] := by
    have horder' := Sharing.order_race horder hnodup fun i =>
      hserved ▸ List.mem_append_left _ (hall i)
    -- nobody has the lock any more
    rw [hserved] at hnodup
    cases hholder : s.holder with
    | none =>
      rw [hserved, hholder] at horder'
      exact (List.append_nil _).symm.trans horder'
    | some i =>
      rw [hholder] at hnodup
      exact absurd rfl ((List.nodup_append.mp hnodup).2.2 i (hall i) i List.mem_cons_self)
  rw [hboth] at hlog
  refine ⟨s, hs, hlog, hgated _ ⟨[], [], (List.append_nil _).symm, ?_, .inl rfl, .inl rfl⟩ ?_⟩
  · rw [hlog]
    simp [Content.transcript, Sharing.race]
  · rw [hlog]
    decide

end Primacy.Registry
