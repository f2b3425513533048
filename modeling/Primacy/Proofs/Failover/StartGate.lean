/-
  Primacy.Proofs.Failover.StartGate

  Any number of clients that start and stop a role over one registry.  A move answers one request of
  one call, and all exchanges are written down.  Whoever raises the counter of the role first since
  it was zeroed is let in and launches the role; all others are sent away, also when that launch has
  failed.
-/
import Mathlib.Logic.Function.Basic
import Primacy.Proofs.Failover.SingleFlight

namespace Primacy.Failover

/-! ## Calls -/

/-- What clients set out to do about a role. -/
inductive Errand (role : String) where
  | start (args : List String)
  | stop (m : Member) (of : m.role = role)

namespace Errand

variable {role : String}

/-- What an errand that succeeds comes to. -/
@[reducible] def Result : Errand role → Type
  | start _ => Bool
  | stop .. => Unit

def talk : (e : Errand role) → Talk (Except Error e.Result)
  | start args => (Driver.startRoleOnce role args).run
  | stop m _ => (Driver.stopRole m).run

end Errand

namespace Starting

variable {role : String} {args : List String} {past : List Exchange}

/-- The counter of the role was raised, and told the turn. -/
def turn (role : String) (r : Except RegistryError Int) : Exchange :=
  ⟨.registry (.increment (Registry.startedCounter role)), r⟩

/-- The role was launched. -/
def launching (role : String) (args : List String) (r : Except Error Int) : Exchange :=
  ⟨.launch role args, r⟩

/-- What a start comes to that launched the role. -/
def launched (role : String) (args : List String) (r : Except Error Int) : Except Error Bool :=
  match failure? (launching role args r) with
  | none => .ok true
  | some e => .error e

/-- How a start goes on when it is told its turn. -/
def afterTurn (role : String) (args : List String) :
    Except RegistryError Int → Talk (Except Error Bool)
  | .error e => .done (.error (.registry e))
  | .ok n =>
    if n = 1 then .ask (.launch role args) fun r => .done (launched role args r)
    else .done (.ok false)

theorem run_startRoleOnce (role : String) (args : List String) :
    (Driver.startRoleOnce role args).run =
      .ask (.registry (.increment (Registry.startedCounter role))) (afterTurn role args) := by
  show Dialogue.ask _ _ = Dialogue.ask _ _
  congr 1
  funext r
  cases r with
  | error e => rfl
  | ok n =>
    show ExceptT.run (if decide (n = 1) = true then _ else _) = afterTurn role args (.ok n)
    rw [afterTurn]
    by_cases hn : n = 1
    · rw [if_pos (decide_eq_true hn), if_pos hn, ExceptT.run_bind, Driver.run_launch]
      show Dialogue.ask _ _ = Dialogue.ask _ _
      congr 1
      funext r
      show (match failure? (launching role args r) with
        | none => _
        | some e => _ : Talk _) >>= _ = _
      rw [launched]
      cases failure? (launching role args r) <;> rfl
    · rw [if_neg (by simpa using hn), if_neg hn]
      rfl

/-- How far a start has got: what it has been through, and what is left. -/
inductive Stands (role : String) (args : List String) :
    List Exchange → Talk (Except Error Bool) → Prop where
  | arriving : Stands role args []
      (.ask (.registry (.increment (Registry.startedCounter role))) (afterTurn role args))
  | failed (e : RegistryError) :
      Stands role args [turn role (.error e)] (.done (.error (.registry e)))
  | refused {n : Int} (hn : n ≠ 1) : Stands role args [turn role (.ok n)] (.done (.ok false))
  | inside : Stands role args [turn role (.ok 1)]
      (.ask (.launch role args) fun r => .done (launched role args r))
  | ended (r : Except Error Int) : Stands role args [turn role (.ok 1), launching role args r]
      (.done (launched role args r))

theorem stands_of_leads {rest : Talk (Except Error Bool)}
    (h : (Driver.startRoleOnce role args).run.Leads past rest) : Stands role args past rest := by
  rw [run_startRoleOnce] at h
  -- one answer after the other
  rcases h.of_ask with ⟨rfl, rfl⟩ | ⟨r, past, rfl, hr⟩
  · exact .arriving
  cases r with
  | error e =>
    obtain ⟨rfl, rfl⟩ := hr.of_done
    exact .failed e
  | ok n =>
    rw [afterTurn] at hr
    split at hr
    · next hn =>
      subst hn
      rcases hr.of_ask with ⟨rfl, rfl⟩ | ⟨r, past, rfl, hlaunch⟩
      · exact .inside
      · obtain ⟨rfl, rfl⟩ := hlaunch.of_done
        exact .ended r
    · next hn =>
      obtain ⟨rfl, rfl⟩ := hr.of_done
      exact .refused hn

/-- A stop neither raises a counter nor launches a role. -/
theorem stopRole_asks (m : Member) : Confined
    (fun q => (∀ name, q ≠ .registry (.increment name)) ∧ ∀ role args, q ≠ .launch role args)
    (Driver.stopRole m) := by
  refine .bind (.ask ⟨nofun, nofun⟩) fun r => .bind (.orThrow r) fun _ => ?_
  exact .registry (Dialogue.asks_request ⟨nofun, nofun⟩)

/-! ## What was written down -/

/-- An exchange, and the call that it is of. -/
abbrev Entry : Type := CallId × Exchange

/-- The counter of the role is zeroed. -/
def zeroes (role : String) : Request → Bool
  | .registry (.zero name) => name == Registry.startedCounter role
  | _ => false

/-- The counter of the role is raised. -/
def raises (role : String) : Request → Bool
  | .registry (.increment name) => name == Registry.startedCounter role
  | _ => false

/-- The entries since the counter of the role was last zeroed, the latest first. -/
def sinceZero (role : String) (log : List Entry) : List Entry :=
  log.takeWhile fun x => !zeroes role x.2.request

/-- How often the counter of the role was raised since it was last zeroed. -/
def turns (role : String) (log : List Entry) : Nat :=
  (sinceZero role log).countP fun x => raises role x.2.request

/-- Whoever raised the counter was told how often it had been raised by then. -/
def Told (role : String) : List Entry → Prop
  | [] => True
  | x :: log => (∀ r, x.2 = turn role r → r = .ok (turns role log + 1)) ∧ Told role log

section

variable {log : List Entry} {x : Entry}

theorem sinceZero_cons_of_zeroes (h : zeroes role x.2.request = true) :
    sinceZero role (x :: log) = [] :=
  List.takeWhile_cons_of_neg (by rw [h]; decide)

theorem sinceZero_cons (h : zeroes role x.2.request = false) :
    sinceZero role (x :: log) = x :: sinceZero role log :=
  List.takeWhile_cons_of_pos (by rw [h]; rfl)

theorem turns_cons_of_zeroes (h : zeroes role x.2.request = true) :
    turns role (x :: log) = 0 := by
  rw [turns, sinceZero_cons_of_zeroes h]
  rfl

theorem turns_cons (h : zeroes role x.2.request = false) :
    turns role (x :: log) = turns role log + if raises role x.2.request then 1 else 0 := by
  rw [turns, sinceZero_cons h, List.countP_cons]
  rfl

theorem raises_turn (r : Except RegistryError Int) : raises role (turn role r).request = true :=
  beq_self_eq_true _

theorem zeroes_iff {q : Request} :
    zeroes role q = true ↔ q = .registry (.zero (Registry.startedCounter role)) := by
  refine ⟨fun h => ?_, fun h => h ▸ beq_self_eq_true _⟩
  cases q with
  | registry q =>
    cases q with
    | zero name => exact congrArg (fun name => Request.registry (.zero name)) (eq_of_beq h)
    | _ => cases h
  | _ => cases h

theorem raises_iff {q : Request} :
    raises role q = true ↔ q = .registry (.increment (Registry.startedCounter role)) := by
  refine ⟨fun h => ?_, fun h => h ▸ beq_self_eq_true _⟩
  cases q with
  | registry q =>
    cases q with
    | increment name =>
      exact congrArg (fun name => Request.registry (.increment name)) (eq_of_beq h)
    | _ => cases h
  | _ => cases h

theorem eq_turn_of_raises {y : Exchange} (h : raises role y.request = true) :
    ∃ r, y = turn role r := by
  obtain ⟨q, r⟩ := y
  obtain rfl := raises_iff.mp h
  exact ⟨r, rfl⟩

theorem turn_inj {r r' : Except RegistryError Int} (h : turn role r = turn role r') : r = r' :=
  eq_of_heq (Primacy.Exchange.mk.inj h).2

/-- If the counter was raised since it was zeroed, exactly one call was told that it was first. -/
theorem Told.first_cases (h : Told role log) :
    (turns role log = 0 ∧ ∀ j, (j, turn role (.ok 1)) ∉ sinceZero role log) ∨
    (0 < turns role log ∧ ∃ j, ∀ k, (k, turn role (.ok 1)) ∈ sinceZero role log ↔ k = j) := by
  -- on the log: its latest entry zeroes the counter, raises it, or does neither
  induction log with
  | nil => exact .inl ⟨rfl, fun _ => nofun⟩
  | cons x log ih =>
    obtain ⟨hx, hlog⟩ := h
    cases hzero : zeroes role x.2.request with
    | true =>
      rw [turns_cons_of_zeroes hzero, sinceZero_cons_of_zeroes hzero]
      exact .inl ⟨rfl, fun _ => nofun⟩
    | false =>
      rw [turns_cons hzero, sinceZero_cons hzero]
      cases hraises : raises role x.2.request with
      | true =>
        obtain ⟨id, y⟩ := x
        obtain ⟨r, rfl⟩ := eq_turn_of_raises hraises
        obtain rfl := hx r rfl
        refine .inr ⟨Nat.succ_pos _, ?_⟩
        rcases ih hlog with ⟨hnone, hnobody⟩ | ⟨hsome, j, hj⟩
        · refine ⟨id, fun k => ?_⟩
          rw [List.mem_cons, or_iff_left (hnobody k), hnone]
          exact ⟨fun heq => congrArg Prod.fst heq, fun heq => heq ▸ rfl⟩
        · refine ⟨j, fun k => ?_⟩
          rw [List.mem_cons, hj, or_iff_right_iff_imp]
          intro heq
          have hone := Except.ok.inj (turn_inj (congrArg Prod.snd heq))
          omega
      | false =>
        have hne : ∀ k, (k, turn role (.ok 1)) ≠ x := by
          rintro k rfl
          cases hraises.symm.trans (raises_turn _)
        simp only [List.mem_cons, hne, false_or]
        exact ih hlog

end

/-! ## Clients and their moves -/

end Starting

/-- A call to start or to stop a role. -/
structure RoleCall (role : String) where
  errand : Errand role
  /-- The requests that were answered, the earliest first. -/
  past : List Exchange
  rest : Talk (Except Error errand.Result)

namespace RoleCall

variable {role : String}

def begin (e : Errand role) : RoleCall role := ⟨e, [], e.talk⟩

/-- One more request is answered. -/
def on (k : RoleCall role) {q : Request} (next : q.Reply → Talk (Except Error k.errand.Result))
    (r : q.Reply) : RoleCall role :=
  { k with past := k.past ++ [⟨q, r⟩], rest := next r }

end RoleCall

/-- The calls to start and to stop a role, the registry that they share, and what they have been
through, the latest first. -/
structure Starting (role : String) where
  registry : Registry.Content
  call : CallId → Option (RoleCall role)
  log : List Starting.Entry

namespace Starting

variable {role : String}

def fresh (role : String) (c : Registry.Content) : Starting role := ⟨c, fun _ => none, []⟩

inductive Move (role : String) where
  /-- A client makes a call. -/
  | call (id : CallId) (e : Errand role)
  /-- The request of a call is answered. -/
  | answer (id : CallId) (x : Surroundings)
  /-- Others write to the registry, but not to the counter of the role. -/
  | outside (c : Registry.Content)

def setCall (g : Starting role) (id : CallId) (k : RoleCall role) : Starting role :=
  { g with call := Function.update g.call id (some k) }

/-- What comes of a call when its request is answered. -/
def answer? (g : Starting role) (id : CallId) (x : Surroundings) (k : RoleCall role) :
    Option (Starting role) :=
  match k.rest with
  | .ask q next => (reply? g.registry x q).map fun (r, c) =>
      { g.setCall id (k.on next r) with registry := c, log := (id, ⟨q, r⟩) :: g.log }
  | .done _ => none

/-- The state after a move, if the move can be made. -/
def move? (g : Starting role) : Move role → Option (Starting role)
  | .call id e => if (g.call id).isNone then some (g.setCall id (.begin e)) else none
  | .answer id x => (g.call id).bind (g.answer? id x)
  | .outside c =>
    if c.counter (Registry.startedCounter role) =
        g.registry.counter (Registry.startedCounter role) then
      some { g with registry := c }
    else none

/-- The states that moves lead to. -/
inductive Reachable (g₀ : Starting role) : Starting role → Prop where
  | refl : Reachable g₀ g₀
  | move {g g' : Starting role} {m : Move role} (before : Reachable g₀ g)
      (made : g.move? m = some g') : Reachable g₀ g'

/-- The state after moves made one after the other. -/
def run? (g : Starting role) : List (Move role) → Option (Starting role)
  | [] => some g
  | m :: ms => (g.move? m).bind (·.run? ms)

theorem Reachable.run {g₀ g g' : Starting role} {ms : List (Move role)} (h : Reachable g₀ g)
    (made : g.run? ms = some g') : Reachable g₀ g' := by
  induction ms generalizing g with
  | nil => exact Option.some.inj made ▸ h
  | cons m ms ih =>
    obtain ⟨g₁, h₁, hrest⟩ := Option.bind_eq_some_iff.mp made
    exact ih (.move h h₁) hrest

/-- `g.Makes m g'` spells out how the move `m` leads from `g` to `g'`. -/
inductive Makes (g : Starting role) : Move role → Starting role → Prop where
  | call {id : CallId} {e : Errand role} (new : g.call id = none) :
      g.Makes (.call id e) (g.setCall id (.begin e))
  | answer {id : CallId} {x : Surroundings} {k : RoleCall role} {q : Request}
      {next : q.Reply → Talk (Except Error k.errand.Result)} {r : q.Reply}
      {c : Registry.Content} (here : g.call id = some k) (rest : k.rest = .ask q next)
      (answers : Answers g.registry x q r c) :
      g.Makes (.answer id x)
        { g.setCall id (k.on next r) with registry := c, log := (id, ⟨q, r⟩) :: g.log }
  | outside {c : Registry.Content} (kept : c.counter (Registry.startedCounter role) =
      g.registry.counter (Registry.startedCounter role)) :
      g.Makes (.outside c) { g with registry := c }

variable {g g' : Starting role} {m : Move role} {id : CallId} {k : RoleCall role}

theorem makes_of_move? (h : g.move? m = some g') : g.Makes m g' := by
  cases m with
  | call id e =>
    simp only [move?, Option.ite_none_right_eq_some, Option.isNone_iff_eq_none] at h
    obtain ⟨hnew, heq⟩ := h
    cases heq
    exact .call hnew
  | answer id x =>
    obtain ⟨k, here, hanswer⟩ := Option.bind_eq_some_iff.mp h
    rw [answer?] at hanswer
    split at hanswer
    · next q next rest =>
      obtain ⟨⟨r, c⟩, hreply, heq⟩ := Option.map_eq_some_iff.mp hanswer
      cases heq
      exact .answer here rest (answers_of_reply? hreply)
    · exact nomatch hanswer
  | outside c =>
    simp only [move?, Option.ite_none_right_eq_some] at h
    obtain ⟨hkept, heq⟩ := h
    cases heq
    exact .outside hkept

@[simp] theorem setCall_call_self (g : Starting role) (id : CallId) (k : RoleCall role) :
    (g.setCall id k).call id = some k := by
  simp [setCall]

theorem setCall_call_other (g : Starting role) {id id' : CallId} (k : RoleCall role)
    (h : id' ≠ id) : (g.setCall id k).call id' = g.call id' := by
  simp [setCall, h]

/-- The call whose request is answered goes on with the answer. -/
theorem Makes.of_answer {x : Surroundings} {e : Errand role} {past : List Exchange} {q : Request}
    {next : q.Reply → Talk (Except Error e.Result)} (h : g.Makes (.answer id x) g')
    (here : g.call id = some ⟨e, past, .ask q next⟩) :
    ∃ r c, Answers g.registry x q r c ∧
      g'.call id = some ⟨e, past ++ [⟨q, r⟩], next r⟩ := by
  cases h with
  | @answer _ _ k q next r c here' hrest answers =>
    cases here.symm.trans here'
    cases hrest
    exact ⟨r, c, answers, setCall_call_self g id _⟩

/-! ## The counter and what was written down -/

/-- What was written down of one call, the latest first. -/
def entriesOf (log : List Entry) (id : CallId) : List Exchange :=
  (log.filter (·.1 == id)).map (·.2)

theorem mem_entriesOf {log : List Entry} {id : CallId} {x : Exchange} :
    x ∈ entriesOf log id ↔ (id, x) ∈ log := by
  constructor
  · intro h
    obtain ⟨⟨id', x'⟩, hmem, rfl⟩ := List.mem_map.mp h
    obtain ⟨hlog, hid⟩ := List.mem_filter.mp hmem
    obtain rfl := eq_of_beq hid
    exact hlog
  · exact fun h => List.mem_map_of_mem (List.mem_filter.mpr ⟨h, beq_self_eq_true id⟩)

/-- What a call has been through, the latest first; nothing if it was not made yet. -/
def pastOf (g : Starting role) (id : CallId) : List Exchange :=
  (g.call id).elim [] (·.past.reverse)

structure Sound (g : Starting role) : Prop where
  leads : ∀ id k, g.call id = some k → k.errand.talk.Leads k.past k.rest
  written : ∀ id, entriesOf g.log id = g.pastOf id
  told : Told role g.log
  counted : g.registry.counter (Registry.startedCounter role) = turns role g.log

theorem sound_fresh {c : Registry.Content} (hc : c.counter (Registry.startedCounter role) = 0) :
    (fresh role c).Sound where
  leads _ _ h := nomatch h
  written _ := rfl
  told := trivial
  counted := hc

theorem forall_setCall {P : RoleCall role → Prop} (hk : P k)
    (hg : ∀ id k, g.call id = some k → P k) :
    ∀ id' k', (g.setCall id k).call id' = some k' → P k' := by
  intro id' k' here
  by_cases h : id' = id
  · subst h
    rw [setCall_call_self] at here
    exact Option.some.inj here ▸ hk
  · rw [setCall_call_other g k h] at here
    exact hg id' k' here

theorem counter?_ne_of_spares {q : Request} (hzeroes : zeroes role q = false)
    (hraises : raises role q = false) : q.counter? ≠ some (Registry.startedCounter role) := by
  intro h
  cases q with
  | registry q =>
    cases q with
    | put key value => cases h
    | get key => cases h
    | increment name => exact ne_of_beq_false hraises (Option.some.inj h)
    | zero name => exact ne_of_beq_false hzeroes (Option.some.inj h)
  | _ => cases h

/-- A call that is answered has its exchange written down next. -/
theorem entriesOf_cons (x : Entry) (log : List Entry) (id : CallId) :
    entriesOf (x :: log) id = if x.1 = id then x.2 :: entriesOf log id else entriesOf log id := by
  rw [entriesOf, List.filter_cons]
  by_cases h : x.1 = id
  · rw [if_pos (beq_iff_eq.mpr h), if_pos h]
    rfl
  · rw [if_neg (mt beq_iff_eq.mp h), if_neg h]
    rfl

theorem Makes.leads (h : g.Makes m g') (hg : g.Sound) :
    ∀ id k, g'.call id = some k → k.errand.talk.Leads k.past k.rest := by
  cases h with
  | call new => exact forall_setCall (.here _) hg.leads
  | @answer id x k q next r c here rest answers =>
    refine forall_setCall ?_ hg.leads
    have hleads := hg.leads id k here
    rw [rest] at hleads
    exact hleads.answer r
  | outside kept => exact hg.leads

theorem Makes.written (h : g.Makes m g') (hg : g.Sound) :
    ∀ id, entriesOf g'.log id = g'.pastOf id := by
  cases h with
  | @call id e new =>
    intro id'
    refine (hg.written id').trans ?_
    by_cases h : id' = id
    · subst h
      rw [pastOf, pastOf, new, setCall_call_self]
      rfl
    · rw [pastOf, pastOf, setCall_call_other g _ h]
  | @answer id x k q next r c here rest answers =>
    intro id'
    show entriesOf ((id, ⟨q, r⟩) :: g.log) id' = ((g.setCall id (k.on next r)).call id').elim _ _
    rw [entriesOf_cons, hg.written]
    by_cases h : id' = id
    · subst h
      rw [if_pos rfl, setCall_call_self, pastOf, here]
      exact List.reverse_concat.symm
    · rw [if_neg (Ne.symm h), setCall_call_other g _ h]
      rfl
  | outside kept => exact hg.written

/-- Every answer keeps the agreement between the counter and what was written down. -/
theorem Makes.tally (h : g.Makes m g') (hg : g.Sound) :
    Told role g'.log ∧
      g'.registry.counter (Registry.startedCounter role) = turns role g'.log := by
  cases h with
  | call new => exact ⟨hg.told, hg.counted⟩
  | @answer id x k q next r c here rest answers =>
    have hcounted := hg.counted
    refine ⟨⟨fun r' hr' => ?_, hg.told⟩, ?_⟩
    · obtain rfl : q = .registry (.increment (Registry.startedCounter role)) :=
        congrArg Primacy.Exchange.request hr'
      obtain rfl : r = r' := eq_of_heq (Primacy.Exchange.mk.inj hr').2
      rw [answers.increment.1, hcounted]
    · -- the answered request zeroes the counter, raises it, or is for something else
      show c.counter _ = turns role ((id, ⟨q, r⟩) :: g.log)
      cases hzeroes : zeroes role q with
      | true =>
        obtain rfl := zeroes_iff.mp hzeroes
        rw [turns_cons_of_zeroes hzeroes, answers.zero]
        rfl
      | false =>
        rw [turns_cons hzeroes]
        cases hraises : raises role q with
        | true =>
          obtain rfl := raises_iff.mp hraises
          rw [answers.increment.2, hcounted]
          rfl
        | false =>
          rw [answers.counter_eq (counter?_ne_of_spares hzeroes hraises), hcounted]
          rfl
  | outside kept => exact ⟨hg.told, kept.trans hg.counted⟩

theorem Makes.sound (h : g.Makes m g') (hg : g.Sound) : g'.Sound :=
  ⟨h.leads hg, h.written hg, (h.tally hg).1, (h.tally hg).2⟩

theorem Reachable.sound {c : Registry.Content} (h : Reachable (fresh role c) g)
    (hc : c.counter (Registry.startedCounter role) = 0) : g.Sound := by
  induction h with
  | refl => exact sound_fresh hc
  | move before made ih => exact (makes_of_move? made).sound ih

/-! ## Who is let in -/

/-- The call was the first to raise the counter of the role since it was last zeroed. -/
def First (g : Starting role) (id : CallId) : Prop :=
  (id, turn role (.ok 1)) ∈ sinceZero role g.log

/-- The call launches the role. -/
def IsLaunching (g : Starting role) (id : CallId) : Prop :=
  ∃ k args next, g.call id = some k ∧ k.rest = .ask (.launch role args) next

/-- The call has launched the role, since the counter was last zeroed. -/
def HasLaunched (g : Starting role) (id : CallId) : Prop :=
  ∃ args, (id, launching role args (.ok 0)) ∈ sinceZero role g.log

/-- The call is a start, and it returned a result. -/
def Returned (g : Starting role) (id : CallId) (result : Except Error Bool) : Prop :=
  ∃ args past, g.call id = some ⟨.start args, past, .done result⟩

/-- Another call is launching the role, or has launched it since the counter was last zeroed. -/
def Covered (g : Starting role) (id : CallId) : Prop :=
  ∃ j, j ≠ id ∧ (g.IsLaunching j ∨ g.HasLaunched j)

section

variable {j : CallId} {args : List String} {past : List Exchange} {rest : Talk (Except Error Bool)}
  {result : Except Error Bool} {r : Except Error Int}

theorem returned_iff (here : g.call j = some ⟨.start args, past, rest⟩) :
    g.Returned j result ↔ rest = .done result := by
  constructor
  · rintro ⟨args', past', here'⟩
    cases here.symm.trans here'
    rfl
  · rintro rfl
    exact ⟨args, past, here⟩

theorem Returned.unique {result' : Except Error Bool} (h : g.Returned j result)
    (h' : g.Returned j result') : result = result' := by
  obtain ⟨args, past, here⟩ := h
  exact Dialogue.done.inj ((returned_iff here).mp h')

theorem isLaunching_iff (here : g.call j = some ⟨.start args, past, rest⟩) :
    g.IsLaunching j ↔ ∃ args next, rest = .ask (.launch role args) next := by
  constructor
  · rintro ⟨k, args', next, here', hrest⟩
    cases here.symm.trans here'
    exact ⟨args', next, hrest⟩
  · rintro ⟨args', next, hrest⟩
    exact ⟨⟨.start args, past, rest⟩, args', next, here, hrest⟩

/-- What was written down of a call is what it has been through. -/
theorem Sound.mem_past (hg : g.Sound) {x : Exchange} (h : (j, x) ∈ g.log) :
    ∃ k, g.call j = some k ∧ x ∈ k.past := by
  have hentry : x ∈ g.pastOf j := hg.written j ▸ mem_entriesOf.mpr h
  rw [pastOf] at hentry
  cases hcall : g.call j with
  | none =>
    rw [hcall] at hentry
    cases hentry
  | some k =>
    rw [hcall] at hentry
    exact ⟨k, rfl, List.mem_reverse.mp hentry⟩

theorem mem_log_of_mem_sinceZero {log : List Entry} {x : Entry} (h : x ∈ sinceZero role log) :
    x ∈ log :=
  (List.takeWhile_sublist _).subset h

/-- Whoever was let in is launching the role, or has tried to. -/
theorem Sound.first_call (hg : g.Sound) (first : g.First j) :
    ∃ args, g.call j = some ⟨.start args, [turn role (.ok 1)],
        .ask (.launch role args) fun r => .done (launched role args r)⟩ ∨
      ∃ r, g.call j = some ⟨.start args, [turn role (.ok 1), launching role args r],
        .done (launched role args r)⟩ := by
  obtain ⟨⟨e, past, rest⟩, here, hturn⟩ := hg.mem_past (mem_log_of_mem_sinceZero first)
  have hleads := hg.leads j _ here
  cases e with
  | stop m of =>
    have hspared := (((stopRole_asks m).leads hleads).1 _ hturn).1
    exact absurd rfl (hspared (Registry.startedCounter role))
  | start args =>
    refine ⟨args, ?_⟩
    have hstands := stands_of_leads hleads
    cases hstands with
    | arriving => cases hturn
    | failed e => cases turn_inj (List.mem_singleton.mp hturn)
    | refused hn => exact absurd (Except.ok.inj (turn_inj (List.mem_singleton.mp hturn))).symm hn
    | inside => exact .inl here
    | ended r => exact .inr ⟨r, here⟩

/-- Since the counter was zeroed, whoever was let in has done all that it did. -/
theorem Sound.hasLaunched (hg : g.Sound) (first : g.First j)
    (here : g.call j = some ⟨.start args, [turn role (.ok 1), launching role args (.ok 0)], rest⟩) :
    g.HasLaunched j := by
  -- the turn is the earlier one of the two entries of the call, so the later one is there as well
  have hprefix : entriesOf (sinceZero role g.log) j <+: entriesOf g.log j :=
    ((List.takeWhile_prefix _).filter _).map _
  have hpast : entriesOf g.log j = [launching role args (.ok 0), turn role (.ok 1)] := by
    rw [hg.written j, pastOf, here]
    rfl
  rw [hpast] at hprefix
  rcases List.prefix_cons_iff.mp hprefix with hnil | ⟨earlier, hcons, -⟩
  · have hturn := mem_entriesOf.mpr first
    rw [hnil] at hturn
    cases hturn
  · refine ⟨args, mem_entriesOf.mp ?_⟩
    rw [hcons]
    exact List.mem_cons_self

/-- A launch fails with an error, or with an exit code that is not zero. -/
theorem launched_cases (r : Except Error Int) :
    r = .ok 0 ∨ ∃ e, launched role args r = .error e := by
  cases r with
  | error e => exact .inr ⟨e, rfl⟩
  | ok code =>
    by_cases hcode : code = 0
    · exact .inl (congrArg Except.ok hcode)
    · refine .inr ⟨.failover (.launchFailed role code), ?_⟩
      rw [launched, launching, failure?, if_pos hcode]

/-- Whoever was let in is launching the role, or has launched it, or its launch has failed. -/
theorem Sound.first_cases (hg : g.Sound) (first : g.First j) :
    (g.IsLaunching j ∧ ∀ result, ¬ g.Returned j result) ∨
    (g.HasLaunched j ∧ g.Returned j (.ok true)) ∨
    ∃ e, g.Returned j (.error e) ∧ ¬ g.IsLaunching j ∧ ¬ g.HasLaunched j := by
  obtain ⟨args, here | ⟨r, here⟩⟩ := hg.first_call first
  · refine .inl ⟨(isLaunching_iff here).mpr ⟨args, _, rfl⟩, fun result hresult => ?_⟩
    cases (returned_iff here).mp hresult
  have hresult : r = .ok 0 ∨ ∃ e, launched role args r = .error e := launched_cases r
  rcases hresult with rfl | ⟨e, he⟩
  · exact .inr (.inl ⟨hg.hasLaunched first here, (returned_iff here).mpr rfl⟩)
  · refine .inr (.inr ⟨e, (returned_iff here).mpr (congrArg _ he), fun hlaunching => ?_, ?_⟩)
    · obtain ⟨args', next, hnext⟩ := (isLaunching_iff here).mp hlaunching
      cases hnext
    · rintro ⟨args', hlaunched⟩
      obtain ⟨k, here', hmem⟩ := hg.mem_past (mem_log_of_mem_sinceZero hlaunched)
      cases here.symm.trans here'
      rcases List.mem_cons.mp hmem with hturn | hlaunch
      · cases congrArg Primacy.Exchange.request hturn
      · cases List.mem_singleton.mp hlaunch
        cases he

/-- Another call covers for the one that is sent away: the call that was let in, unless its launch
has failed, or one that was let in before the counter was last zeroed. -/
theorem Sound.covered_iff (hg : g.Sound) (first : g.First j) (sole : ∀ k, g.First k → k = j)
    (idle : ¬ g.IsLaunching id ∧ ¬ g.HasLaunched id) (other : j ≠ id) :
    g.Covered id ↔ (∀ e, ¬ g.Returned j (.error e)) ∨
      ∃ k, ¬ g.First k ∧ (g.IsLaunching k ∨ g.HasLaunched k) := by
  constructor
  · rintro ⟨k, -, hk⟩
    by_cases hfirst : g.First k
    · obtain rfl := sole k hfirst
      refine .inl fun e hfailed => ?_
      rcases hg.first_cases first with ⟨-, hnone⟩ | ⟨-, hdone⟩ | ⟨-, -, hout, hnot⟩
      · exact hnone _ hfailed
      · cases hdone.unique hfailed
      · exact hk.elim hout hnot
    · exact .inr ⟨k, hfirst, hk⟩
  · rintro (hfine | ⟨k, -, hk⟩)
    · refine ⟨j, other, ?_⟩
      rcases hg.first_cases first with ⟨hlaunching, -⟩ | ⟨hlaunched, -⟩ | ⟨e, hfailed, -⟩
      · exact .inl hlaunching
      · exact .inr hlaunched
      · exact absurd hfailed (hfine e)
    · refine ⟨k, ?_, hk⟩
      rintro rfl
      exact hk.elim idle.1 idle.2

/-- A start that was not told its turn yet has done nothing. -/
theorem Sound.arriving (hg : g.Sound) (here : g.call id = some ⟨.start args, [], rest⟩) :
    rest = .ask (.registry (.increment (Registry.startedCounter role))) (afterTurn role args) ∧
      ∀ x, (id, x) ∉ g.log := by
  constructor
  · have hstands := stands_of_leads (hg.leads id _ here)
    dsimp only at hstands
    generalize hpast : ([] : List Exchange) = past at hstands
    cases hstands with
    | arriving => rfl
    | _ => cases hpast
  · intro x hx
    obtain ⟨k, here', hmem⟩ := hg.mem_past hx
    cases here.symm.trans here'
    cases hmem

/-- Whoever is told its turn is sent away if the counter was raised since it was last zeroed, and
launches the role otherwise. -/
theorem Sound.refused_iff_turns (hg : g.Sound)
    (here : g.call id = some ⟨.start args, [],
      .ask (.registry (.increment (Registry.startedCounter role))) (afterTurn role args)⟩)
    {x : Surroundings} (made : g.Makes (.answer id x) g') :
    (g'.Returned id (.ok false) ↔ 0 < turns role g.log) ∧
      (g'.IsLaunching id ↔ turns role g.log = 0) := by
  obtain ⟨r, c, answers, there⟩ := made.of_answer here
  obtain ⟨rfl, -⟩ := answers.increment
  rw [hg.counted] at there
  rw [returned_iff there, isLaunching_iff there, afterTurn]
  by_cases hnone : turns role g.log = 0
  · rw [if_pos (by omega)]
    exact ⟨iff_of_false nofun (by omega), iff_of_true ⟨_, _, rfl⟩ hnone⟩
  · rw [if_neg (by omega)]
    exact ⟨iff_of_true rfl (by omega), iff_of_false nofun hnone⟩

/-- A start that is told its turn is sent away if and only if some call was let in since the counter
of the role was last zeroed; otherwise it launches the role.  The call that was let in is another
one, and there is one only: it is launching the role, has launched it, or has failed to. -/
theorem refused_iff {c : Registry.Content} (hc : c.counter (Registry.startedCounter role) = 0)
    (h : Reachable (fresh role c) g) (here : g.call id = some ⟨.start args, [], rest⟩)
    {x : Surroundings} (made : g.move? (.answer id x) = some g') :
    (g'.Returned id (.ok false) ↔ ∃ j, g.First j) ∧
    ((∀ j, ¬ g.First j) → g'.IsLaunching id) ∧
    ∀ j, g.First j → j ≠ id ∧ (∀ k, g.First k → k = j) ∧
      (g.IsLaunching j ∨ g.Returned j (.ok true) ∨ ∃ e, g.Returned j (.error e)) ∧
      (g.Covered id ↔ (∀ e, ¬ g.Returned j (.error e)) ∨
        ∃ k, ¬ g.First k ∧ (g.IsLaunching k ∨ g.HasLaunched k)) := by
  have hg := h.sound hc
  obtain ⟨hrest, hspared⟩ := hg.arriving here
  subst hrest
  obtain ⟨hreturned, hlaunching⟩ := hg.refused_iff_turns here (makes_of_move? made)
  have hfirst : ∀ j, g.First j → j ≠ id := by
    rintro j hj rfl
    exact hspared _ (mem_log_of_mem_sinceZero hj)
  have hidle : ¬ g.IsLaunching id ∧ ¬ g.HasLaunched id := by
    refine ⟨fun hout => ?_, ?_⟩
    · obtain ⟨args', next, hnext⟩ := (isLaunching_iff here).mp hout
      cases hnext
    · rintro ⟨args', hlaunched⟩
      exact hspared _ (mem_log_of_mem_sinceZero hlaunched)
  rcases hg.told.first_cases with ⟨hnone, hnobody⟩ | ⟨hsome, j, hj⟩
  · refine ⟨?_, fun _ => hlaunching.mpr hnone, fun j hj => absurd hj (hnobody j)⟩
    rw [hreturned]
    exact iff_of_false (fun hsome => Nat.ne_of_gt hsome hnone) fun ⟨j, hj⟩ => hnobody j hj
  · have hjFirst : g.First j := (hj j).mpr rfl
    refine ⟨hreturned.trans (iff_of_true hsome ⟨j, hjFirst⟩),
      fun hnobody => absurd hjFirst (hnobody j), fun k hk => ?_⟩
    obtain rfl := (hj k).mp hk
    have hsole : ∀ k', g.First k' → k' = k := fun k' => (hj k').mp
    refine ⟨hfirst k hk, hsole, ?_, hg.covered_iff hk hsole hidle (hfirst k hk)⟩
    rcases hg.first_cases hk with ⟨hout, -⟩ | ⟨-, hdone⟩ | ⟨e, hfailed, -⟩
    · exact .inl hout
    · exact .inr (.inl hdone)
    · exact .inr (.inr ⟨e, hfailed⟩)

end

/-! ## A start behind another one -/

/-- Launches end with an exit code. -/
def exitsWith (code : Int) : Surroundings
  | .launch .. => some (.ok code)
  | _ => none

/-- A client starts the role, and another one comes after the launch. -/
def secondStart (code : Int) : List (Move "lead") :=
  [.call 0 (.start []), .answer 0 (exitsWith code), .answer 0 (exitsWith code),
    .call 1 (.start [])]

/-- The clients after moves on an empty registry. -/
def clientsAfter (ms : List (Move "lead")) : Starting "lead" :=
  ((fresh "lead" .empty).run? ms).getD (fresh "lead" .empty)

theorem secondStart_refused_iff :
    (clientsAfter (secondStart 0)).First 0 ∧
    (clientsAfter (secondStart 0 ++ [.answer 1 (exitsWith 0)])).Returned 1 (.ok false) ∧
    (clientsAfter (secondStart 0)).Covered 1 := by
  have hempty : Registry.Content.empty.counter (Registry.startedCounter "lead") = 0 := rfl
  have hrun : (fresh "lead" .empty).run? (secondStart 0) = some (clientsAfter (secondStart 0)) :=
    rfl
  have here : (clientsAfter (secondStart 0)).call 1 = some ⟨.start [], [], _⟩ := rfl
  have hmade : (clientsAfter (secondStart 0)).move? (.answer 1 (exitsWith 0)) =
      some (clientsAfter (secondStart 0 ++ [.answer 1 (exitsWith 0)])) := rfl
  obtain ⟨hrefused, -, hfirst⟩ := refused_iff hempty (Reachable.refl.run hrun) here hmade
  have hzero : (clientsAfter (secondStart 0)).First 0 :=
    List.mem_cons_of_mem _ List.mem_cons_self
  obtain ⟨-, -, -, hcovered⟩ := hfirst 0 hzero
  refine ⟨hzero, hrefused.mpr ⟨0, hzero⟩, hcovered.mpr (.inl fun e hfailed => ?_)⟩
  have hdone : (clientsAfter (secondStart 0)).Returned 0 (.ok true) := ⟨_, _, rfl⟩
  cases hdone.unique hfailed

/-- The second client is sent away although nobody has launched the role or is launching it. -/
theorem not_covered_of_failed_launch : ¬ ∀ (role : String) (c : Registry.Content)
    (g g' : Starting role) (id : CallId) (args : List String) (rest : Talk (Except Error Bool))
    (x : Surroundings), c.counter (Registry.startedCounter role) = 0 →
    Reachable (fresh role c) g → g.call id = some ⟨.start args, [], rest⟩ →
    g.move? (.answer id x) = some g' → g'.Returned id (.ok false) → g.Covered id := by
  intro hall
  have hrun : (fresh "lead" .empty).run? (secondStart 1) = some (clientsAfter (secondStart 1)) :=
    rfl
  have here : (clientsAfter (secondStart 1)).call 1 = some ⟨.start [], [], _⟩ := rfl
  have hmade : (clientsAfter (secondStart 1)).move? (.answer 1 (exitsWith 0)) =
      some (clientsAfter (secondStart 1 ++ [.answer 1 (exitsWith 0)])) := rfl
  obtain ⟨j, hj, hcovers⟩ := hall "lead" .empty _ _ 1 [] _ _ rfl (Reachable.refl.run hrun) here
    hmade ⟨_, _, rfl⟩
  rcases hcovers with ⟨k, args, next, hk, hnext⟩ | ⟨args, hlaunched⟩
  · match j with
    | 0 =>
      cases hk
      cases hnext
    | 1 => exact hj rfl
    | j + 2 => cases hk
  · have hlog : sinceZero "lead" (clientsAfter (secondStart 1)).log =
        [(0, launching "lead" [] (.ok 1)), (0, turn "lead" (.ok 1))] := rfl
    rw [hlog] at hlaunched
    simp [launching, turn] at hlaunched

end Starting

end Primacy.Failover
