/-
  Primacy.Proofs.Failover.Flight

  One call of a cycle, request by request.  What the world makes of a request is the world's
  business, but the counters of the registry never fail; a call is inside between the increment
  that tells it that it is the first and the zero that it makes last.
-/
import Primacy.Proofs.Failover.Gate

namespace Primacy.Failover

/-! ## What calls are answered -/

/-- What the world makes of requests.  For a registry request it says whether the registry fails. -/
abbrev Surroundings : Type := ∀ q : Request, Option q.Reply

/-- The answer to a request, and what the registry holds from then on.  The registry may fail, but
not on its counters. -/
def reply? (c : Registry.Content) (x : Surroundings) :
    (q : Request) → Option (q.Reply × Registry.Content)
  | .registry q =>
    match q.counter?, x (.registry q) with
    | none, some (.error e) => some (.error e, c)
    | _, _ =>
      match c.answer q with
      | .ok (a, c) => some (.ok a, c)
      | .error _ => none
  | q => (x q).map (·, c)

/-- `Answers c x q r c'`: with the registry holding `c` and the surroundings `x`, the request `q` is
answered `r` and leaves the registry with `c'`. -/
inductive Answers (c : Registry.Content) (x : Surroundings) :
    (q : Request) → q.Reply → Registry.Content → Prop where
  | served {q : Registry.Request} {a : q.Answer} {c' : Registry.Content}
      (answer : c.answer q = .ok (a, c')) : Answers c x (.registry q) (.ok a) c'
  | failed {q : Registry.Request} {e : RegistryError} (spares : q.counter? = none) :
      Answers c x (.registry q) (.error e) c
  | elsewhere {q : Request} {r : q.Reply} (away : ∀ q', q ≠ .registry q') (reply : x q = some r) :
      Answers c x q r c

theorem answers_of_reply? {c c' : Registry.Content} {x : Surroundings} {q : Request}
    {r : q.Reply} (h : reply? c x q = some (r, c')) : Answers c x q r c' := by
  cases q with
  | registry q =>
    simp only [reply?] at h
    split at h
    · next hq _ =>
      cases h
      exact .failed hq
    · split at h
      · next answer =>
        cases h
        exact .served answer
      · exact nomatch h
  | _ =>
    obtain ⟨a, hreply, heq⟩ := Option.map_eq_some_iff.mp h
    cases heq
    exact .elsewhere nofun hreply

variable {c c' : Registry.Content} {x : Surroundings} {q : Request} {r : q.Reply} {name : String}

/-- Requests that are not about a counter leave it alone. -/
theorem Answers.counter_eq (h : Answers c x q r c') (hq : q.counter? ≠ some name) :
    c'.counter name = c.counter name := by
  cases h with
  | served answer => exact Registry.Content.counter_of_answer answer hq
  | failed spares => rfl
  | elsewhere away reply => rfl

theorem Answers.increment {r : Except RegistryError Int}
    (h : Answers c x (.registry (.increment name)) r c') :
    r = .ok (c.counter name + 1) ∧ c'.counter name = c.counter name + 1 := by
  cases h with
  | @served _ n _ answer =>
    obtain ⟨rfl, hcounter⟩ := Registry.Content.answer_increment answer
    exact ⟨rfl, hcounter⟩
  | failed spares => exact nomatch spares
  | elsewhere away reply => exact absurd rfl (away _)

theorem Answers.zero {r : Except RegistryError Unit}
    (h : Answers c x (.registry (.zero name)) r c') : c'.counter name = 0 := by
  cases h with
  | served answer => exact Registry.Content.answer_zero answer
  | failed spares => exact nomatch spares
  | elsewhere away reply => exact absurd rfl (away _)

/-- Requests that set no entry leave them all alone. -/
theorem Answers.entries_eq (h : Answers c x q r c')
    (hq : ∀ key value, q ≠ .registry (.put key value)) : c'.entries = c.entries := by
  cases h with
  | @served q _ _ answer =>
    refine Registry.Content.entries_of_answer answer fun key value hput => ?_
    exact hq key value (congrArg _ hput)
  | failed spares => rfl
  | elsewhere away reply => rfl

/-- An entry is set, or the registry fails and all is as before. -/
theorem Answers.put {key value : String} {r : Except RegistryError Unit}
    (h : Answers c x (.registry (.put key value)) r c') :
    (r = .ok () ∧ c' = { c with entries := c.entries.insert key value }) ∨
    (∃ e, r = .error e) ∧ c' = c := by
  cases h with
  | served answer =>
    cases answer
    exact .inl ⟨rfl, rfl⟩
  | failed spares => exact .inr ⟨⟨_, rfl⟩, rfl⟩
  | elsewhere away reply => exact absurd rfl (away _)

theorem Answers.get {key : String} {value : Option String}
    (h : Answers c x (.registry (.get key)) (.ok value) c') : c.entries.get? key = value := by
  cases h with
  | served answer =>
    cases answer
    rfl
  | elsewhere away reply => exact absurd rfl (away _)

theorem Answers.clock {now : Int} (h : Answers c x .clock now c') : x .clock = some now := by
  cases h with
  | elsewhere away reply => exact reply

/-! ## Calls -/

/-- A call of a cycle. -/
structure Flight where
  driver : Driver
  /-- The requests that were answered, the earliest first. -/
  past : List Exchange
  /-- What is left to do, or was left when the call was broken off. -/
  rest : Talk (Except Error CycleOutcome)
  /-- The call was dropped, or it broke down. -/
  broken : Bool

namespace Flight

variable {t : Target} {f : Flight}

def begin (d : Driver) (t : Target) : Flight := ⟨d, [], (d.cycle t).run, false⟩

/-- The call is in progress. -/
def isGoing (f : Flight) : Bool :=
  match f.broken, f.rest with
  | false, .ask _ _ => true
  | _, _ => false

/-- The call returned a result. -/
def Returned (f : Flight) (result : Except Error CycleOutcome) : Prop :=
  f.broken = false ∧ f.rest = .done result

/-- The call was the first to raise the gate counter. -/
def Won (t : Target) (f : Flight) : Prop := arrival t (.ok 1) ∈ f.past

/-- The call has zeroed the gate counter. -/
def Reopened (t : Target) (f : Flight) : Prop := ∃ r, reopening t r ∈ f.past

def IsInside (t : Target) (f : Flight) : Prop := f.Won t ∧ ¬ f.Reopened t

/-- One more request is answered. -/
def on (f : Flight) {q : Request} (next : q.Reply → Talk (Except Error CycleOutcome))
    (r : q.Reply) (broken : Bool) : Flight :=
  { f with past := f.past ++ [⟨q, r⟩], rest := next r, broken := broken }

theorem not_won_nil (h : f.past = []) : ¬ f.Won t := by
  rw [Won, h]
  exact nofun

theorem isInside_of_spared {past : List Exchange} (h : f.past = arrival t (.ok 1) :: past)
    (spared : ∀ x ∈ past, x.request.counter? = none) : f.IsInside t := by
  refine ⟨?_, ?_⟩
  · rw [Won, h]
    exact List.mem_cons_self
  · rintro ⟨r, hr⟩
    rw [h] at hr
    rcases List.mem_cons.mp hr with heq | hr
    · exact nomatch congrArg Primacy.Exchange.request heq
    · exact nomatch spared _ hr

theorem not_isInside_of_reopening {past : List Exchange} {r : Except RegistryError Unit}
    (h : f.past = past ++ [reopening t r]) : ¬ f.IsInside t := by
  intro hin
  refine hin.2 ⟨r, ?_⟩
  rw [h]
  exact List.mem_append_right _ List.mem_cons_self

/-- Whoever makes a request is at the gate, or inside, where it makes any request but one about a
counter until it leaves. -/
theorem cases_of_ask {q : Request} {next : q.Reply → Talk (Except Error CycleOutcome)}
    (h : Stands t f.past f.rest) (hrest : f.rest = .ask q next) :
    (f.past = [] ∧ q = .registry (.increment t.gateCounter)) ∨
    (f.IsInside t ∧ q = .registry (.zero t.gateCounter)) ∨
    (q.counter? = none ∧ ∃ past, f.past = arrival t (.ok 1) :: past ∧
      ∀ x ∈ past, x.request.counter? = none) := by
  rw [hrest] at h
  generalize hpast : f.past = past at h ⊢
  cases h with
  | arriving => exact .inl ⟨rfl, rfl⟩
  | inside spared spares => exact .inr (.inr ⟨spares, _, rfl, spared⟩)
  | leaving spared => exact .inr (.inl ⟨isInside_of_spared hpast spared, rfl⟩)

theorem arriving_or_isInside {q : Request} {next : q.Reply → Talk (Except Error CycleOutcome)}
    (h : Stands t f.past f.rest) (hrest : f.rest = .ask q next) :
    (f.past = [] ∧ q = .registry (.increment t.gateCounter)) ∨ f.IsInside t := by
  rcases cases_of_ask h hrest with hgate | ⟨hin, -⟩ | ⟨-, past, hpast, spared⟩
  · exact .inl hgate
  · exact .inr hin
  · exact .inr (isInside_of_spared hpast spared)

/-- An answer to a request that is not about a counter keeps its call inside. -/
theorem isInside_on {q : Request} {next : q.Reply → Talk (Except Error CycleOutcome)}
    {r : q.Reply} {broken : Bool} {past : List Exchange} (spares : q.counter? = none)
    (hpast : f.past = arrival t (.ok 1) :: past) (spared : ∀ x ∈ past, x.request.counter? = none) :
    (f.on next r broken).IsInside t := by
  have hon : (f.on next r broken).past = arrival t (.ok 1) :: (past ++ [⟨q, r⟩]) := by
    rw [on, hpast]
    rfl
  refine isInside_of_spared hon fun x hx => ?_
  rcases List.mem_append.mp hx with hx | hx
  · exact spared x hx
  · rw [List.mem_singleton.mp hx]
    exact spares

/-- Whoever arrives at the gate gets inside exactly if it is told that it is the first. -/
theorem isInside_on_arrival
    {next : Except RegistryError Int → Talk (Except Error CycleOutcome)} {turn : Int}
    {broken : Bool} (hpast : f.past = []) :
    (f.on (q := .registry (.increment t.gateCounter)) next (.ok turn) broken).IsInside t ↔
      turn = 1 := by
  have hon : (f.on (q := .registry (.increment t.gateCounter)) next (.ok turn) broken).past =
      [arrival t (.ok turn)] := by
    rw [on, hpast]
    rfl
  refine ⟨fun hin => ?_, ?_⟩
  · have hwon := hin.1
    rw [Won, hon] at hwon
    have heq := List.mem_singleton.mp hwon
    simp only [arrival, Primacy.Exchange.mk.injEq, heq_eq_eq, true_and] at heq
    exact (Except.ok.inj heq).symm
  · rintro rfl
    exact isInside_of_spared hon nofun

/-- Whoever has won and returns a result has opened the gate again, last of all. -/
theorem reopening_of_done {result : Except Error CycleOutcome} (h : Stands t f.past f.rest)
    (hrest : f.rest = .done result) (hwon : f.Won t) :
    ∃ past r, f.past = past ++ [reopening t r] := by
  rw [hrest] at h
  rw [Won] at hwon
  generalize f.past = past at h hwon
  cases h with
  | disabled => exact nomatch hwon
  | failed =>
    rcases List.mem_singleton.mp hwon with heq
    exact nomatch heq
  | lost hturn =>
    refine absurd ?_ hturn
    have heq := List.mem_singleton.mp hwon
    simp only [arrival, Primacy.Exchange.mk.injEq, heq_eq_eq, true_and] at heq
    exact (Except.ok.inj heq).symm
  | @left past r spared => exact ⟨arrival t (.ok 1) :: past, r, rfl⟩

/-- Whoever was not the first to raise the counter has done nothing else and is told so. -/
theorem eq_of_lost {turn : Int} (h : Stands t f.past f.rest)
    (hlost : arrival t (.ok turn) ∈ f.past) (hturn : turn ≠ 1) :
    f.past = [arrival t (.ok turn)] ∧ f.rest = .done (.ok .notMyTurn) := by
  have harrival : ∀ {turn' : Int}, arrival t (.ok turn) = arrival t (.ok turn') →
      turn = turn' := by
    intro turn' heq
    simp only [arrival, Primacy.Exchange.mk.injEq, heq_eq_eq, true_and] at heq
    exact Except.ok.inj heq
  have hspared : ∀ {past : List Exchange}, (∀ x ∈ past, x.request.counter? = none) →
      arrival t (.ok turn) ∉ past := fun spared hx => nomatch spared _ hx
  generalize f.past = past at h hlost ⊢
  generalize f.rest = rest at h ⊢
  cases h with
  | disabled => exact nomatch hlost
  | arriving => exact nomatch hlost
  | failed => exact nomatch List.mem_singleton.mp hlost
  | lost _ =>
    obtain rfl := harrival (List.mem_singleton.mp hlost)
    exact ⟨rfl, rfl⟩
  | inside spared spares =>
    rcases List.mem_cons.mp hlost with heq | hlost
    · exact absurd (harrival heq) hturn
    · exact absurd hlost (hspared spared)
  | leaving spared =>
    rcases List.mem_cons.mp hlost with heq | hlost
    · exact absurd (harrival heq) hturn
    · exact absurd hlost (hspared spared)
  | left spared =>
    rcases List.mem_cons.mp hlost with heq | hlost
    · exact absurd (harrival heq) hturn
    · rcases List.mem_append.mp hlost with hlost | hlost
      · exact absurd hlost (hspared spared)
      · exact nomatch congrArg Primacy.Exchange.request (List.mem_singleton.mp hlost)

end Flight

end Primacy.Failover
