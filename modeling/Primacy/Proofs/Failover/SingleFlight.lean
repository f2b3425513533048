/-
  Primacy.Proofs.Failover.SingleFlight

  Any number of clients that cycle the nodes of one kind over one registry.  A move answers one
  request of one call, so a run is an interleaving of the calls at the points where they wait.  The
  gate counter tells whether somebody is inside: at most one call is, and what calls do to nodes,
  the disk and the entries they do inside.
-/
import Mathlib.Logic.Function.Basic
import Primacy.Proofs.Failover.Flight

namespace Primacy.Failover

/-! ## A counter at a gate -/

/-- The counter `n` is zero exactly while nobody is inside, and there is room for one. -/
structure Guards {ι : Type} (n : Int) (inside : ι → Prop) : Prop where
  sole : ∀ i j, inside i → inside j → i = j
  raised : ∀ i, inside i → 1 ≤ n
  lowered : (∀ i, ¬ inside i) → n = 0

namespace Guards

variable {ι : Type} {n : Int} {inside inside' : ι → Prop}

theorem congr (h : Guards n inside) (hin : ∀ i, inside' i ↔ inside i) : Guards n inside' where
  sole i j hi hj := h.sole i j ((hin i).mp hi) ((hin j).mp hj)
  raised i hi := h.raised i ((hin i).mp hi)
  lowered hnone := h.lowered fun i hi => hnone i ((hin i).mpr hi)

theorem eq_zero_iff (h : Guards n inside) : n = 0 ↔ ∀ i, ¬ inside i := by
  refine ⟨fun hn i hi => ?_, h.lowered⟩
  have hraised := h.raised i hi
  omega

theorem of_none (hnone : ∀ i, ¬ inside i) : Guards 0 inside where
  sole i _ hi := absurd hi (hnone i)
  raised i hi := absurd hi (hnone i)
  lowered _ := rfl

/-- Whoever raises the counter from zero is alone inside. -/
theorem enter (h : Guards n inside) {k : ι} (hn : n = 0)
    (hin : ∀ i, inside' i ↔ i = k ∨ inside i) : Guards (n + 1) inside' := by
  have hnone := h.eq_zero_iff.mp hn
  have heq : ∀ i, inside' i → i = k := fun i hi => ((hin i).mp hi).resolve_right (hnone i)
  exact
    { sole := fun i j hi hj => (heq i hi).trans (heq j hj).symm
      raised := fun _ _ => by omega
      lowered := fun hout => absurd ((hin k).mpr (.inl rfl)) (hout k) }

/-- Whoever raises it further changes nothing. -/
theorem turnAway (h : Guards n inside) (hn : n ≠ 0) : Guards (n + 1) inside where
  sole := h.sole
  raised i hi := by
    have hraised := h.raised i hi
    omega
  lowered hnone := absurd (h.lowered hnone) hn

/-- Whoever is inside leaves. -/
theorem leave (h : Guards n inside) {k : ι} (hk : inside k) (hout : ¬ inside' k)
    (hin : ∀ i, i ≠ k → (inside' i ↔ inside i)) : Guards 0 inside' := by
  refine of_none fun i hi => ?_
  by_cases hik : i = k
  · exact hout (hik ▸ hi)
  · exact hik (h.sole i k ((hin i hik).mp hi) hk)

end Guards

/-! ## Clients and their moves -/

/-- Tells calls apart. -/
abbrev CallId := Nat

/-- The calls that cycle the nodes of one kind, and the registry that they share. -/
structure Cycling (t : Target) where
  registry : Registry.Content
  flight : CallId → Option Flight

namespace Cycling

variable {t : Target}

def fresh (t : Target) (c : Registry.Content) : Cycling t := ⟨c, fun _ => none⟩

inductive Move where
  /-- A client makes a call. -/
  | call (id : CallId) (d : Driver)
  /-- The request of a call is answered.  With `broken`, nobody waits for the answer any more. -/
  | answer (id : CallId) (x : Surroundings) (broken : Bool)
  /-- A call is dropped or breaks down, and its request comes to nothing. -/
  | breakOff (id : CallId)
  /-- Others write to the registry, but not to the gate counter. -/
  | outside (c : Registry.Content)

def Move.isBreakOff : Move → Bool
  | answer _ _ broken => broken
  | breakOff _ => true
  | _ => false

def setFlight (g : Cycling t) (id : CallId) (f : Flight) : Cycling t :=
  { g with flight := Function.update g.flight id (some f) }

/-- What comes of a call when its request is answered. -/
def answer? (g : Cycling t) (id : CallId) (x : Surroundings) (broken : Bool) (f : Flight) :
    Option (Cycling t) :=
  match f.broken, f.rest with
  | false, .ask q next => (reply? g.registry x q).map fun (r, c) =>
      { g.setFlight id (f.on next r broken) with registry := c }
  | _, _ => none

/-- The state after a move, if the move can be made. -/
def move? (g : Cycling t) : Move → Option (Cycling t)
  | .call id d => if (g.flight id).isNone then some (g.setFlight id (.begin d t)) else none
  | .answer id x broken => (g.flight id).bind (g.answer? id x broken)
  | .breakOff id => (g.flight id).bind fun f =>
      if f.isGoing then some (g.setFlight id { f with broken := true }) else none
  | .outside c =>
    if c.counter t.gateCounter = g.registry.counter t.gateCounter then
      some { g with registry := c }
    else none

/-- The states that allowed moves lead to. -/
inductive Reachable (allowed : Move → Prop) (g₀ : Cycling t) : Cycling t → Prop where
  | refl : Reachable allowed g₀ g₀
  | move {g g' : Cycling t} {m : Move} (before : Reachable allowed g₀ g) (may : allowed m)
      (made : g.move? m = some g') : Reachable allowed g₀ g'

/-- The state after moves made one after the other. -/
def run? (g : Cycling t) : List Move → Option (Cycling t)
  | [] => some g
  | m :: ms => (g.move? m).bind (·.run? ms)

theorem Reachable.run {allowed : Move → Prop} {g₀ g g' : Cycling t} {ms : List Move}
    (h : Reachable allowed g₀ g) (may : ∀ m ∈ ms, allowed m) (made : g.run? ms = some g') :
    Reachable allowed g₀ g' := by
  induction ms generalizing g with
  | nil => exact Option.some.inj made ▸ h
  | cons m ms ih =>
    obtain ⟨g₁, h₁, hrest⟩ := Option.bind_eq_some_iff.mp made
    exact ih (.move h (may m List.mem_cons_self) h₁) (fun m' hm => may m' (.tail m hm)) hrest

/-- `g.Makes m g'` spells out how the move `m` leads from `g` to `g'`. -/
inductive Makes (g : Cycling t) : Move → Cycling t → Prop where
  | call {id : CallId} {d : Driver} (new : g.flight id = none) :
      g.Makes (.call id d) (g.setFlight id (.begin d t))
  | answer {id : CallId} {x : Surroundings} {broken : Bool} {f : Flight} {q : Request}
      {next : q.Reply → Talk (Except Error CycleOutcome)} {r : q.Reply} {c : Registry.Content}
      (here : g.flight id = some f) (whole : f.broken = false) (rest : f.rest = .ask q next)
      (answers : Answers g.registry x q r c) :
      g.Makes (.answer id x broken)
        { g.setFlight id (f.on next r broken) with registry := c }
  | breakOff {id : CallId} {f : Flight} (here : g.flight id = some f) (going : f.isGoing = true) :
      g.Makes (.breakOff id) (g.setFlight id { f with broken := true })
  | outside {c : Registry.Content}
      (kept : c.counter t.gateCounter = g.registry.counter t.gateCounter) :
      g.Makes (.outside c) { g with registry := c }

theorem makes_of_move? {g g' : Cycling t} {m : Move} (h : g.move? m = some g') :
    g.Makes m g' := by
  cases m with
  | call id d =>
    simp only [move?, Option.ite_none_right_eq_some, Option.isNone_iff_eq_none] at h
    obtain ⟨hnew, heq⟩ := h
    cases heq
    exact .call hnew
  | answer id x broken =>
    obtain ⟨f, here, hanswer⟩ := Option.bind_eq_some_iff.mp h
    simp only [answer?] at hanswer
    split at hanswer
    · next q next whole rest =>
      obtain ⟨⟨r, c⟩, hreply, heq⟩ := Option.map_eq_some_iff.mp hanswer
      cases heq
      exact .answer here whole rest (answers_of_reply? hreply)
    · exact nomatch hanswer
  | breakOff id =>
    obtain ⟨f, here, hf⟩ := Option.bind_eq_some_iff.mp h
    simp only [Option.ite_none_right_eq_some] at hf
    obtain ⟨hgoing, heq⟩ := hf
    cases heq
    exact .breakOff here hgoing
  | outside c =>
    simp only [move?, Option.ite_none_right_eq_some] at h
    obtain ⟨hkept, heq⟩ := h
    cases heq
    exact .outside hkept

/-! ## Who is inside -/

variable {g g' : Cycling t} {m : Move} {id : CallId} {f : Flight}

/-- The call `id` raised the gate counter first, and has not zeroed it since. -/
def Inside (g : Cycling t) (id : CallId) : Prop := ∃ f, g.flight id = some f ∧ f.IsInside t

@[simp] theorem setFlight_flight_self (g : Cycling t) (id : CallId) (f : Flight) :
    (g.setFlight id f).flight id = some f := by
  simp [setFlight]

theorem setFlight_flight_other (g : Cycling t) {id id' : CallId} (f : Flight) (h : id' ≠ id) :
    (g.setFlight id f).flight id' = g.flight id' := by
  simp [setFlight, h]

theorem inside_of_flight (here : g.flight id = some f) : g.Inside id ↔ f.IsInside t := by
  refine ⟨?_, fun hin => ⟨f, here, hin⟩⟩
  rintro ⟨f', here', hin⟩
  obtain rfl := Option.some.inj (here.symm.trans here')
  exact hin

theorem inside_of_set (hflight : g'.flight = (g.setFlight id f).flight) :
    g'.Inside id ↔ f.IsInside t :=
  inside_of_flight (by rw [hflight, setFlight_flight_self])

theorem inside_of_other {id' : CallId} (hflight : g'.flight = (g.setFlight id f).flight)
    (h : id' ≠ id) : g'.Inside id' ↔ g.Inside id' := by
  rw [Inside, Inside, hflight, setFlight_flight_other g f h]

/-- A call that stays where it is, inside or outside, changes nothing about who is inside. -/
theorem inside_iff_of_set (hflight : g'.flight = (g.setFlight id f).flight)
    (hself : f.IsInside t ↔ g.Inside id) (id' : CallId) : g'.Inside id' ↔ g.Inside id' := by
  by_cases h : id' = id
  · subst h
    have here : g'.flight id' = some f := by rw [hflight, setFlight_flight_self]
    rw [inside_of_flight here, hself]
  · exact inside_of_other hflight h

structure Sound (g : Cycling t) : Prop where
  leads : ∀ id f, g.flight id = some f → (f.driver.cycle t).run.Leads f.past f.rest
  guards : Guards (g.registry.counter t.gateCounter) g.Inside

theorem Sound.stands (hg : g.Sound) (here : g.flight id = some f) : Stands t f.past f.rest :=
  Driver.stands_of_leads (hg.leads id f here)

theorem sound_fresh {c : Registry.Content} (hc : c.counter t.gateCounter = 0) :
    (fresh t c).Sound where
  leads _ _ h := nomatch h
  guards := by
    show Guards (c.counter t.gateCounter) _
    rw [hc]
    refine .of_none ?_
    rintro id ⟨f, hf, -⟩
    exact nomatch hf

/-- What holds of one call and of all others holds after that one was set. -/
theorem forall_setFlight_of_ne {P : Flight → Prop} (hf : P f)
    (hg : ∀ id' f', id' ≠ id → g.flight id' = some f' → P f') :
    ∀ id' f', (g.setFlight id f).flight id' = some f' → P f' := by
  intro id' f' here
  by_cases h : id' = id
  · subst h
    rw [setFlight_flight_self] at here
    exact Option.some.inj here ▸ hf
  · rw [setFlight_flight_other g f h] at here
    exact hg id' f' h here

theorem forall_setFlight {P : Flight → Prop} (hf : P f) (hg : ∀ id f, g.flight id = some f → P f) :
    ∀ id' f', (g.setFlight id f).flight id' = some f' → P f' :=
  forall_setFlight_of_ne hf fun id' f' _ => hg id' f'

theorem Makes.leads (h : g.Makes m g') (hg : g.Sound) :
    ∀ id f, g'.flight id = some f → (f.driver.cycle t).run.Leads f.past f.rest := by
  cases h with
  | call new => exact forall_setFlight (.here _) hg.leads
  | @answer id x broken f q next r c here whole rest answers =>
    refine forall_setFlight ?_ hg.leads
    have hleads := hg.leads id f here
    rw [rest] at hleads
    exact hleads.answer r
  | @breakOff id f here going => exact forall_setFlight (hg.leads id f here) hg.leads
  | outside kept => exact hg.leads

/-- An answer lets its call in, turns it away, keeps it inside or lets it out, and the counter goes
along. -/
theorem Makes.guards (h : g.Makes m g') (hg : g.Sound) :
    Guards (g'.registry.counter t.gateCounter) g'.Inside := by
  cases h with
  | @call id d new =>
    refine hg.guards.congr (inside_iff_of_set rfl (iff_of_false ?_ ?_))
    · exact fun hin => Flight.not_won_nil rfl hin.1
    · rintro ⟨f, hf, -⟩
      exact nomatch new.symm.trans hf
  | @answer id x broken f q next r c here whole rest answers =>
    have hself : g.Inside id ↔ f.IsInside t := inside_of_flight here
    rcases Flight.cases_of_ask (hg.stands here) rest with
      ⟨hpast, rfl⟩ | ⟨hin, rfl⟩ | ⟨spares, past, hpast, spared⟩
    · obtain ⟨rfl, hcounter⟩ := answers.increment
      have hout : ¬ f.IsInside t := fun hin => Flight.not_won_nil hpast hin.1
      show Guards (c.counter t.gateCounter) _
      rw [hcounter]
      by_cases hzero : g.registry.counter t.gateCounter = 0
      · refine hg.guards.enter (k := id) hzero fun i => ?_
        by_cases hi : i = id
        · subst hi
          refine iff_of_true ((inside_of_set rfl).mpr ?_) (.inl rfl)
          rw [Flight.isInside_on_arrival hpast]
          omega
        · exact (inside_of_other rfl hi).trans (or_iff_right hi).symm
      · refine (hg.guards.turnAway hzero).congr (inside_iff_of_set rfl ?_)
        rw [Flight.isInside_on_arrival hpast, hself]
        exact iff_of_false (by omega) hout
    · show Guards (c.counter t.gateCounter) _
      rw [answers.zero]
      refine hg.guards.leave (k := id) (hself.mpr hin) ?_ fun i hi => inside_of_other rfl hi
      exact fun hin => Flight.not_isInside_of_reopening rfl ((inside_of_set rfl).mp hin)
    · show Guards (c.counter t.gateCounter) _
      rw [answers.counter_eq (by rw [spares]; exact nofun)]
      refine hg.guards.congr (inside_iff_of_set rfl (iff_of_true ?_ ?_))
      · exact Flight.isInside_on spares hpast spared
      · exact hself.mpr (Flight.isInside_of_spared hpast spared)
  | @breakOff id f here going =>
    exact hg.guards.congr (inside_iff_of_set rfl (inside_of_flight here).symm)
  | @outside c kept =>
    show Guards (c.counter t.gateCounter) _
    rw [kept]
    exact hg.guards

/-- Every move keeps the agreement between the counter and who is inside. -/
theorem Makes.sound (h : g.Makes m g') (hg : g.Sound) : g'.Sound := ⟨h.leads hg, h.guards hg⟩

theorem Reachable.sound {allowed : Move → Prop} {c : Registry.Content}
    (h : Reachable allowed (fresh t c) g) (hc : c.counter t.gateCounter = 0) : g.Sound := by
  induction h with
  | refl => exact sound_fresh hc
  | move before may made ih => exact (makes_of_move? made).sound ih

/-! ## Whole calls -/

theorem Makes.whole (h : g.Makes m g') (may : m.isBreakOff = false)
    (hg : ∀ id f, g.flight id = some f → f.broken = false) :
    ∀ id f, g'.flight id = some f → f.broken = false := by
  cases h with
  | call new => exact forall_setFlight rfl hg
  | answer here whole rest answers => exact forall_setFlight may hg
  | breakOff here going => exact nomatch may
  | outside kept => exact hg

/-- Where no call is broken off, calls are in progress until they return. -/
theorem Reachable.whole {c : Registry.Content}
    (h : Reachable (fun m => m.isBreakOff = false) (fresh t c) g) :
    ∀ id f, g.flight id = some f → f.broken = false := by
  induction h with
  | refl => exact fun _ _ h => nomatch h
  | move before may made ih => exact (makes_of_move? made).whole may ih

/-- An increment succeeds below the greatest value, whatever the surroundings. -/
theorem reply?_increment {c : Registry.Content} {name : String} (x : Surroundings)
    (h : c.counter name < Text.int64Max) : ∃ c', reply? c x (.registry (.increment name)) =
      some ((.ok (c.counter name + 1) : Except RegistryError Int), c') := by
  refine ⟨{ c with counters := c.counters.insert name (c.counter name + 1) }, ?_⟩
  simp only [reply?, Registry.Request.counter?, Registry.Content.answer, if_pos h]

theorem move?_answer {x : Surroundings} {broken : Bool} {q : Request}
    {next : q.Reply → Talk (Except Error CycleOutcome)} {r : q.Reply} {c : Registry.Content}
    (here : g.flight id = some f) (whole : f.broken = false) (rest : f.rest = .ask q next)
    (reply : reply? g.registry x q = some (r, c)) : g.move? (.answer id x broken) =
      some { g.setFlight id (f.on next r broken) with registry := c } := by
  rw [move?, here, Option.bind_some, answer?, whole, rest]
  show (reply? g.registry x q).map _ = _
  rw [reply]
  rfl

/-- While the counter is zero, whoever comes next gets inside. -/
theorem next_inside (hzero : g.registry.counter t.gateCounter = 0) (new : g.flight id = none)
    {d : Driver} (hd : d.settings.cycleNodes = true) (x : Surroundings) :
    ∃ g', g.run? [.call id d, .answer id x false] = some g' ∧ g'.Inside id := by
  have hbegin : (Flight.begin d t).rest =
      .ask (.registry (.increment t.gateCounter)) (d.admitted t) := by
    show (d.cycle t).run = _
    rw [d.run_cycle, if_pos hd]
  have hcall : g.move? (.call id d) = some (g.setFlight id (.begin d t)) := by
    rw [move?, new]
    rfl
  have hroom : (g.setFlight id (.begin d t)).registry.counter t.gateCounter < Text.int64Max := by
    show g.registry.counter t.gateCounter < _
    rw [hzero]
    decide
  obtain ⟨c, hreply⟩ := reply?_increment x hroom
  have hanswer : (g.setFlight id (.begin d t)).move? (.answer id x false) = _ :=
    move?_answer (setFlight_flight_self g id _) rfl hbegin hreply
  have hturn : g.registry.counter t.gateCounter + 1 = 1 := by
    rw [hzero]
    rfl
  rw [run?, hcall, Option.bind_some, run?, hanswer]
  refine ⟨_, rfl, ?_⟩
  exact (inside_of_set rfl).mpr ((Flight.isInside_on_arrival (f := .begin d t) rfl).mpr hturn)

/-- What one call does and the others may not do: at most one call is inside, nodes, the disk and
the entries are changed by that one only, whoever else comes is told that it is not its turn and
has done nothing, and once all calls have returned the next one gets inside. -/
theorem single_flight {c : Registry.Content} (hc : c.counter t.gateCounter = 0)
    (h : Reachable (fun m => m.isBreakOff = false) (fresh t c) g) :
    (∀ i j, g.Inside i → g.Inside j → i = j) ∧
    (∀ i f q next, g.flight i = some f → f.rest = .ask q next → q.isDeed = true → g.Inside i) ∧
    (∀ i f turn, g.flight i = some f → arrival t (.ok turn) ∈ f.past → turn ≠ 1 →
      f.past = [arrival t (.ok turn)] ∧ f.Returned (.ok .notMyTurn)) ∧
    ((∀ i f, g.flight i = some f → ∃ result, f.Returned result) →
      g.registry.counter t.gateCounter = 0 ∧
      ∀ id d x, g.flight id = none → d.settings.cycleNodes = true →
        ∃ g', g.run? [.call id d, .answer id x false] = some g' ∧ g'.Inside id) := by
  have hg := h.sound hc
  refine ⟨hg.guards.sole, ?_, ?_, ?_⟩
  · intro i f q next here hrest hdeed
    rcases Flight.arriving_or_isInside (hg.stands here) hrest with ⟨-, rfl⟩ | hin
    · exact nomatch hdeed
    · exact ⟨f, here, hin⟩
  · intro i f turn here hlost hturn
    obtain ⟨hpast, hrest⟩ := Flight.eq_of_lost (hg.stands here) hlost hturn
    exact ⟨hpast, h.whole i f here, hrest⟩
  · intro hover
    have hzero : g.registry.counter t.gateCounter = 0 := by
      refine hg.guards.lowered ?_
      rintro i ⟨f, here, hin⟩
      obtain ⟨result, -, hrest⟩ := hover i f here
      obtain ⟨past, r, hpast⟩ := Flight.reopening_of_done (hg.stands here) hrest hin.1
      exact Flight.not_isInside_of_reopening hpast hin
    exact ⟨hzero, fun id d x new hd => next_inside hzero new hd x⟩

/-- A driver that may cycle nodes, on a roster without any. -/
def idler : Driver := ⟨⟨"host", 7, "lead", "a"⟩, [], { cycleNodes := true }⟩

/-- Nothing goes wrong. -/
def calm : Surroundings := fun _ => none

/-- A call gets inside. -/
def enterMoves : List Move := [.call 0 idler, .answer 0 calm false]

/-- A second one comes while it is there. -/
def rivalMoves : List Move := enterMoves ++ [.call 1 idler, .answer 1 calm false]

/-- The first one goes on until it returns. -/
def finishMoves : List Move := List.replicate 4 (.answer 0 calm false)

/-- The leads' clients after moves on an empty registry. -/
def leadsAfter (ms : List Move) : Cycling .lead :=
  ((fresh .lead .empty).run? ms).getD (fresh .lead .empty)

theorem rivals_single_flight :
    (leadsAfter rivalMoves).Inside 0 ∧ (∀ j, (leadsAfter rivalMoves).Inside j → j = 0) ∧
    (∀ f, (leadsAfter rivalMoves).flight 1 = some f → f.Returned (.ok .notMyTurn)) ∧
    (leadsAfter (rivalMoves ++ finishMoves)).registry.counter Target.lead.gateCounter = 0 := by
  have hempty : Registry.Content.empty.counter Target.lead.gateCounter = 0 := rfl
  have hall : ((rivalMoves ++ finishMoves).all fun m => !m.isBreakOff) = true := rfl
  have hwhole : ∀ m ∈ rivalMoves ++ finishMoves, m.isBreakOff = false := fun m hm => by
    simpa using List.all_eq_true.mp hall m hm
  have hrun : (fresh .lead .empty).run? rivalMoves = some (leadsAfter rivalMoves) := rfl
  have hend : (fresh .lead .empty).run? (rivalMoves ++ finishMoves) =
      some (leadsAfter (rivalMoves ++ finishMoves)) := rfl
  have hin : (leadsAfter rivalMoves).Inside 0 := by
    refine ⟨_, rfl, List.mem_cons_self, ?_⟩
    rintro ⟨r, hr⟩
    exact nomatch congrArg Primacy.Exchange.request (List.mem_singleton.mp hr)
  obtain ⟨hsole, -, hlost, -⟩ := single_flight hempty
    (Reachable.refl.run (fun m hm => hwhole m (List.mem_append_left _ hm)) hrun)
  obtain ⟨-, -, -, hover⟩ := single_flight hempty (Reachable.refl.run hwhole hend)
  refine ⟨hin, fun j hj => hsole j 0 hj hin, fun f here => ?_, (hover ?_).1⟩
  · refine (hlost 1 f 2 here ?_ (by decide)).2
    obtain rfl := Option.some.inj here
    exact List.mem_cons_self
  · intro i f here
    match i with
    | 0 =>
      obtain rfl := Option.some.inj here
      exact ⟨.ok .noVictims, rfl, rfl⟩
    | 1 =>
      obtain rfl := Option.some.inj here
      exact ⟨.ok .notMyTurn, rfl, rfl⟩
    | i + 2 => exact nomatch here


end Cycling

end Primacy.Failover
