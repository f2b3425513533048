/-
  Primacy.Proofs.Failover.Overflow

  The time since the last cycle.  It is the difference of two times, none if the last cycle is still
  to come, as long as the difference fits 64 bits.  A last time in the far past does not: then the
  call breaks down inside, and nobody gets in after it.
-/
import Primacy.Proofs.Failover.Course
import Primacy.Proofs.Failover.Distance

namespace Primacy

theorem Text.int64?_bounds {s : String} {n : Int} (h : int64? s = some n) :
    int64Min ≤ n ∧ n ≤ int64Max := by
  obtain ⟨-, hrange⟩ := Option.filter_eq_some_iff.mp h
  simpa using hrange

theorem Clock.elapsed?_of_le {now earlier : Int} (low : Text.int64Min ≤ now - earlier)
    (high : now - earlier ≤ Text.int64Max) :
    elapsed? now earlier = some (max 0 (now - earlier)).toNat := by
  rw [elapsed?, if_pos ⟨low, high⟩]
  congr 1
  omega

theorem Clock.elapsed?_of_lt {now earlier : Int} (h : Text.int64Max < now - earlier) :
    elapsed? now earlier = none := by
  rw [elapsed?, if_neg fun hfits => by omega]

namespace Failover

variable {d : Driver} {t : Target} {past : List Exchange}
  {rest : Talk (Except Error CycleOutcome)}

/-! ## Looking at the clock -/

namespace Driver

/-- How a cycle goes on that knows the time and that of the last cycle. -/
def compared (d : Driver) (last now : Int) : Talk (Except Error Bool) :=
  match Clock.elapsed? now last with
  | some elapsed => .done (.ok (decide (d.settings.minCycleMillis ≤ elapsed)))
  | none => .ask .breakDown fun never => nomatch never

/-- How a cycle goes on that knows the time of the last cycle. -/
def dated (d : Driver) : Except Error (Option Int) → Talk (Except Error Bool)
  | .error e => .done (.error e)
  | .ok none => .ask (.sleep d.settings.graceMillis) fun _ => .done (.ok true)
  | .ok (some last) => .ask .clock fun now => d.compared last now

/-- How a cycle goes on that knows whether there was one before. -/
def reminded (d : Driver) (t : Target) :
    Except RegistryError (Option String) → Talk (Except Error Bool)
  | .error e => .done (.error (.registry e))
  | .ok none => .done (.ok true)
  | .ok (some _) => (registry (Registry.getInt64 t.cycledTimeKey)).run >>= d.dated

theorem run_mayCycle (d : Driver) (t : Target) :
    (d.mayCycle t).run = .ask (.registry (.get t.cycledKey)) (d.reminded t) := by
  unfold mayCycle
  rw [ExceptT.run_bind, run_registry_call]
  show Dialogue.ask _ _ = _
  congr 1
  funext r
  rcases r with e | _ | marker
  · rfl
  · rfl
  · show (registry (Registry.getInt64 t.cycledTimeKey) >>= _ : Procedure Bool).run = _
    rw [ExceptT.run_bind, reminded]
    congr 1
    funext r
    rcases r with e | _ | last <;> rfl

/-- Once a cycle knows whether it may, it does not break down any more. -/
theorem afterLook_asks (d : Driver) (t : Target) (may : Except Error Bool) :
    (d.afterLook t may).Asks (· ≠ .breakDown) := by
  have hlooks : ∀ q : Request, q.looks = true → q ≠ .breakDown := by
    rintro q hq rfl
    cases hq
  rcases may with e | _ | _
  · trivial
  · trivial
  · refine ((Looks.selectVictims d _ _).mono hlooks).bind fun r => ?_
    rcases r with e | vs
    · trivial
    · refine ((takeSteps_asks _).mono fun q hq => ?_).bind fun r => ?_
      · obtain ⟨m, -, hm⟩ := List.mem_flatMap.mp hq
        rcases mem_steps hm with rfl | ⟨-, rfl⟩ | rfl <;> exact nofun
      · rcases r with e | _
        · trivial
        · dsimp only [afterWork]
          split
          · trivial
          · refine ⟨nofun, fun now => ⟨nofun, fun r => ?_⟩⟩
            rcases r with e | _
            · trivial
            · refine ⟨nofun, fun r => ?_⟩
              rcases r with e | _ <;> trivial

end Driver

/-- What a call has been through that is about to compare the time with that of the last cycle. -/
def reckoning (t : Target) (marker raw : String) (now : Int) : List Exchange :=
  [arrival t (.ok 1), getting t.cycledKey (some marker), getting t.cycledTimeKey (some raw),
    ⟨.clock, now⟩]

theorem leads_compared (marker : String) {raw : String} {last : Int}
    (hlast : Text.int64? (Text.trimmed raw) = some last) (now : Int) :
    (d.mayCycle t).run.Leads [getting t.cycledKey (some marker),
      getting t.cycledTimeKey (some raw), ⟨.clock, now⟩] (d.compared last now) := by
  have hget : (registry (Registry.getInt64 t.cycledTimeKey)).run.Leads
      [getting t.cycledTimeKey (some raw)] (.done (.ok (some last))) := by
    rw [run_getInt64]
    refine .on ?_
    simp only [hlast]
    exact .here _
  have hdated : ((registry (Registry.getInt64 t.cycledTimeKey)).run >>= d.dated).Leads
      [getting t.cycledTimeKey (some raw)] (.ask .clock fun now => d.compared last now) := hget.bind
  rw [d.run_mayCycle]
  exact .on (hdated.answer now)

theorem eq_of_reckoning {marker raw : String} {last now : Int}
    (h : (d.cycle t).run.Leads (reckoning t marker raw now) rest)
    (hlast : Text.int64? (Text.trimmed raw) = some last) :
    rest = (d.compared last now >>= d.afterLook t) >>= reopen t := by
  have hinside := Driver.leads_inside h
  rw [d.run_cycleInside] at hinside
  have hlook := (leads_compared (d := d) (t := t) marker hlast now).bind (f := d.afterLook t)
  exact hinside.unique hlook.bind

theorem Driver.compared_of_none {last now : Int} (h : Clock.elapsed? now last = none) :
    ∃ next, d.compared last now = .ask .breakDown next := by
  rw [compared, h]
  exact ⟨_, rfl⟩

theorem elapsed?_of_breakDown {last now : Int} {look : List Exchange}
    {next : Empty → Talk (Except Error Bool)}
    (h : (d.compared last now).Leads look (.ask .breakDown next)) :
    look = [] ∧ Clock.elapsed? now last = none := by
  cases helapsed : Clock.elapsed? now last with
  | some elapsed =>
    rw [Driver.compared, helapsed] at h
    exact nomatch h.of_done.2
  | none =>
    rw [Driver.compared, helapsed] at h
    rcases h.of_ask with ⟨rfl, -⟩ | ⟨never, -⟩
    · exact ⟨rfl, rfl⟩
    · exact nomatch never

/-- Whoever knows that there was a cycle before breaks down once it has read two times that are too
far apart. -/
theorem reminded_of_breakDown {marker : String} {look : List Exchange}
    {next : Empty → Talk (Except Error Bool)}
    (h : (d.reminded t (.ok (some marker))).Leads look (.ask .breakDown next)) :
    ∃ raw last now, look = [getting t.cycledTimeKey (some raw), ⟨.clock, now⟩] ∧
      Text.int64? (Text.trimmed raw) = some last ∧ Clock.elapsed? now last = none := by
  rw [Driver.reminded, run_getInt64, Dialogue.ask_bind] at h
  rcases h.of_ask with ⟨-, hq⟩ | ⟨r, look₁, rfl, h₁⟩
  · exact nomatch hq
  rcases r with e | _ | raw
  · exact nomatch h₁.of_done.2
  · rcases h₁.of_ask with ⟨-, hq⟩ | ⟨-, look₂, -, h₂⟩
    · exact nomatch hq
    · exact nomatch h₂.of_done.2
  cases hlast : Text.int64? (Text.trimmed raw) with
  | none =>
    simp only [hlast] at h₁
    exact nomatch h₁.of_done.2
  | some last =>
    simp only [hlast] at h₁
    rcases h₁.of_ask with ⟨-, hq⟩ | ⟨now, look₂, rfl, h₂⟩
    · exact nomatch hq
    obtain ⟨rfl, hnone⟩ := elapsed?_of_breakDown h₂
    exact ⟨raw, last, now, rfl, hlast, hnone⟩

/-- Whoever looks whether it may cycle breaks down only where the times are too far apart. -/
theorem look_of_breakDown {look : List Exchange}
    {next : Empty → Talk (Except Error Bool)}
    (h : (d.mayCycle t).run.Leads look (.ask .breakDown next)) :
    ∃ marker raw last now, look = [getting t.cycledKey (some marker),
      getting t.cycledTimeKey (some raw), ⟨.clock, now⟩] ∧
      Text.int64? (Text.trimmed raw) = some last ∧ Clock.elapsed? now last = none := by
  rw [d.run_mayCycle] at h
  rcases h.of_ask with ⟨-, hq⟩ | ⟨r, look₁, rfl, h₁⟩
  · exact nomatch hq
  rcases r with e | _ | marker
  · exact nomatch h₁.of_done.2
  · exact nomatch h₁.of_done.2
  obtain ⟨raw, last, now, rfl, hlast, hnone⟩ := reminded_of_breakDown h₁
  exact ⟨marker, raw, last, now, rfl, hlast, hnone⟩

/-- A cycle breaks down only where the times are too far apart. -/
theorem reckoning_of_breakDown {next : Empty → Talk (Except Error CycleOutcome)}
    (h : (d.cycle t).run.Leads past (.ask .breakDown next)) :
    ∃ marker raw last now, past = reckoning t marker raw now ∧
      Text.int64? (Text.trimmed raw) = some last ∧ Clock.elapsed? now last = none := by
  obtain ⟨look, rfl⟩ : ∃ look, past = arrival t (.ok 1) :: look := by
    generalize hrest : (.ask .breakDown next : Talk (Except Error CycleOutcome)) = rest at h
    cases Driver.stands_of_leads h with
    | inside => exact ⟨_, rfl⟩
    | arriving => exact nomatch hrest
    | leaving => exact nomatch hrest
    | _ => exact nomatch hrest
  have hinside := Driver.leads_inside h
  rw [d.run_cycleInside] at hinside
  rcases of_reopen_leads hinside with ⟨i, hi, hgo⟩ | ⟨_, _, _, -, -, hgo⟩
  · cases i with
    | done outcome => exact nomatch hgo
    | ask q next' =>
      obtain ⟨rfl, -⟩ := Dialogue.ask.inj hgo
      rcases hi.of_bind with ⟨l, hl, hgo'⟩ | ⟨before, after, may, rfl, -, hafter⟩
      · cases l with
        | done may =>
          have hasks := d.afterLook_asks t may
          rw [Dialogue.done_bind] at hgo'
          rw [← hgo'] at hasks
          exact absurd rfl hasks.1
        | ask q next'' =>
          obtain ⟨rfl, -⟩ := Dialogue.ask.inj hgo'
          obtain ⟨marker, raw, last, now, rfl, hlast, hnone⟩ := look_of_breakDown hl
          exact ⟨marker, raw, last, now, rfl, hlast, hnone⟩
      · exact absurd rfl ((d.afterLook_asks t may).leads hafter).2.1
  · exact nomatch hgo

/-- All there is to be answered can be answered, but for a breakdown. -/
theorem nonempty_reply {q : Request} (h : q ≠ .breakDown) : Nonempty q.Reply := by
  cases q with
  | registry q => exact ⟨.error .brokenOff⟩
  | logs nodeDir => exact ⟨.ok []⟩
  | terminate role nodeDir => exact ⟨.ok ()⟩
  | launch role args => exact ⟨.ok 0⟩
  | writeLine dir path line => exact ⟨.ok ()⟩
  | sleep duration => exact ⟨()⟩
  | stopwatch => exact ⟨(0 : Nat)⟩
  | clock => exact ⟨(0 : Int)⟩
  | draw bound => exact ⟨(0 : Nat)⟩
  | breakDown => exact absurd rfl h

theorem Driver.afterLook_finishes (d : Driver) (t : Target) (may : Except Error Bool) :
    (d.afterLook t may >>= reopen t).Finishes := by
  refine Dialogue.Asks.finishes (P := (· ≠ .breakDown)) ?_ fun _ => nonempty_reply
  exact (d.afterLook_asks t may).bind fun outcome => ⟨nofun, fun _ => trivial⟩

/-! ## Calls that compare times -/

namespace Cycling

variable {g g' : Cycling t} {id : CallId} {f : Flight}

/-- A call that broke down never goes on. -/
theorem Reachable.stuck {allowed : Move → Prop} {next : Empty → Talk (Except Error CycleOutcome)}
    (h : Reachable allowed g g') (here : g.flight id = some f)
    (hrest : f.rest = .ask .breakDown next) :
    ∃ f', g'.flight id = some f' ∧ f'.past = f.past ∧ f'.rest = f.rest := by
  induction h with
  | refl => exact ⟨f, here, rfl, rfl⟩
  | move before may made ih =>
    obtain ⟨f₁, here₁, hpast₁, hrest₁⟩ := ih
    obtain ⟨f₂, here₂, hchange⟩ := (makes_of_move? made).change here₁
    rcases hchange with rfl | ⟨-, rfl | ⟨x, q, next', r, broken, rest, -, -⟩⟩
    · exact ⟨_, here₂, hpast₁, hrest₁⟩
    · exact ⟨_, here₂, hpast₁, hrest₁⟩
    · obtain ⟨rfl, -⟩ := Dialogue.ask.inj ((hrest.symm.trans hrest₁.symm).trans rest)
      exact nomatch r

/-- The move with which a call that won the gate returns leaves the counter at zero. -/
theorem counter_of_returns {m : Move} {f' : Flight} {result : Except Error CycleOutcome}
    (hg : g.Sound) (made : g.move? m = some g') (here : g.flight id = some f)
    (going : f.isGoing = true) (won : f.Won t) (here' : g'.flight id = some f')
    (returned : f'.Returned result) : g'.registry.counter t.gateCounter = 0 := by
  have hmakes := makes_of_move? made
  have hmove : Reachable (fun _ => True) g g' := .move .refl trivial made
  obtain ⟨f₁, here₁, won₁⟩ := hmove.won here won
  obtain rfl := Option.some.inj (here'.symm.trans here₁)
  have ended : f'.isGoing = false := by
    rw [Flight.isGoing, returned.1, returned.2]
  have hopen := (hmakes.sound hg).reopened_of_over here' ended returned.1 won₁
  exact (hmakes.of_reopened hg here going here' hopen).2

theorem won_of_reckoning {marker raw : String} {now : Int}
    (hpast : f.past = reckoning t marker raw now) : f.Won t := by
  rw [Flight.Won, hpast]
  exact List.mem_cons_self

theorem isInside_of_reckoning {marker raw : String} {now : Int}
    (hpast : f.past = reckoning t marker raw now) : f.IsInside t :=
  Flight.isInside_of_spared hpast (by simp [getting, Request.counter?, Registry.Request.counter?])

theorem breakDown_of_reckoning {marker raw : String} {last now : Int}
    (hleads : (f.driver.cycle t).run.Leads f.past f.rest)
    (hpast : f.past = reckoning t marker raw now)
    (hlast : Text.int64? (Text.trimmed raw) = some last)
    (hnone : Clock.elapsed? now last = none) : ∃ next, f.rest = .ask .breakDown next := by
  rw [hpast] at hleads
  obtain ⟨next, hnext⟩ := f.driver.compared_of_none hnone
  rw [eq_of_reckoning hleads hlast, hnext]
  exact ⟨_, rfl⟩

/-- Behind a call that broke down while it compared times the gate stays shut, and nobody else gets
in. -/
theorem Reachable.shut {c : Registry.Content} (hc : c.counter t.gateCounter = 0)
    (h : Reachable (fun _ => True) (fresh t c) g) (here : g.flight id = some f)
    {marker raw : String} {now : Int} (hpast : f.past = reckoning t marker raw now)
    {next : Empty → Talk (Except Error CycleOutcome)} (hrest : f.rest = .ask .breakDown next)
    (later : Reachable (fun _ => True) g g') :
    g'.registry.counter t.gateCounter ≠ 0 ∧ (∀ id', g'.Inside id' → id' = id) ∧
      ∀ f' result, g'.flight id = some f' → ¬ f'.Returned result := by
  obtain ⟨f₁, here₁, hpast₁, hrest₁⟩ := later.stuck here hrest
  have hg' := (h.trans later).sound hc
  have hin : g'.Inside id := ⟨f₁, here₁, isInside_of_reckoning (hpast₁.trans hpast)⟩
  refine ⟨fun hzero => hg'.guards.eq_zero_iff.mp hzero id hin, fun id' hid' => ?_, ?_⟩
  · exact hg'.guards.sole id' id hid' hin
  · rintro f' result here' ⟨-, hdone⟩
    obtain rfl := Option.some.inj (here'.symm.trans here₁)
    exact nomatch hdone.symm.trans (hrest₁.trans hrest)

/-- What a call makes of the time of the last cycle.  It breaks down if and only if the time since
then does not fit 64 bits.  If it fits, it is what it ought to be, none for a time to come; the call
is turned away or goes on by it, comes to an end if it is answered, and leaves the gate open when it
returns.  If it does not fit, the call never returns, and the gate is shut to all others for
good. -/
theorem cycle_reckons {c : Registry.Content} (hc : c.counter t.gateCounter = 0)
    (h : Reachable (fun _ => True) (fresh t c) g) (here : g.flight id = some f) :
    ((∃ next, f.rest = .ask .breakDown next) ↔ ∃ marker raw last now,
      f.past = reckoning t marker raw now ∧ Text.int64? (Text.trimmed raw) = some last ∧
      Clock.elapsed? now last = none) ∧
    ∀ marker raw last now, f.past = reckoning t marker raw now →
      Text.int64? (Text.trimmed raw) = some last → 0 ≤ now → now ≤ Text.int64Max →
      (now - last ≤ Text.int64Max →
        Clock.elapsed? now last = some (max 0 (now - last)).toNat ∧
        f.rest = (if f.driver.settings.minCycleMillis ≤ (max 0 (now - last)).toNat then
          f.driver.afterLook t (.ok true) >>= reopen t else reopen t (.ok .rateLimited)) ∧
        f.rest.Finishes ∧
        ∀ g₁ g₂ m f₁ f₂ result, Reachable (fun _ => True) g g₁ → g₁.move? m = some g₂ →
          g₁.flight id = some f₁ → f₁.isGoing = true → g₂.flight id = some f₂ →
          f₂.Returned result → g₂.registry.counter t.gateCounter = 0) ∧
      (Text.int64Max < now - last →
        (∃ next, f.rest = .ask .breakDown next) ∧
        ∀ g', Reachable (fun _ => True) g g' → g'.registry.counter t.gateCounter ≠ 0 ∧
          (∀ id', g'.Inside id' → id' = id) ∧
          ∀ f' result, g'.flight id = some f' → ¬ f'.Returned result) := by
  have hleads := (h.sound hc).leads id f here
  refine ⟨⟨?_, ?_⟩, ?_⟩
  · rintro ⟨next, hrest⟩
    rw [hrest] at hleads
    exact reckoning_of_breakDown hleads
  · rintro ⟨marker, raw, last, now, hpast, hlast, hnone⟩
    exact breakDown_of_reckoning hleads hpast hlast hnone
  intro marker raw last now hpast hlast hnow hmax
  obtain ⟨hlow, hhigh⟩ := Text.int64?_bounds hlast
  refine ⟨fun hfits => ?_, fun hlate => ?_⟩
  · have helapsed : Clock.elapsed? now last = some (max 0 (now - last)).toNat := by
      refine Clock.elapsed?_of_le ?_ hfits
      simp only [Text.int64Min, Text.int64Max] at hhigh ⊢
      omega
    rw [hpast] at hleads
    have hrest := eq_of_reckoning hleads hlast
    rw [Driver.compared, helapsed, Dialogue.done_bind] at hrest
    refine ⟨helapsed, ?_, ?_, ?_⟩
    · rw [hrest]
      by_cases henough : f.driver.settings.minCycleMillis ≤ (max 0 (now - last)).toNat
      · rw [if_pos henough, decide_eq_true henough]
      · rw [if_neg henough, decide_eq_false henough]
        rfl
    · rw [hrest]
      exact f.driver.afterLook_finishes t _
    · intro g₁ g₂ m f₁ f₂ result hlater made here₁ going here₂ returned
      obtain ⟨f', here', won⟩ := hlater.won here (won_of_reckoning hpast)
      obtain rfl := Option.some.inj (here'.symm.trans here₁)
      exact counter_of_returns ((h.trans hlater).sound hc) made here₁ going won here₂ returned
  · have hnone := Clock.elapsed?_of_lt hlate
    obtain ⟨next, hrest⟩ := breakDown_of_reckoning hleads hpast hlast hnone
    exact ⟨⟨next, hrest⟩, fun g' later => h.shut hc here hpast hrest later⟩

/-- A registry that tells of one cycle of the stores. -/
def datedContent (raw : String) : Registry.Content where
  entries := [(Target.store.cycledTimeKey, raw), (Target.store.cycledKey, "true")]
  counters := []

/-- The stores' clients once one of them has read the time of the last cycle and the time of day. -/
def datedAfter (raw : String) (now : Int) : Cycling .store :=
  ((fresh .store (datedContent raw)).run? (Timed.rounds 0 4 now)).getD (fresh .store .empty)

/-- A second after the last cycle the next one may begin. -/
theorem second_reckons : ∃ f, (datedAfter "5" 1005).flight 0 = some f ∧
    Clock.elapsed? 1005 5 = some 1000 ∧ f.rest.Finishes := by
  have hrun : (fresh .store (datedContent "5")).run? (Timed.rounds 0 4 1005) =
      some (datedAfter "5" 1005) := rfl
  have here : (datedAfter "5" 1005).flight 0 = some _ := rfl
  obtain ⟨-, hreckons⟩ := cycle_reckons rfl (Reachable.refl.run (fun _ _ => trivial) hrun) here
  obtain ⟨helapsed, -, hfinishes, -⟩ :=
    (hreckons "true" "5" 5 1005 rfl rfl (by decide) (by decide)).1 (by decide)
  exact ⟨_, rfl, helapsed, hfinishes⟩

/-- The least time there is breaks the next call down. -/
theorem not_finishes_of_reckoning : ¬ ∀ (t : Target) (c : Registry.Content) (g : Cycling t)
    (id : CallId) (f : Flight) (marker raw : String) (last now : Int),
    c.counter t.gateCounter = 0 → Reachable (fun _ => True) (fresh t c) g →
    g.flight id = some f → f.past = reckoning t marker raw now →
    Text.int64? (Text.trimmed raw) = some last → 0 ≤ now → now ≤ Text.int64Max →
    f.rest.Finishes := by
  intro hclaim
  have hrun : (fresh .store (datedContent "-9223372036854775808")).run? (Timed.rounds 0 4 5) =
      some (datedAfter "-9223372036854775808" 5) := rfl
  have hfinishes := hclaim .store _ _ 0 _ "true" "-9223372036854775808" Text.int64Min 5 rfl
    (Reachable.refl.run (fun _ _ => trivial) hrun) rfl rfl rfl (by decide) (by decide)
  cases hfinishes with
  | ask answerable later => exact answerable.elim nofun

end Cycling

end Failover

end Primacy
