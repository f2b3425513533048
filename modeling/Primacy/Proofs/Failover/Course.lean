/-
  Primacy.Proofs.Failover.Course

  The parts of a cycle.  Whoever gets inside looks whether it may cycle, chooses nodes, takes the
  steps that bring them down and up again, and tells that it did: first when, then that there was a
  cycle.  Where a part fails, the parts behind it are left out.
-/
import Primacy.Proofs.Failover.Order

namespace Primacy.Failover

variable {d : Driver} {t : Target} {vs : List Member} {past : List Exchange}
  {rest i : Talk (Except Error CycleOutcome)}

/-- The exchange in which the registry fails to set an entry. -/
def refusing (key value : String) (e : RegistryError) : Exchange :=
  ⟨.registry (.put key value), (.error e : Except RegistryError Unit)⟩

/-! ## One part after the other -/

namespace Driver

/-- How a cycle goes on when it is done with the nodes it chose. -/
def afterWork (t : Target) (vs : List Member) :
    Except Error Unit → Talk (Except Error CycleOutcome)
  | .error e => .done (.error e)
  | .ok () =>
    if vs.isEmpty then .done (.ok .noVictims)
    else .ask .clock fun now =>
      .ask (.registry (.put t.cycledTimeKey (toString now))) fun
        | .error e => .done (.error (.registry e))
        | .ok () => .ask (.registry (.put t.cycledKey "true")) fun
          | .error e => .done (.error (.registry e))
          | .ok () => .done (.ok (.cycled vs))

/-- How a cycle goes on when it has chosen nodes. -/
def afterChoice (d : Driver) (t : Target) :
    Except Error (List Member) → Talk (Except Error CycleOutcome)
  | .error e => .done (.error e)
  | .ok vs => takeSteps (vs.flatMap d.steps) >>= afterWork t vs

/-- How a cycle goes on when it knows whether it may. -/
def afterLook (d : Driver) (t : Target) :
    Except Error Bool → Talk (Except Error CycleOutcome)
  | .error e => .done (.error e)
  | .ok false => .done (.ok .rateLimited)
  | .ok true =>
    (d.selectVictims (t.count d.settings) (t.role d.settings)).run >>= d.afterChoice t

theorem run_cycleInside (d : Driver) (t : Target) :
    (d.cycleInside t).run = (d.mayCycle t).run >>= d.afterLook t := by
  unfold cycleInside
  rw [ExceptT.run_bind]
  congr 1
  funext r
  rcases r with e | _ | _
  · rfl
  · rfl
  · dsimp only [afterLook]
    rw [if_pos rfl, ExceptT.run_bind]
    congr 1
    funext r
    cases r with
    | error e => rfl
    | ok vs =>
      dsimp only [afterChoice]
      rw [ExceptT.run_bind, run_killAndRestartAll]
      congr 1
      funext r
      cases r with
      | error e => rfl
      | ok _ =>
        dsimp only [afterWork]
        cases vs with
        | nil => rfl
        | cons v vs =>
          show Dialogue.ask _ _ = Dialogue.ask _ _
          congr 1
          funext now
          show Dialogue.ask _ _ = Dialogue.ask _ _
          congr 1
          funext r
          cases r with
          | error e => rfl
          | ok _ =>
            show Dialogue.ask _ _ = Dialogue.ask _ _
            congr 1
            funext r
            cases r <;> rfl

/-- Whoever found itself the first at the gate is inside, or has opened the gate again. -/
theorem leads_inside (h : (d.cycle t).run.Leads (arrival t (.ok 1) :: past) rest) :
    ((d.cycleInside t).run >>= reopen t).Leads past rest := by
  rw [d.run_cycle] at h
  split at h
  · rcases h.of_ask with ⟨hpast, -⟩ | ⟨r, past', hpast, hadmitted⟩
    · cases hpast
    · obtain ⟨harrived, rfl⟩ := List.cons.inj hpast
      cases harrived
      rwa [admitted, if_pos rfl] at hadmitted
  · cases h.of_done.1

end Driver

/-! ## Where the work stands -/

/-- `Tells t vs past i`: of telling that `vs` were brought down, `i` can be left after the exchanges
`past`. -/
inductive Tells (t : Target) (vs : List Member) :
    List Exchange → Talk (Except Error CycleOutcome) → Prop where
  | reading {next : Int → Talk (Except Error CycleOutcome)} : Tells t vs [] (.ask .clock next)
  | timing (now : Int) {next : Except RegistryError Unit → Talk (Except Error CycleOutcome)} :
      Tells t vs [⟨.clock, now⟩]
        (.ask (.registry (.put t.cycledTimeKey (toString now))) next)
  | untimed (now : Int) (e : RegistryError) :
      Tells t vs [⟨.clock, now⟩, refusing t.cycledTimeKey (toString now) e]
        (.done (.error (.registry e)))
  | marking (now : Int) {next : Except RegistryError Unit → Talk (Except Error CycleOutcome)} :
      Tells t vs [⟨.clock, now⟩, putting t.cycledTimeKey (toString now)]
        (.ask (.registry (.put t.cycledKey "true")) next)
  | unmarked (now : Int) (e : RegistryError) :
      Tells t vs [⟨.clock, now⟩, putting t.cycledTimeKey (toString now),
        refusing t.cycledKey "true" e] (.done (.error (.registry e)))
  | told (now : Int) :
      Tells t vs [⟨.clock, now⟩, putting t.cycledTimeKey (toString now),
        putting t.cycledKey "true"] (.done (.ok (.cycled vs)))

/-- `Works d t vs past i`: once `vs` are chosen, `i` can be left of the inside of a cycle after the
exchanges `past`. -/
inductive Works (d : Driver) (t : Target) (vs : List Member) :
    List Exchange → Talk (Except Error CycleOutcome) → Prop where
  | working {past : List Exchange} {q : Request} {todo : List Request}
      {next : q.Reply → Talk (Except Error CycleOutcome)}
      (steps : vs.flatMap d.steps = past.map (·.request) ++ q :: todo)
      (fine : ∀ x ∈ past, failure? x = none) : Works d t vs past (.ask q next)
  | failed {past : List Exchange} {x : Exchange} {todo : List Request} {e : Error}
      (steps : vs.flatMap d.steps = (past ++ [x]).map (·.request) ++ todo)
      (fine : ∀ y ∈ past, failure? y = none) (failure : failure? x = some e) :
      Works d t vs (past ++ [x]) (.done (.error e))
  | idle (none : vs = []) : Works d t vs [] (.done (.ok .noVictims))
  | telling {past after : List Exchange} {i : Talk (Except Error CycleOutcome)} (some : vs ≠ [])
      (steps : vs.flatMap d.steps = past.map (·.request))
      (fine : ∀ x ∈ past, failure? x = none) (tells : Tells t vs after i) :
      Works d t vs (past ++ after) i

theorem tells_of_leads (hvs : vs ≠ []) (h : (Driver.afterWork t vs (.ok ())).Leads past i) :
    Tells t vs past i := by
  have hempty : ¬ vs.isEmpty = true := by simpa using hvs
  rw [Driver.afterWork, if_neg hempty] at h
  rcases h.of_ask with ⟨rfl, rfl⟩ | ⟨now, past₁, rfl, h₁⟩
  · exact .reading
  rcases h₁.of_ask with ⟨rfl, rfl⟩ | ⟨r, past₂, rfl, h₂⟩
  · exact .timing now
  cases r with
  | error e =>
    obtain ⟨rfl, rfl⟩ := h₂.of_done
    exact .untimed now e
  | ok _ =>
    rcases h₂.of_ask with ⟨rfl, rfl⟩ | ⟨r, past₃, rfl, h₃⟩
    · exact .marking now
    cases r with
    | error e =>
      obtain ⟨rfl, rfl⟩ := h₃.of_done
      exact .unmarked now e
    | ok _ =>
      obtain ⟨rfl, rfl⟩ := h₃.of_done
      exact .told now

/-- The steps came to an end, and what follows is what follows on it. -/
theorem works_of_taken {before after : List Exchange} {r : Except Error Unit}
    (hwork : (takeSteps (vs.flatMap d.steps)).Leads before (.done r))
    (hafter : (Driver.afterWork t vs r).Leads after i) : Works d t vs (before ++ after) i := by
  rcases of_takeSteps_leads hwork with
    ⟨todo, hsteps, hfine, hdone⟩ | ⟨past, x, todo, e, rfl, hsteps, hfine, hx, hdone⟩
  · cases todo with
    | cons q todo => exact nomatch hdone
    | nil =>
      obtain rfl := Dialogue.done.inj hdone
      rw [List.append_nil] at hsteps
      by_cases hvs : vs = []
      · subst hvs
        obtain rfl := List.map_eq_nil_iff.mp hsteps.symm
        obtain ⟨rfl, rfl⟩ := hafter.of_done
        exact .idle rfl
      · exact .telling hvs hsteps hfine (tells_of_leads hvs hafter)
  · obtain rfl := Dialogue.done.inj hdone
    obtain ⟨rfl, rfl⟩ := hafter.of_done
    rw [List.append_nil]
    exact .failed hsteps hfine hx

/-- Whatever it is answered, the work of a cycle stands at one of the points there are. -/
theorem works_of_leads (h : (d.afterChoice t (.ok vs)).Leads past i) : Works d t vs past i := by
  rcases h.of_bind with ⟨work, hwork, rfl⟩ | ⟨before, after, r, rfl, hwork, hafter⟩
  · rcases of_takeSteps_leads hwork with
      ⟨_ | ⟨q, todo⟩, hsteps, hfine, rfl⟩ | ⟨before, x, todo, e, hpast, hsteps, hfine, hx, rfl⟩
    · have hworks := works_of_taken hwork (.here (Driver.afterWork t vs (.ok ())))
      rwa [List.append_nil] at hworks
    · exact .working hsteps hfine
    · have hworks := works_of_taken hwork (.here (Driver.afterWork t vs (.error e)))
      rwa [List.append_nil] at hworks
  · exact works_of_taken hwork hafter

/-! ## Choosing -/

/-- Up to `after`, a cycle with the exchanges `past` got inside, found that it may cycle and chose
`vs`. -/
def Driver.Chose (d : Driver) (t : Target) (vs : List Member) (past after : List Exchange) : Prop :=
  ∃ look choice, past = arrival t (.ok 1) :: (look ++ (choice ++ after)) ∧
    (d.mayCycle t).run.Leads look (.done (.ok true)) ∧
    (d.selectVictims (t.count d.settings) (t.role d.settings)).run.Leads choice (.done (.ok vs))

/-- Whoever chose nodes works on them, or has opened the gate again. -/
theorem Driver.Chose.leads {after : List Exchange} (hvs : d.Chose t vs past after)
    (h : (d.cycle t).run.Leads past rest) :
    (d.afterChoice t (.ok vs) >>= reopen t).Leads after rest := by
  obtain ⟨look, choice, rfl, hlook, hchoice⟩ := hvs
  have hinside := leads_inside h
  rw [d.run_cycleInside] at hinside
  have hchoosing := hlook.bind (f := d.afterLook t)
  have hworking := hchoice.bind (f := d.afterChoice t)
  exact hworking.bind.of_append (hchoosing.bind.of_append hinside)

/-! ## Cycles that are over -/

/-- `Ends d t past outcome`: after the exchanges `past` inside, a cycle has come to `outcome`. -/
inductive Ends (d : Driver) (t : Target) : List Exchange → Except Error CycleOutcome → Prop where
  | blind {look : List Exchange} {e : Error}
      (looked : (d.mayCycle t).run.Leads look (.done (.error e))) : Ends d t look (.error e)
  | early {look : List Exchange}
      (looked : (d.mayCycle t).run.Leads look (.done (.ok false))) :
      Ends d t look (.ok .rateLimited)
  | torn {look choice : List Exchange} {e : Error}
      (looked : (d.mayCycle t).run.Leads look (.done (.ok true)))
      (choosing : (d.selectVictims (t.count d.settings) (t.role d.settings)).run.Leads choice
        (.done (.error e))) : Ends d t (look ++ choice) (.error e)
  | worked {look choice after : List Exchange} {vs : List Member}
      {outcome : Except Error CycleOutcome}
      (looked : (d.mayCycle t).run.Leads look (.done (.ok true)))
      (chosen : (d.selectVictims (t.count d.settings) (t.role d.settings)).run.Leads choice
        (.done (.ok vs)))
      (works : Works d t vs after (.done outcome)) : Ends d t (look ++ (choice ++ after)) outcome

theorem ends_of_leads {outcome : Except Error CycleOutcome}
    (h : (d.cycleInside t).run.Leads past (.done outcome)) : Ends d t past outcome := by
  rw [d.run_cycleInside] at h
  obtain ⟨look, later, may, rfl, hlook, hlater⟩ := h.of_bind_done
  rcases may with e | _ | _
  · obtain ⟨rfl, hdone⟩ := hlater.of_done
    obtain rfl := Dialogue.done.inj hdone
    rw [List.append_nil]
    exact .blind hlook
  · obtain ⟨rfl, hdone⟩ := hlater.of_done
    obtain rfl := Dialogue.done.inj hdone
    rw [List.append_nil]
    exact .early hlook
  · obtain ⟨choice, after, chosen, rfl, hchoice, hafter⟩ := hlater.of_bind_done
    cases chosen with
    | error e =>
      obtain ⟨rfl, hdone⟩ := hafter.of_done
      obtain rfl := Dialogue.done.inj hdone
      rw [List.append_nil]
      exact .torn hlook hchoice
    | ok vs => exact .worked hlook hchoice (works_of_leads hafter)

/-- `Closes d t past result`: a cycle that was through the exchanges `past` has returned `result`. -/
inductive Closes (d : Driver) (t : Target) : List Exchange → Except Error CycleOutcome → Prop where
  | disabled : Closes d t [] (.ok .disabled)
  | failed (e : RegistryError) : Closes d t [arrival t (.error e)] (.error (.registry e))
  | lost {turn : Int} (hturn : turn ≠ 1) : Closes d t [arrival t (.ok turn)] (.ok .notMyTurn)
  | left {inside : List Exchange} {outcome : Except Error CycleOutcome}
      (ends : Ends d t inside outcome) (r : Except RegistryError Unit) :
      Closes d t (arrival t (.ok 1) :: (inside ++ [reopening t r])) (conclude outcome r)

/-- Every cycle that is over has ended in one of the ways there are. -/
theorem closes_of_leads {result : Except Error CycleOutcome}
    (h : (d.cycle t).run.Leads past (.done result)) : Closes d t past result := by
  have hstands := Driver.stands_of_leads h
  generalize hrest : (Dialogue.done result : Talk (Except Error CycleOutcome)) = rest at hstands
  cases hstands with
  | disabled =>
    obtain rfl := Dialogue.done.inj hrest
    exact .disabled
  | @failed e =>
    obtain rfl := Dialogue.done.inj hrest
    exact .failed e
  | lost hturn =>
    obtain rfl := Dialogue.done.inj hrest
    exact .lost hturn
  | @left past r result spared =>
    obtain rfl := Dialogue.done.inj hrest
    rcases of_reopen_leads (Driver.leads_inside h) with
      ⟨i, hi, hdone⟩ | ⟨inside, outcome, r', hpast, hinside, hdone⟩
    · cases i <;> exact nomatch hdone
    · obtain rfl := Dialogue.done.inj hdone
      rw [hpast]
      exact .left (ends_of_leads hinside) r'
  | _ => exact nomatch hrest

end Primacy.Failover
