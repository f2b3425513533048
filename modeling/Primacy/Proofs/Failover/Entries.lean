/-
  Primacy.Proofs.Failover.Entries

  What a cycle leaves in the registry.  It sets two entries, when it was over and then that there
  was one, and nothing is there to take the first back if the second is refused.  In every other
  case it leaves both or none.
-/
import Primacy.Proofs.Failover.Course
import Primacy.Proofs.Failover.Distance

namespace Primacy.Failover

open Registry (Content)

variable {d : Driver} {t : Target} {vs : List Member} {past after : List Exchange}
  {c c₁ c' : Content} {outcome result : Except Error CycleOutcome}

/-! ## A registry that may fail -/

/-- `Serves c past c'`: a registry that held `c` has seen the requests in `past` and holds `c'`.
Any request may fail, and has no effect then. -/
inductive Serves : Content → List Exchange → Content → Prop where
  | idle (c : Content) : Serves c [] c
  | served {c c₁ c' : Content} {q : Registry.Request} {a : q.Answer} {past : List Exchange}
      (answer : c.answer q = .ok (a, c₁)) (later : Serves c₁ past c') :
      Serves c (⟨.registry q, (.ok a : q.Reply)⟩ :: past) c'
  | failed {c c' : Content} {q : Registry.Request} {past : List Exchange} (e : RegistryError)
      (later : Serves c past c') : Serves c (⟨.registry q, (.error e : q.Reply)⟩ :: past) c'
  | elsewhere {c c' : Content} {x : Exchange} {past : List Exchange}
      (away : ∀ q, x.request ≠ .registry q) (later : Serves c past c') : Serves c (x :: past) c'

theorem Serves.of_append {before : List Exchange} (h : Serves c (before ++ after) c') :
    ∃ c₁, Serves c before c₁ ∧ Serves c₁ after c' := by
  induction before generalizing c with
  | nil => exact ⟨c, .idle c, h⟩
  | cons x before ih =>
    cases h with
    | served answer later =>
      obtain ⟨c₁, hbefore, hafter⟩ := ih later
      exact ⟨c₁, .served answer hbefore, hafter⟩
    | failed e later =>
      obtain ⟨c₁, hbefore, hafter⟩ := ih later
      exact ⟨c₁, .failed e hbefore, hafter⟩
    | elsewhere away later =>
      obtain ⟨c₁, hbefore, hafter⟩ := ih later
      exact ⟨c₁, .elsewhere away hbefore, hafter⟩

/-- Where no entry is set, all stay as they are. -/
theorem Serves.entries_eq (h : Serves c past c') (unwritten : Unwritten past) :
    c'.entries = c.entries := by
  induction h with
  | idle c => rfl
  | @served c c₁ c' q a past answer later ih =>
    obtain ⟨hq, hpast⟩ := List.forall_mem_cons.mp unwritten
    refine (ih hpast).trans (Content.entries_of_answer answer ?_)
    rintro key value rfl
    cases hq
  | failed e later ih => exact ih (List.forall_mem_cons.mp unwritten).2
  | elsewhere away later ih => exact ih (List.forall_mem_cons.mp unwritten).2

theorem Serves.of_clock {now : Int} (h : Serves c (⟨.clock, now⟩ :: past) c') :
    Serves c past c' := by
  cases h with
  | elsewhere away later => exact later

theorem Serves.of_putting {key value : String} (h : Serves c (putting key value :: past) c') :
    Serves { c with entries := c.entries.insert key value } past c' := by
  cases h with
  | served answer later =>
    cases answer
    exact later
  | elsewhere away later => exact absurd rfl (away _)

theorem Serves.of_refusing {key value : String} {e : RegistryError}
    (h : Serves c (refusing key value e :: past) c') : Serves c past c' := by
  cases h with
  | failed e later => exact later
  | elsewhere away later => exact absurd rfl (away _)

theorem Serves.eq_of_nil (h : Serves c [] c') : c' = c := by
  cases h
  rfl

/-! ## What a cycle leaves -/

/-- The entries of a cycle that was over at the time `now`. -/
def Target.recorded (t : Target) (now : Int) (entries : Keyed String) : Keyed String :=
  (entries.insert t.cycledTimeKey (toString now)).insert t.cycledKey "true"

/-- `Leaves t past c c' outcome`: with the exchanges `past`, what was inside a cycle has come to
`outcome` and turned the content `c` of the registry into `c'`. -/
inductive Leaves (t : Target) (past : List Exchange) (c c' : Content) :
    Except Error CycleOutcome → Prop where
  | nothing {outcome : Except Error CycleOutcome} (ended : ∀ vs, outcome ≠ .ok (.cycled vs))
      (accepted : ∀ e, refusing t.cycledKey "true" e ∉ past) (same : c'.entries = c.entries) :
      Leaves t past c c' outcome
  | half {now : Int} {e : RegistryError} (finish : finish? past = some now)
      (refused : refusing t.cycledKey "true" e ∈ past)
      (set : c'.entries = c.entries.insert t.cycledTimeKey (toString now)) :
      Leaves t past c c' (.error (.registry e))
  | whole {now : Int} {vs : List Member} (finish : finish? past = some now)
      (set : c'.entries = t.recorded now c.entries) : Leaves t past c c' (.ok (.cycled vs))

theorem Unwritten.not_refused (h : Unwritten past) (key value : String) (e : RegistryError) :
    refusing key value e ∉ past := fun hmem => nomatch h _ hmem

theorem leaves_nothing (ended : ∀ vs, outcome ≠ .ok (.cycled vs)) (unwritten : Unwritten past)
    (served : Serves c past c') : Leaves t past c c' outcome :=
  .nothing ended (unwritten.not_refused _ _) (served.entries_eq unwritten)

theorem finish?_append {now : Int} (before : List Exchange) (h : finish? after = some now) :
    finish? (before ++ after) = some now := by
  rw [finish?, readings_append, List.getLast?_append, ← finish?, h]
  rfl

/-- What was written before makes no difference to what is left. -/
theorem Leaves.prepend {before : List Exchange} (unwritten : Unwritten before)
    (served : Serves c before c₁) (h : Leaves t after c₁ c' outcome) :
    Leaves t (before ++ after) c c' outcome := by
  have hsame := served.entries_eq unwritten
  cases h with
  | nothing ended accepted same =>
    refine .nothing ended (fun e hmem => ?_) (same.trans hsame)
    rcases List.mem_append.mp hmem with hmem | hmem
    · exact unwritten.not_refused _ _ e hmem
    · exact accepted e hmem
  | half finish refused set =>
    rw [hsame] at set
    exact .half (finish?_append before finish) (List.mem_append_right _ refused) set
  | whole finish set =>
    rw [hsame] at set
    exact .whole (finish?_append before finish) set

theorem Tells.leaves (h : Tells t vs after (.done outcome)) (served : Serves c after c') :
    Leaves t after c c' outcome := by
  have hkeys : t.cycledTimeKey ≠ t.cycledKey := by cases t <;> decide
  cases h with
  | untimed now e =>
    obtain rfl := served.of_clock.of_refusing.eq_of_nil
    refine .nothing nofun (fun e' hmem => ?_) rfl
    simp only [List.mem_cons, List.not_mem_nil, or_false] at hmem
    rcases hmem with heq | heq
    · exact nomatch congrArg Primacy.Exchange.request heq
    · have hrequest := congrArg Primacy.Exchange.request heq
      exact hkeys (Registry.Request.put.inj (Request.registry.inj hrequest)).1.symm
  | unmarked now e =>
    obtain rfl := served.of_clock.of_putting.of_refusing.eq_of_nil
    exact .half rfl (by simp) rfl
  | told now =>
    obtain rfl := served.of_clock.of_putting.of_putting.eq_of_nil
    exact .whole rfl rfl

/-- No step sets an entry. -/
theorem unwritten_of_steps {todo : List Request}
    (steps : vs.flatMap d.steps = past.map (·.request) ++ todo) : Unwritten past := by
  intro x hx
  have hstep : x.request ∈ vs.flatMap d.steps := by
    rw [steps]
    exact List.mem_append_left _ (List.mem_map_of_mem hx)
  obtain ⟨m, -, hm⟩ := List.mem_flatMap.mp hstep
  rcases Driver.mem_steps hm with heq | ⟨-, heq⟩ | heq <;> rw [heq] <;> rfl

theorem Works.leaves (h : Works d t vs past (.done outcome)) (served : Serves c past c') :
    Leaves t past c c' outcome := by
  cases h with
  | @failed past x todo e steps fine failure =>
    exact leaves_nothing nofun (unwritten_of_steps steps) served
  | idle none => exact leaves_nothing nofun nofun served
  | telling some steps fine tells =>
    obtain ⟨c₁, hbefore, hafter⟩ := served.of_append
    have hunwritten := unwritten_of_steps (steps.trans (List.append_nil _).symm)
    exact (tells.leaves hafter).prepend hunwritten hbefore

theorem unwritten_of_spares {α : Type} {p : Procedure α} {e : Talk (Except Error α)}
    (hp : SparesRegistry p) (h : p.run.Leads past e) : Unwritten past := fun x hx =>
  Request.not_isPut_of_not_isWrite ((hp.leads h).1 x hx)

theorem Ends.leaves (h : Ends d t past outcome) (served : Serves c past c') :
    Leaves t past c c' outcome := by
  cases h with
  | blind looked => exact leaves_nothing nofun (unwritten_of_spares (.mayCycle d t) looked) served
  | early looked => exact leaves_nothing nofun (unwritten_of_spares (.mayCycle d t) looked) served
  | @torn look choice e looked choosing =>
    obtain ⟨c₁, hlook, hchoice⟩ := served.of_append
    have hnothing : Leaves t choice c₁ c' (.error e) :=
      leaves_nothing nofun (unwritten_of_spares (.selectVictims d _ _) choosing) hchoice
    exact hnothing.prepend (unwritten_of_spares (.mayCycle d t) looked) hlook
  | worked looked chosen works =>
    obtain ⟨c₁, hlook, hlater⟩ := served.of_append
    obtain ⟨c₂, hchoice, hafter⟩ := hlater.of_append
    have hworked := works.leaves hafter
    have hchose := hworked.prepend (unwritten_of_spares (.selectVictims d _ _) chosen) hchoice
    exact hchose.prepend (unwritten_of_spares (.mayCycle d t) looked) hlook

/-- To come to the gate, or to open it again, sets no entry. -/
theorem unwritten_arrival (r : Except RegistryError Int) : Unwritten [arrival t r] :=
  List.forall_mem_singleton.mpr rfl

theorem unwritten_reopening (r : Except RegistryError Unit) : Unwritten [reopening t r] :=
  List.forall_mem_singleton.mpr rfl

theorem Leaves.reopened (h : Leaves t past c c₁ outcome) {r : Except RegistryError Unit}
    (served : Serves c₁ [reopening t r] c') :
    Leaves t (past ++ [reopening t r]) c c' outcome := by
  have hsame : c'.entries = c₁.entries := served.entries_eq (unwritten_reopening r)
  have hfinish : finish? (past ++ [reopening t r]) = finish? past := finish?_concat rfl
  cases h with
  | nothing ended accepted same =>
    refine .nothing ended (fun e hmem => ?_) (hsame.trans same)
    rcases List.mem_append.mp hmem with hmem | hmem
    · exact accepted e hmem
    · exact nomatch congrArg Primacy.Exchange.request (List.mem_singleton.mp hmem)
  | half finish refused set =>
    exact .half (hfinish.trans finish) (List.mem_append_left _ refused) (hsame.trans set)
  | whole finish set => exact .whole (hfinish.trans finish) (hsame.trans set)

/-- What was inside a cycle decides what it leaves, though the gate may fail to open. -/
theorem Closes.leaves (h : Closes d t past result) (served : Serves c past c') :
    Leaves t past c c' result ∨ ∃ now e, finish? past = some now ∧ reopening t (.error e) ∈ past ∧
      result = .error (.registry e) ∧ c'.entries = t.recorded now c.entries := by
  cases h with
  | disabled => exact .inl (leaves_nothing nofun nofun served)
  | failed e => exact .inl (leaves_nothing nofun (unwritten_arrival _) served)
  | lost hturn => exact .inl (leaves_nothing nofun (unwritten_arrival _) served)
  | @left inside outcome ends r =>
    rw [← List.singleton_append] at served ⊢
    obtain ⟨c₁, harrived, hlater⟩ := served.of_append
    obtain ⟨c₂, hinside, hopened⟩ := hlater.of_append
    have hleft := ((ends.leaves hinside).reopened hopened).prepend (unwritten_arrival _) harrived
    rcases r with e | _
    · rcases outcome with e' | told
      · exact .inl hleft
      · cases hleft with
        | nothing ended accepted same => exact .inl (.nothing nofun accepted same)
        | @whole now vs finish set =>
          have hshut : reopening t (.error e) ∈ inside ++ [reopening t (.error e)] :=
            List.mem_append_right _ List.mem_cons_self
          exact .inr ⟨now, e, finish, List.mem_cons_of_mem _ hshut, rfl, set⟩
    · rcases outcome with e' | told <;> exact .inl hleft

/-- What a cycle leaves in the registry, whichever of its requests the registry fails to serve.  If
it tells that it brought nodes down, both entries are set.  If it tells of anything else, all
entries are as before.  If it returns an error they are as well, but for two cases: the second of
the two entries was refused, and then the first one stays behind alone, or all was done by then and
only the gate could not be opened. -/
theorem entries_of_cycle (h : (d.cycle t).run.Leads past (.done result))
    (served : Serves c past c') :
    (∀ vs, result = .ok (.cycled vs) →
      ∃ now, finish? past = some now ∧ c'.entries = t.recorded now c.entries) ∧
    (∀ told, result = .ok told → (∀ vs, told ≠ .cycled vs) → c'.entries = c.entries) ∧
    ∀ e, result = .error e →
      ((∀ e', refusing t.cycledKey "true" e' ∉ past) ∧ c'.entries = c.entries) ∨
      (∃ now e', finish? past = some now ∧ refusing t.cycledKey "true" e' ∈ past ∧
        e = .registry e' ∧ c'.entries = c.entries.insert t.cycledTimeKey (toString now)) ∨
      ∃ now e', finish? past = some now ∧ reopening t (.error e') ∈ past ∧ e = .registry e' ∧
        c'.entries = t.recorded now c.entries := by
  rcases (closes_of_leads h).leaves served with hleaves | ⟨now, e, finish, hshut, rfl, set⟩
  · cases hleaves with
    | nothing ended accepted same =>
      refine ⟨fun vs hvs => absurd hvs (ended vs), fun _ _ _ => same, fun e _ => ?_⟩
      exact .inl ⟨accepted, same⟩
    | @half now e' finish refused set =>
      refine ⟨nofun, nofun, fun e he => ?_⟩
      exact .inr (.inl ⟨now, e', finish, refused, (Except.error.inj he).symm, set⟩)
    | @whole now vs finish set =>
      refine ⟨fun _ _ => ⟨now, finish, set⟩, fun told htold hno => ?_, nofun⟩
      exact absurd (Except.ok.inj htold).symm (hno vs)
  · refine ⟨nofun, nofun, fun e' he => ?_⟩
    exact .inr (.inr ⟨now, e, finish, hshut, (Except.error.inj he).symm, set⟩)

/-- The server is brought down and up again at the time 5, and the marker is refused. -/
def unmarked : List Exchange :=
  [arrival .store (.ok 1), getting Target.store.cycledKey none, ⟨.draw 1, (0 : Nat)⟩,
    ⟨.terminate "server" "dir", (.ok () : Except Error Unit)⟩,
    ⟨.launch "server" ["start"], (.ok 0 : Except Error Int)⟩, ⟨.clock, (5 : Int)⟩,
    putting Target.store.cycledTimeKey "5", refusing Target.store.cycledKey "true" (.failed "x"),
    reopening .store (.ok ())]

theorem leads_unmarked : (Timed.pacer.cycle .store).run.Leads unmarked
    (.done (.error (.registry (.failed "x")))) :=
  .on (.on (.on (.on (.on (.on (.on (.on (.on (.here _)))))))))

/-- A registry that holds nothing at first and serves all but the marker. -/
theorem serves_unmarked : ∃ c, Serves .empty unmarked c ∧
    c.entries = [(Target.store.cycledTimeKey, "5")] :=
  ⟨_, .served rfl (.served rfl (.elsewhere nofun (.elsewhere nofun (.elsewhere nofun
    (.elsewhere nofun (.served rfl (.failed _ (.served rfl (.idle _))))))))), rfl⟩

theorem opened_unmarked (e : RegistryError) : reopening .store (.error e) ∉ unmarked := by
  simp [unmarked, arrival, getting, putting, refusing, reopening]

theorem unmarked_entries : ∃ c now, Serves .empty unmarked c ∧ finish? unmarked = some now ∧
    c.entries = Content.empty.entries.insert Target.store.cycledTimeKey (toString now) := by
  obtain ⟨c, served, -⟩ := serves_unmarked
  rcases (entries_of_cycle leads_unmarked served).2.2 _ rfl with
    ⟨accepted, -⟩ | ⟨now, e, finish, -, -, set⟩ | ⟨now, e, -, hshut, -⟩
  · exact absurd (by simp [unmarked]) (accepted (.failed "x"))
  · exact ⟨c, now, served, finish, set⟩
  · exact absurd hshut (opened_unmarked e)

/-- The time of a cycle that returned an error is left behind. -/
theorem not_entries_kept_of_error : ¬ ∀ (d : Driver) (t : Target) (past : List Exchange)
    (result : Except Error CycleOutcome) (c c' : Content),
    (d.cycle t).run.Leads past (.done result) → Serves c past c' →
    (∀ vs, result ≠ .ok (.cycled vs)) → (∀ e, reopening t (.error e) ∉ past) →
    c'.entries = c.entries := by
  intro hclaim
  obtain ⟨c, served, hset⟩ := serves_unmarked
  have hkept := hclaim _ _ _ _ _ _ leads_unmarked served nofun opened_unmarked
  exact nomatch hset.symm.trans hkept

end Primacy.Failover
