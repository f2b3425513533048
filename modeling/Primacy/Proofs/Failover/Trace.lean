/-
  Primacy.Proofs.Failover.Trace

  The trace of a cycle.  What a cycle does to others, it does node by node in the order in which it
  chose them, and it tells of it last.  The first step that fails is the last thing it does, and its
  error is what the cycle returns.  A node is started right after its own line was written.
-/
import Primacy.Proofs.Failover.Course
import Primacy.Proofs.Files.Written
import Primacy.Scenario.Work

namespace Primacy.Failover

variable {d : Driver} {t : Target} {vs : List Member} {past after : List Exchange}
  {rest i : Talk (Except Error CycleOutcome)}

/-! ## Deeds -/

/-- What was done to others, the earliest first. -/
def deeds (past : List Exchange) : List Request := (past.map (·.request)).filter Request.isDeed

/-- What tells of a cycle that was over at the time `now`. -/
def Target.records (t : Target) (now : Int) : List Request :=
  [.registry (.put t.cycledTimeKey (toString now)), .registry (.put t.cycledKey "true")]

/-- All there is to do about `vs`, in order. -/
def Driver.errands (d : Driver) (t : Target) (vs : List Member) (now : Int) : List Request :=
  if vs.isEmpty then [] else vs.flatMap d.steps ++ t.records now

theorem deeds_append (past later : List Exchange) :
    deeds (past ++ later) = deeds past ++ deeds later := by
  rw [deeds, List.map_append, List.filter_append]
  rfl

theorem deeds_reopening (past : List Exchange) (r : Except RegistryError Unit) :
    deeds (past ++ [reopening t r]) = deeds past :=
  (deeds_append past _).trans (List.append_nil _)

theorem deeds_eq_nil (h : ∀ x ∈ past, x.request.isDeed = false) : deeds past = [] := by
  rw [deeds, List.filter_eq_nil_iff]
  intro q hq
  obtain ⟨x, hx, rfl⟩ := List.mem_map.mp hq
  simp [h x hx]

/-- Every step is a deed. -/
theorem deeds_of_steps {todo : List Request}
    (steps : vs.flatMap d.steps = past.map (·.request) ++ todo) :
    deeds past = past.map (·.request) := by
  rw [deeds, List.filter_eq_self]
  intro q hq
  have hstep : q ∈ vs.flatMap d.steps := by
    rw [steps]
    exact List.mem_append_left _ hq
  obtain ⟨m, -, hm⟩ := List.mem_flatMap.mp hstep
  rcases Driver.mem_steps hm with rfl | ⟨-, rfl⟩ | rfl <;> rfl

theorem Driver.errands_eq (hvs : vs ≠ []) (now : Int) :
    d.errands t vs now = vs.flatMap d.steps ++ t.records now := by
  rw [errands, if_neg (by simpa using hvs)]

theorem ne_nil_of_step {q : Request} (h : q ∈ vs.flatMap d.steps) : vs ≠ [] := by
  rintro rfl
  exact nomatch h

/-- Nothing is done while a cycle looks around. -/
theorem not_isDeed_of_looking {α : Type} {p : Procedure α} {e : Talk (Except Error α)}
    (hp : Confined (fun q => q.looks = true ∨ q = .breakDown) p) (h : p.run.Leads past e) :
    ∀ x ∈ past, x.request.isDeed = false := by
  intro x hx
  rcases (hp.leads h).1 x hx with hlooks | heq
  · exact Request.not_isDeed_of_looks hlooks
  · rw [heq]
    rfl

/-- A cycle does nothing before it has chosen whom to do it to. -/
theorem Driver.Chose.exists_front (hvs : d.Chose t vs past after) :
    ∃ front, past = front ++ after ∧ ∀ x ∈ front, x.request.isDeed = false := by
  obtain ⟨look, choice, rfl, hlook, hchoice⟩ := hvs
  refine ⟨arrival t (.ok 1) :: (look ++ choice), by simp, ?_⟩
  rw [List.forall_mem_cons, List.forall_mem_append]
  refine ⟨rfl, not_isDeed_of_looking (Looks.mayCycle d t) hlook, ?_⟩
  exact not_isDeed_of_looking ((Looks.selectVictims d _ _).mono fun _ => .inl) hchoice

theorem Driver.Chose.deeds_eq (hvs : d.Chose t vs past after) : deeds past = deeds after := by
  obtain ⟨front, rfl, hfront⟩ := hvs.exists_front
  rw [deeds_append, deeds_eq_nil hfront, List.nil_append]

/-! ## One after the other -/

theorem Tells.prefix_records (h : Tells t vs past i) :
    ∃ now, deeds past <+: t.records now ∧ ∀ q next, i = .ask q next → q.isDeed = true →
      deeds past ++ [q] <+: t.records now := by
  cases h with
  | reading =>
    refine ⟨0, List.nil_prefix, fun q next hq hdeed => ?_⟩
    obtain ⟨rfl, -⟩ := Dialogue.ask.inj hq
    cases hdeed
  | timing now =>
    refine ⟨now, List.nil_prefix, fun q next hq _ => ?_⟩
    obtain ⟨rfl, -⟩ := Dialogue.ask.inj hq
    exact ⟨_, rfl⟩
  | untimed now e => exact ⟨now, ⟨_, rfl⟩, nofun⟩
  | marking now =>
    refine ⟨now, ⟨_, rfl⟩, fun q next hq _ => ?_⟩
    obtain ⟨rfl, -⟩ := Dialogue.ask.inj hq
    exact ⟨[], rfl⟩
  | unmarked now e => exact ⟨now, ⟨[], rfl⟩, nofun⟩
  | told now => exact ⟨now, ⟨[], rfl⟩, nofun⟩

theorem Works.prefix_errands (h : Works d t vs past i) :
    ∃ now, deeds past <+: d.errands t vs now ∧ ∀ q next, i = .ask q next → q.isDeed = true →
      deeds past ++ [q] <+: d.errands t vs now := by
  cases h with
  | @working past q todo next steps fine =>
    have hvs : vs ≠ [] := ne_nil_of_step (d := d) (q := q) (by simp [steps])
    rw [deeds_of_steps steps]
    refine ⟨0, ?_, fun q' next' hq _ => ?_⟩
    · rw [Driver.errands_eq hvs, steps, List.append_assoc]
      exact List.prefix_append _ _
    · obtain ⟨rfl, -⟩ := Dialogue.ask.inj hq
      rw [Driver.errands_eq hvs, steps, List.append_assoc, List.prefix_append_right_inj]
      exact ⟨_, rfl⟩
  | @failed past x todo e steps fine failure =>
    have hvs : vs ≠ [] := ne_nil_of_step (d := d) (q := x.request) (by simp [steps])
    rw [deeds_of_steps steps]
    refine ⟨0, ?_, nofun⟩
    rw [Driver.errands_eq hvs, steps, List.append_assoc]
    exact List.prefix_append _ _
  | idle none => exact ⟨0, List.nil_prefix, nofun⟩
  | @telling past after i some steps fine tells =>
    obtain ⟨now, hdone, hnext⟩ := tells.prefix_records
    have hpast : deeds past = vs.flatMap d.steps := by
      rw [steps, deeds_of_steps (steps.trans (List.append_nil _).symm)]
    rw [deeds_append, hpast]
    refine ⟨now, ?_, fun q next hq hdeed => ?_⟩
    · rw [Driver.errands_eq some, List.prefix_append_right_inj]
      exact hdone
    · rw [Driver.errands_eq some, List.append_assoc, List.prefix_append_right_inj]
      exact hnext q next hq hdeed

/-! ## The first failure -/

/-- What a list ends with is its last element or has that behind it. -/
theorem eq_last_or_earlier {α : Type} {before past tail : List α} {x y : α}
    (h : past ++ [y] = before ++ x :: tail) :
    (tail = [] ∧ x = y) ∨ ∃ middle, tail = middle ++ [y] ∧ past = before ++ x :: middle := by
  rcases List.eq_nil_or_concat tail with rfl | ⟨middle, z, rfl⟩
  · obtain ⟨-, hlast⟩ := List.append_inj' h rfl
    exact .inl ⟨rfl, (List.head_eq_of_cons_eq hlast).symm⟩
  · rw [List.concat_eq_append, ← List.cons_append, ← List.append_assoc] at h
    obtain ⟨hpast, hlast⟩ := List.append_inj' h rfl
    obtain rfl := List.head_eq_of_cons_eq hlast
    exact .inr ⟨middle, List.concat_eq_append, hpast⟩

theorem isDeed_of_failure {x : Exchange} {e : Error} (h : failure? x = some e) :
    x.request.isDeed = true := by
  obtain ⟨q, r⟩ := x
  cases q with
  | terminate => rfl
  | launch => rfl
  | writeLine => rfl
  | _ => cases h

theorem Tells.fine (h : Tells t vs past i) : ∀ x ∈ past, failure? x = none := by
  cases h <;> simp [failure?, putting, refusing]

/-- A step that fails is the last one, and its error is what the inside comes to. -/
theorem Works.eq_of_failure {before tail : List Exchange} {x : Exchange} {e : Error}
    (h : Works d t vs past i) (hpast : past = before ++ x :: tail) (hx : failure? x = some e) :
    tail = [] ∧ i = .done (.error e) := by
  have hmem : x ∈ past := by simp [hpast]
  have habsurd : ∀ {fine : List Exchange}, (∀ y ∈ fine, failure? y = none) → x ∉ fine :=
    fun hfine hin => nomatch (hfine x hin).symm.trans hx
  cases h with
  | working steps fine => exact absurd hmem (habsurd fine)
  | @failed past y todo e' steps fine failure =>
    rcases eq_last_or_earlier hpast with ⟨rfl, rfl⟩ | ⟨middle, -, rfl⟩
    · obtain rfl := Option.some.inj (failure.symm.trans hx)
      exact ⟨rfl, rfl⟩
    · exact absurd (List.mem_append_right _ List.mem_cons_self) (habsurd fine)
  | idle none => exact nomatch hmem
  | telling some steps fine tells =>
    rcases List.mem_append.mp hmem with hin | hin
    · exact absurd hin (habsurd fine)
    · exact absurd hin (habsurd tells.fine)

/-! ## What comes of it -/

/-- The inside comes to the error of a step that failed, or it was through with all steps. -/
theorem Works.of_done {outcome : Except Error CycleOutcome}
    (h : Works d t vs past (.done outcome)) :
    (∃ x ∈ past, ∃ e, failure? x = some e ∧ outcome = .error e) ∨
    (∀ x ∈ past, failure? x = none) ∧ vs.flatMap d.steps <+: deeds past ∧
      ((∃ e, outcome = .error (.registry e)) ∨ (∃ now, deeds past = d.errands t vs now) ∧
        outcome = .ok (if vs.isEmpty then .noVictims else .cycled vs)) := by
  cases h with
  | @failed past x _ e steps fine failure =>
    exact .inl ⟨x, List.mem_append_right _ List.mem_cons_self, e, failure, rfl⟩
  | idle none =>
    subst none
    exact .inr ⟨nofun, List.nil_prefix, .inr ⟨⟨0, rfl⟩, rfl⟩⟩
  | @telling past after _ some steps fine tells =>
    have hdone : deeds past = vs.flatMap d.steps := by
      rw [steps, deeds_of_steps (steps.trans (List.append_nil _).symm)]
    rw [deeds_append, hdone]
    refine .inr ⟨?_, List.prefix_append _ _, ?_⟩
    · exact List.forall_mem_append.mpr ⟨fine, tells.fine⟩
    · cases tells with
      | untimed now e => exact .inl ⟨e, rfl⟩
      | unmarked now e => exact .inl ⟨e, rfl⟩
      | told now =>
        rw [if_neg (by simpa using some)]
        exact .inr ⟨⟨now, (Driver.errands_eq some now).symm⟩, rfl⟩

/-! ## The line of a node -/

/-- If lines are written, a node is started right after its own line is. -/
theorem launch_of_steps (hline : d.settings.regenerateConfig = true) {before todo : List Request}
    {role : String} {args : List String}
    (h : vs.flatMap d.steps = before ++ .launch role args :: todo) :
    ∃ m ∈ vs, m.role = role ∧ m.args = args ∧ ∃ earlier, before = earlier ++ [d.saving m] := by
  induction vs generalizing before with
  | nil => exact absurd h.symm (List.append_ne_nil_of_right_ne_nil _ (List.cons_ne_nil _ _))
  | cons m vs ih =>
    have hsteps : d.steps m =
        [.terminate m.role m.nodeDir, d.saving m, .launch m.role m.args] := by
      rw [Driver.steps, if_pos hline]
      rfl
    rw [List.flatMap_cons, hsteps] at h
    rcases before with _ | ⟨a, _ | ⟨b, _ | ⟨c, before⟩⟩⟩
    · cases h
    · cases h
    · simp only [List.cons_append, List.nil_append, List.cons.injEq, Request.launch.injEq] at h
      obtain ⟨rfl, rfl, ⟨hrole, hargs⟩, -⟩ := h
      exact ⟨m, List.mem_cons_self, hrole, hargs, [_], rfl⟩
    · simp only [List.cons_append, List.nil_append, List.cons.injEq] at h
      obtain ⟨rfl, rfl, rfl, h⟩ := h
      obtain ⟨m', hm', hrole, hargs, earlier, rfl⟩ := ih h
      exact ⟨m', List.mem_cons_of_mem m hm', hrole, hargs, _ :: _ :: _ :: earlier, rfl⟩

/-- Before a node is started its own line was written, and nothing was done since. -/
theorem Works.of_launch (hline : d.settings.regenerateConfig = true) {role : String}
    {args : List String} {next : Except Error Int → Talk (Except Error CycleOutcome)}
    (h : Works d t vs past (.ask (.launch role args) next)) :
    ∃ m ∈ vs, m.role = role ∧ m.args = args ∧
      ∃ earlier, past = earlier ++ [⟨d.saving m, (.ok () : Except Files.Fault Unit)⟩] := by
  cases h with
  | @working past q todo next steps fine =>
    obtain ⟨m, hm, hrole, hargs, earlier, hearlier⟩ := launch_of_steps hline steps
    refine ⟨m, hm, hrole, hargs, ?_⟩
    obtain ⟨before, last, rfl, -, hlast⟩ := List.map_eq_append_iff.mp hearlier
    obtain ⟨x, rfl, hx⟩ := List.map_eq_singleton_iff.mp hlast
    refine ⟨before, ?_⟩
    obtain ⟨q, r⟩ := x
    obtain rfl : q = d.saving m := hx
    have hfine := fine _ (List.mem_append_right _ List.mem_cons_self)
    cases r with
    | ok _ => rfl
    | error fault => cases hfine
  | telling some steps fine tells => cases tells

/-! ## The trace -/

/-- What comes behind something else. -/
theorem exists_of_append_eq {α : Type} {before after tail front : List α} {x : α}
    (h : front ++ after = before ++ x :: tail) (hx : x ∉ front) :
    ∃ middle, after = middle ++ x :: tail := by
  rcases List.append_eq_append_iff.mp h with ⟨middle, -, rfl⟩ | ⟨shared, rfl, htail⟩
  · exact ⟨middle, rfl⟩
  · cases shared with
    | nil => exact ⟨[], htail.symm⟩
    | cons y shared =>
      obtain rfl := List.head_eq_of_cons_eq htail
      exact absurd (List.mem_append_right _ List.mem_cons_self) hx

namespace Driver.Chose

/-- What a cycle does is what there is to do about those it chose, from the first on. -/
theorem prefix_errands (hvs : d.Chose t vs past after) (h : (d.cycle t).run.Leads past rest) :
    ∃ now, deeds past <+: d.errands t vs now ∧ ∀ q next, rest = .ask q next → q.isDeed = true →
      deeds past ++ [q] <+: d.errands t vs now := by
  rw [hvs.deeds_eq]
  rcases of_reopen_leads (hvs.leads h) with ⟨i, hi, rfl⟩ | ⟨inside, outcome, r, rfl, hi, rfl⟩
  · obtain ⟨now, hdone, hnext⟩ := (works_of_leads hi).prefix_errands
    refine ⟨now, hdone, fun q next hq hdeed => ?_⟩
    cases i with
    | done outcome =>
      obtain ⟨rfl, -⟩ := Dialogue.ask.inj hq
      cases hdeed
    | ask q' next' =>
      obtain ⟨rfl, -⟩ := Dialogue.ask.inj hq
      exact hnext q' next' rfl hdeed
  · obtain ⟨now, hdone, -⟩ := (works_of_leads hi).prefix_errands
    rw [deeds_reopening]
    exact ⟨now, hdone, nofun⟩

/-- After a step has failed, a cycle does nothing but open the gate, and it returns the error of
that step. -/
theorem eq_of_failure (hvs : d.Chose t vs past after)
    (h : (d.cycle t).run.Leads past rest) {before tail : List Exchange} {x : Exchange} {e : Error}
    (hpast : past = before ++ x :: tail) (hx : failure? x = some e) :
    (tail = [] ∧ rest = reopen t (.error e)) ∨
    ∃ r, tail = [reopening t r] ∧ rest = .done (.error e) := by
  have hleads := hvs.leads h
  obtain ⟨front, rfl, hfront⟩ := hvs.exists_front
  have hdeed := isDeed_of_failure hx
  obtain ⟨middle, rfl⟩ : ∃ middle, after = middle ++ x :: tail :=
    exists_of_append_eq hpast fun hin => nomatch hdeed.symm.trans (hfront x hin)
  rcases of_reopen_leads hleads with ⟨i, hi, rfl⟩ | ⟨inside, outcome, r, hinside, hi, rfl⟩
  · obtain ⟨rfl, rfl⟩ := (works_of_leads hi).eq_of_failure rfl hx
    exact .inl ⟨rfl, rfl⟩
  · rcases eq_last_or_earlier hinside.symm with ⟨-, rfl⟩ | ⟨later, rfl, hwork⟩
    · cases hdeed
    · obtain ⟨rfl, hdone⟩ := (works_of_leads hi).eq_of_failure hwork hx
      obtain rfl := Dialogue.done.inj hdone
      exact .inr ⟨r, rfl, rfl⟩

/-- Whoever a cycle is about to start finds its own line. -/
theorem of_launch (hvs : d.Chose t vs past after) (h : (d.cycle t).run.Leads past rest)
    (hline : d.settings.regenerateConfig = true) {role : String} {args : List String}
    {next : Except Error Int → Talk (Except Error CycleOutcome)}
    (hrest : rest = .ask (.launch role args) next) :
    ∃ m ∈ vs, m.role = role ∧ m.args = args ∧
      ∃ earlier, past = earlier ++ [⟨d.saving m, (.ok () : Except Files.Fault Unit)⟩] := by
  have hleads := hvs.leads h
  obtain ⟨front, rfl, -⟩ := hvs.exists_front
  rcases of_reopen_leads hleads with ⟨i, hi, hgo⟩ | ⟨inside, outcome, r, rfl, hi, hgo⟩
  · cases i with
    | done outcome => exact nomatch hgo.symm.trans hrest
    | ask q next' =>
      obtain ⟨rfl, -⟩ := Dialogue.ask.inj (hgo.symm.trans hrest)
      obtain ⟨m, hm, hrole, hargs, earlier, rfl⟩ := (works_of_leads hi).of_launch hline
      exact ⟨m, hm, hrole, hargs, front ++ earlier, (List.append_assoc ..).symm⟩
  · exact nomatch hgo.symm.trans hrest

/-- A cycle returns the error of a step that failed, or it was through with all it chose. -/
theorem of_done (hvs : d.Chose t vs past after) {result : Except Error CycleOutcome}
    (h : (d.cycle t).run.Leads past (.done result)) :
    (∃ x ∈ past, ∃ e, failure? x = some e ∧ result = .error e) ∨
    (∀ x ∈ past, failure? x = none) ∧ vs.flatMap d.steps <+: deeds past ∧
      ((∃ e, result = .error (.registry e)) ∨ (∃ now, deeds past = d.errands t vs now) ∧
        result = .ok (if vs.isEmpty then .noVictims else .cycled vs)) := by
  have hleads := hvs.leads h
  have hdeeds := hvs.deeds_eq
  obtain ⟨front, rfl, hfront⟩ := hvs.exists_front
  have hidle : ∀ x ∈ front, failure? x = none := fun x hx =>
    Option.eq_none_iff_forall_ne_some.mpr fun e he =>
      nomatch (isDeed_of_failure he).symm.trans (hfront x hx)
  rcases of_reopen_leads hleads with ⟨i, hi, hgo⟩ | ⟨inside, outcome, r, rfl, hi, hgo⟩
  · cases i <;> exact nomatch hgo
  · obtain rfl := Dialogue.done.inj hgo
    rw [hdeeds, deeds_reopening]
    rcases (works_of_leads hi).of_done with
      ⟨x, hx, e, hfailure, rfl⟩ | ⟨hfine, hsteps, ⟨e, rfl⟩ | ⟨hall, rfl⟩⟩
    · exact .inl ⟨x, by simp [hx], e, hfailure, rfl⟩
    all_goals
      refine .inr ⟨?_, hsteps, ?_⟩
      · simp only [List.forall_mem_append, List.forall_mem_singleton]
        exact ⟨hidle, hfine, rfl⟩
    · exact .inl ⟨e, rfl⟩
    · cases r with
      | ok _ => exact .inr ⟨hall, rfl⟩
      | error e => exact .inl ⟨e, rfl⟩

end Driver.Chose

/-- Whoever tells that it brought nodes down chose them, and was through with all of them. -/
theorem chose_of_cycled {ws : List Member}
    (h : (d.cycle t).run.Leads past (.done (.ok (.cycled ws)))) :
    ws ≠ [] ∧ ∃ after now, d.Chose t ws past after ∧ deeds past = d.errands t ws now := by
  obtain ⟨vs, after, hvs⟩ : ∃ vs after, d.Chose t vs past after := by
    generalize hresult : (Except.ok (.cycled ws) : Except Error CycleOutcome) = result at h
    cases closes_of_leads h with
    | @left inside outcome ends r =>
      cases ends with
      | @worked look choice after vs _ looked chosen works =>
        refine ⟨vs, after ++ [reopening t r], look, choice, ?_, looked, chosen⟩
        rw [List.append_assoc, List.append_assoc]
      | early => cases r <;> cases hresult
      | _ => cases hresult
    | _ => cases hresult
  rcases hvs.of_done h with ⟨x, -, e, -, hresult⟩ | ⟨-, -, ⟨e, hresult⟩ | ⟨⟨now, hall⟩, hresult⟩⟩
  · cases hresult
  · cases hresult
  · cases vs with
    | nil => cases hresult
    | cons v vs =>
      cases hresult
      exact ⟨List.cons_ne_nil v vs, after, now, hvs, hall⟩

/-- A line that was written is what its file holds. -/
theorem read_of_writeLine {w w' : Scenario.World} {dir path line : String}
    (hw : w.files.IsClosed) (h : w.writeLine dir path line = (w', .ok ())) :
    ∃ written, w'.files.read path = .ok (Text.Utf8.encode line, written) := by
  have hmade := Files.Tree.makeAbove_spec hw dir.length dir
  unfold Scenario.World.writeLine at h
  split at h
  · cases h
  · next files hdir =>
    rw [Files.Tree.makeDirectories] at hdir
    rw [hdir] at hmade
    split at h
    · cases h
    · next hwrite =>
      cases h
      exact Files.Tree.read_of_write hmade.2 hwrite

/-- The trace of a cycle.  Once it has chosen `vs`, what it does is what there is to do about them,
node by node, and then what tells of it.  A step that fails is the last thing it does but for
opening the gate, and what it returns is the error of that step.  With lines to be written, a node
is started right after its own line was, and the file of its role then holds that line.  Whoever is
told which nodes were brought down can rely on it that all steps were taken for all of them. -/
theorem cycle_trace (h : (d.cycle t).run.Leads past rest) :
    (∀ vs after, d.Chose t vs past after →
      (∃ now, deeds past <+: d.errands t vs now ∧ ∀ q next, rest = .ask q next →
        q.isDeed = true → deeds past ++ [q] <+: d.errands t vs now) ∧
      (∀ before x tail e, past = before ++ x :: tail → failure? x = some e →
        (tail = [] ∧ rest = reopen t (.error e)) ∨
        ∃ r, tail = [reopening t r] ∧ rest = .done (.error e)) ∧
      (d.settings.regenerateConfig = true → ∀ role args next, rest = .ask (.launch role args) next →
        ∃ m ∈ vs, m.role = role ∧ m.args = args ∧
          (∃ earlier, past = earlier ++ [⟨d.saving m, (.ok () : Except Files.Fault Unit)⟩]) ∧
          ∀ w w' : Scenario.World, w.files.IsClosed →
            w.writeLine d.settings.confDir (Path.join d.settings.confDir (role ++ "s"))
              (m.fragment ++ "\n") = (w', .ok ()) →
            ∃ written, w'.files.read (Path.join d.settings.confDir (role ++ "s")) =
              .ok (Text.Utf8.encode (m.fragment ++ "\n"), written)) ∧
      (∀ result, rest = .done result →
        (∃ x ∈ past, ∃ e, failure? x = some e ∧ result = .error e) ∨
        (∀ x ∈ past, failure? x = none) ∧ vs.flatMap d.steps <+: deeds past ∧
          ((∃ e, result = .error (.registry e)) ∨ (∃ now, deeds past = d.errands t vs now) ∧
            result = .ok (if vs.isEmpty then .noVictims else .cycled vs)))) ∧
    ∀ ws, rest = .done (.ok (.cycled ws)) →
      ws ≠ [] ∧ ∃ after now, d.Chose t ws past after ∧ deeds past = d.errands t ws now := by
  refine ⟨fun vs after hvs => ⟨hvs.prefix_errands h, ?_, ?_, ?_⟩, ?_⟩
  · exact fun before x tail e hpast hx => hvs.eq_of_failure h hpast hx
  · intro hline role args next hrest
    obtain ⟨m, hm, rfl, rfl, hsaved⟩ := hvs.of_launch h hline hrest
    exact ⟨m, hm, rfl, rfl, hsaved, fun w w' hw hwrite => read_of_writeLine hw hwrite⟩
  · rintro result rfl
    exact hvs.of_done h
  · rintro ws rfl
    exact chose_of_cycled h

/-- Two servers, and a driver that may bring both of them down. -/
def elder : Member := .ofIdentity ⟨"host", 8, "server", "b"⟩ "elder" 9

def younger : Member := .ofIdentity ⟨"host", 10, "server", "c"⟩ "younger" 11

def twins : Driver :=
  ⟨⟨"host", 7, "client", "a"⟩, [elder, younger], { cycleNodes := true, storesToStop := 2 }⟩

/-- The first server that is started exits with code 3. -/
def crash : List Exchange :=
  [⟨.terminate "server" "younger", (.ok () : Except Error Unit)⟩,
    ⟨twins.saving younger, (.ok () : Except Files.Fault Unit)⟩,
    ⟨.launch "server" ["start"], (.ok 3 : Except Error Int)⟩]

/-- The younger one is drawn first. -/
def crashing : List Exchange :=
  arrival .store (.ok 1) :: ([getting Target.store.cycledKey none] ++
    ([⟨.draw 2, (1 : Nat)⟩, ⟨.draw 1, (0 : Nat)⟩] ++ crash))

theorem crash_chose : twins.Chose .store [younger, elder] crashing crash :=
  ⟨_, _, rfl, .on (.here _), .on (.on (.here _))⟩

/-- The other one is left alone, and what is left to do is to open the gate. -/
theorem crash_trace :
    ∃ rest, (twins.cycle .store).run.Leads crashing rest ∧
      (∃ now, deeds crashing <+: twins.errands .store [younger, elder] now) ∧
      rest = reopen .store (.error (.failover (.launchFailed "server" 3))) := by
  obtain ⟨rest, hleads⟩ : ∃ rest, (twins.cycle .store).run.Leads crashing rest :=
    ⟨_, .on (.on (.on (.on (.on (.on (.on (.here _)))))))⟩
  obtain ⟨⟨now, horder, -⟩, hcut, -⟩ := (cycle_trace hleads).1 _ _ crash_chose
  refine ⟨rest, hleads, ⟨now, horder⟩, ?_⟩
  rcases hcut crashing.dropLast _ [] _ rfl rfl with ⟨-, hrest⟩ | ⟨r, hr, -⟩
  · exact hrest
  · exact nomatch hr

end Primacy.Failover
