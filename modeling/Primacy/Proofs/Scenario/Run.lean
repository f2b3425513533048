/-
  Primacy.Proofs.Scenario.Run

  A whole scripted run, seen in the view of the world: every step of a task, every moment that
  passes and every command leads the view on.  The electors of a run are thus where incidents lead
  from fresh nodes, and what holds of every node in every run holds of what the reports tell.
-/
import Primacy.Proofs.Scenario.Work
import Primacy.Scenario.Command

namespace Primacy.Scenario

open Election (Activity Elector Node)

namespace World

variable {w : World} {id : Nat}

/-! ## Putting things in order -/

theorem view_wake (w : World) : w.wake.view = w.view := by
  simp only [wake]
  split <;> rfl

theorem view_freeLocks (w : World) : w.freeLocks.view = w.view := by
  unfold freeLocks
  generalize List.range w.locks.size = ids
  induction ids generalizing w with
  | nil => rfl
  | cons id ids ih =>
    rw [List.foldl_cons, ih]
    split
    · split
      · split <;> rfl
      · rfl
    · rfl

theorem leads_dropElectors (w : World) : w.view.Leads w.dropElectors.view := by
  have hdrop : ∀ (id : Nat) (e : Elector), w.view.electors[id]? = some e →
      w.dropElectors.view.electors[id]? = some e ∨
      w.dropElectors.view.electors[id]? = some e.drop := by
    intro id e he
    obtain ⟨cell, hcell, rfl⟩ := Option.map_eq_some_iff.mp ((electors_view w id).symm.trans he)
    rw [electors_view, elector?, dropElectors, Array.getElem?_mapIdx, hcell]
    simp only [Option.map_some]
    split
    · exact .inl rfl
    · exact .inr rfl
  refine View.Leads.discard ?_ hdrop
  show (w.dropElectors.electors.map (·.elector)).size = (w.electors.map (·.elector)).size
  rw [Array.size_map, Array.size_map, dropElectors, Array.size_mapIdx]

theorem leads_tidy (w : World) : w.view.Leads w.tidy.view := by
  rw [tidy, view_wake, view_freeLocks]
  exact leads_dropElectors w

/-! ## Steps of the world -/

theorem leads_step (w : World) : w.view.Leads w.step.view := by
  intro hv
  refine (?_ : w.view.Leads w.step.view) hv
  unfold step
  split
  · next t rest queue disk hstack =>
    split
    · next hnone =>
      -- a name without a task
      refine View.Leads.stack fun t' ht' => ?_
      have ht' : t' ∈ w.stack := ht'
      rw [hstack, List.mem_cons] at ht'
      rcases ht' with rfl | hmem
      · refine .inr fun k hk => ?_
        rw [works_view, hnone] at hk
        exact nomatch hk
      · exact .inl (by rw [hstack]; exact hmem)
    · next task htask =>
      have hensues := ensues_stepTask hv htask (by rw [hstack]; exact List.mem_cons_self)
      split
      · next w' hstep =>
        rw [hstep] at hensues
        exact hensues.trans (leads_tidy _)
      · next w' hstep =>
        rw [hstep] at hensues
        exact hensues.trans (leads_tidy _)
      · next w' p hwait hbroken hstep =>
        rw [hstep] at hensues
        refine View.Leads.trans ?_ (leads_tidy w')
        cases p with
        | answered x => exact hensues
        | again => exact hensues
        | wait => exact absurd rfl hwait
        | broken => exact absurd rfl hbroken
  · next t queue disk hstack _ =>
    refine View.Leads.stack fun t' ht' => ?_
    have ht' : t' ∈ w.stack := ht'
    rw [hstack] at ht'
    exact nomatch ht'
  · exact leads_of_eq (view_wake _)
  · exact .refl _

/-- However long a moment takes, the view leads on. -/
theorem leads_settle (fuel : Nat) (w : World) : w.view.Leads (settle fuel w).view := by
  induction fuel generalizing w with
  | zero => exact .refl _
  | succ fuel ih =>
    rw [settle]
    split
    · exact .refl _
    · exact (leads_step w).trans (ih _)

theorem leads_passUntil (till fuel : Nat) (w : World) :
    w.view.Leads (passUntil till fuel w).view := by
  induction fuel generalizing w with
  | zero => exact .refl _
  | succ fuel ih =>
    rw [passUntil]
    split
    · next n _ =>
      split
      · have hwake : ({ w with now := max n w.now } : World).wake.view = w.view := view_wake _
        exact (leads_of_eq hwake).trans ((leads_settle maxSteps _).trans (ih _))
      · exact .refl _
    · exact .refl _

theorem leads_pass (w : World) (duration : Nat) : w.view.Leads (w.pass duration).view :=
  leads_passUntil (w.now + duration) (duration + 1) w

/-! ## Commands -/

/-- While no task is at work, any call may be given up. -/
theorem leads_breakOffStep (hrest : w.stack = []) (step : Nat) :
    w.view.Leads (w.breakOffStep step).view := by
  unfold breakOffStep
  split
  · next t _ =>
    cases hwork : w.view.works[t]? with
    | none =>
      refine leads_breakOff_idle _ fun k hk => ?_
      exact nomatch hwork.symm.trans hk
    | some k =>
      cases hact : k.act? with
      | none =>
        refine leads_breakOff_idle _ fun k' hk' => ?_
        exact Option.some.inj (hwork.symm.trans hk') ▸ hact
      | some x =>
        rw [view_breakOff .cancelled hwork hact]
        refine .breakOff hwork hact fun e _ => .inr (.inr ?_)
        show t ∉ w.stack
        rw [hrest]
        exact List.not_mem_nil
  · exact .refl _

theorem view_runFile (w : World) (c : FileCall) : (w.runFile c).1.view = w.view := by
  unfold runFile
  cases c with
  | write path bytes written =>
    simp only
    split
    · rfl
    · split <;> rfl
  | makeLink path target =>
    simp only
    split <;> rfl
  | remove path =>
    simp only
    split <;> rfl
  | read path =>
    simp only
    split
    · rfl
    · split <;> rfl
  | append path text =>
    simp only
    split <;> rfl
  | withExtension dir ext =>
    simp only
    split <;> rfl
  | contains path needles =>
    simp only
    split <;> rfl
  | _ => rfl

/-- A new task at no activity. -/
theorem leads_spawn {k : Work} (step : Option Nat) (hk : k.act? = none) :
    w.view.Leads (w.spawn step k).view := by
  rw [view_spawn]
  exact .push_other hk

theorem leads_runGate (w : World) (i : Nat) (name : String) (c : GateCall) :
    w.view.Leads (w.runGate i name c).view := by
  unfold runGate
  split
  · exact .refl _
  · exact .refl _
  · simp only
    split
    · exact .refl _
    · exact .refl _
    · exact .refl _
    · exact .refl _
    · exact leads_spawn _ rfl

theorem leads_runRegistry (w : World) (i : Nat) (name : String) (c : RegistryCall) :
    w.view.Leads (w.runRegistry i name c).view := by
  unfold runRegistry
  split
  · exact .refl _
  · cases c with
    | entries =>
      simp only
      split
      · exact .refl _
      · exact leads_of_eq (view_runFile ..)
      · exact .refl _
    | counter key =>
      simp only
      split <;> exact .refl _
    | path =>
      simp only
      split <;> exact .refl _
    | fault f => exact .refl _
    | resume => exact .refl _
    | _ => exact leads_spawn _ rfl

theorem view_dropLock (w : World) (name : String) : (w.dropLock name).view = w.view := by
  unfold dropLock
  split <;> rfl

theorem leads_runLock (w : World) (i : Nat) (name : String) (c : LockStep) :
    w.view.Leads (w.runLock i name c).view := by
  unfold runLock
  split
  · exact leads_of_eq (view_dropLock w name)
  · exact leads_of_eq (view_dropLock w name)
  · exact .refl _
  · split
    · exact .refl _
    · exact .refl _
    · exact leads_spawn _ rfl
    · exact leads_of_eq (view_evict w _ _)
    · split <;> exact .refl _
    · exact leads_of_eq (view_dropLock w name)
    · split <;> exact .refl _
    · exact .refl _

/-- A new task that makes a call on an elector. -/
theorem leads_call (i : Nat) (c : Election.Entry) {e : Elector} (hid : w.elector? id = some e) :
    w.view.Leads (w.spawn (some i) (.elector id c.activity)).view := by
  rw [view_spawn]
  rw [← electors_view] at hid
  exact .call c (Array.getElem?_eq_some_iff.mp hid).1

theorem leads_runNode (w : World) (i : Nat) (name : String) (c : NodeCall) :
    w.view.Leads (w.runNode i name c).view := by
  unfold runNode
  split
  · next ident port dir lock registry =>
    split
    · next l r _ _ =>
      obtain ⟨owner, hview, -⟩ := view_makeNode w name ident port dir l r
      show w.view.Leads (w.makeNode name ident port dir l r).1.view
      rw [hview]
      exact .found
    · exact .refl _
  · exact .refl _
  · split
    · exact .refl _
    · next e he =>
      split
      · exact .refl _
      · simp only
        split
        · next p hp =>
          obtain ⟨entry, hentry⟩ := Election.Entry.exists_of_enter hp
          rw [← hentry]
          exact leads_call i entry he
        · exact .refl _
      · exact leads_call i .stop he
      · exact leads_call i .await he
      · next callback _ => exact leads_call i (.notify callback) he
      · exact leads_dropNode w name
      · exact .refl _
      · exact .refl _
      · exact .refl _

theorem leads_runDriver (w : World) (i : Nat) (name : String) (c : DriverCall) :
    w.view.Leads (w.runDriver i name c).view := by
  unfold runDriver
  split
  · exact .refl _
  · split
    · exact .refl _
    · split
      · exact .refl _
      · exact leads_setDriver w _ (f := fun cell => { cell with hookCalls := [] }) fun _ h => h
      · split
        · exact leads_spawn _ rfl
        · exact .refl _

/-- A new driver takes no cluster away. -/
theorem leads_addDriver (w : World) (cell : DriverCell) (name : String) :
    w.view.Leads ({ w with
      drivers := w.drivers.push cell
      driverNames := w.driverNames.insert name w.drivers.size } : World).view := by
  refine View.Leads.staff fun i hi => ?_
  have hi : (w.drivers.map (·.cluster.isSome))[i]? = some true := hi
  have hne : i ≠ (w.drivers.map (·.cluster.isSome)).size :=
    Nat.ne_of_lt (Array.getElem?_eq_some_iff.mp hi).1
  rw [Array.map_push, Array.getElem?_push, if_neg hne]
  exact hi

/-- Every command leads the view on; one that gives up a call does so if no task is at work. -/
theorem leads_run (i : Nat) {c : Command} (hrest : ∀ step, c = .cancel step → w.stack = []) :
    w.view.Leads (w.run i c).view := by
  cases c with
  | advance duration => exact leads_pass w duration
  | cancel step => exact leads_breakOffStep (hrest step rfl) step
  | file c => exact leads_of_eq (view_runFile w c)
  | gate name c => exact leads_runGate w i name c
  | makeMemoryRegistry name => exact .refl _
  | openRegistry name path =>
    simp only [run]
    split <;> exact .refl _
  | registry name c => exact leads_runRegistry w i name c
  | lock name c => exact leads_runLock w i name c
  | node name c => exact leads_runNode w i name c
  | makeDriver name registry here roster settings launches terminations cluster =>
    simp only [run]
    split
    · exact .refl _
    · exact .refl _
    · exact leads_addDriver w _ name
  | driver name c => exact leads_runDriver w i name c

/-! ## Runs -/

theorem leads_perform (i : Nat) {c : Command}
    (hrest : ∀ step, c = .cancel step → w.stack = []) :
    w.view.Leads (w.perform i c).1.view := by
  have hrun : w.view.Leads (({ w with ended := [], events := [] } : World).run i c).view :=
    leads_run (w := { w with ended := [], events := [] }) i hrest
  exact hrun.trans ((leads_tidy _).trans ((leads_settle maxSteps _).trans (leads_pass _ 1)))

/-- The world after commands, from step `i` on. -/
def after (w : World) (i : Nat) : List Command → World
  | [] => w
  | c :: cs => (w.perform i c).1.after (i + 1) cs

/-- No call is given up while a task is at work.  A task is at work after a command only if it took
more steps than one moment may. -/
def CancelsAtRest (w : World) (i : Nat) : List Command → Prop
  | [] => True
  | c :: cs => (∀ step, c = .cancel step → w.stack = []) ∧ (w.perform i c).1.CancelsAtRest (i + 1) cs

variable {i : Nat} {cs : List Command} {c : Command}

/-- Whatever a script does, the view leads on. -/
theorem leads_after (h : w.CancelsAtRest i cs) : w.view.Leads (w.after i cs).view := by
  induction cs generalizing w i with
  | nil => exact .refl _
  | cons c cs ih => exact (leads_perform i h.1).trans (ih h.2)

theorem CancelsAtRest.of_append {js : List Command} (h : w.CancelsAtRest i (cs ++ js)) :
    w.CancelsAtRest i cs := by
  induction cs generalizing w i with
  | nil => trivial
  | cons c cs ih => exact ⟨h.1, ih h.2⟩

/-- A report tells of the world after the commands up to its own. -/
theorem exists_after_of_mem {r : Report} (h : r ∈ w.performAll i cs) :
    ∃ before later, cs = before ++ later ∧ ∃ k, r = (w.after i before).report k := by
  induction cs generalizing w i with
  | nil => exact nomatch h
  | cons c cs ih =>
    rcases List.mem_cons.mp h with rfl | hmem
    · exact ⟨[c], cs, rfl, i, rfl⟩
    · obtain ⟨before, later, rfl, k, rfl⟩ := ih hmem
      exact ⟨c :: before, later, rfl, k, rfl⟩

/-- The world at the beginning of a run. -/
def start (timeOfDay : Int) : World :=
  { now := 0, timeOfDay := timeOfDay, files := .blank (timeOfDay * 1000000) }

theorem faithful_start (timeOfDay : Int) : (start timeOfDay).view.Faithful where
  tracked _ h := by simp [view, start] at h
  works _ h := by simp [view, start] at h
  named _ h := nomatch h

/-! ## What reports tell -/

/-- However a script makes calls, scripts its locks, breaks its registries and gives up calls: an
elector keeps to the life of an elector as long as the run goes on. -/
theorem precedes_after (hw : w.view.Faithful) (h : w.CancelsAtRest i cs) {e : Elector}
    (he : w.elector? id = some e) :
    ∃ e', (w.after i cs).elector? id = some e' ∧ e.face.Precedes e'.face := by
  rw [← electors_view] at he
  obtain ⟨ident, owner, port, dir, is, n, c, -, hn⟩ :=
    hw.tracked id (Array.getElem?_eq_some_iff.mp he).1
  obtain ⟨js, n', c', hlive, hn'⟩ := (leads_after h hw).2 id n hn
  refine ⟨n'.elector, (electors_view ..).symm.trans hn'.elector, ?_⟩
  obtain rfl : e = n.elector := Option.some.inj (he.symm.trans hn.elector)
  exact Node.live?_precedes hlive

/-- Of the tasks at work on one elector, one at most is on its way to the lock, or was granted it
without showing it yet. -/
theorem eq_of_competes (hw : w.view.Faithful) (h : w.CancelsAtRest i cs) {t t' : TaskId}
    {k k' : Work} {a a' : Activity} (ht : (w.after i cs).view.works[t]? = some k)
    (ht' : (w.after i cs).view.works[t']? = some k') (hk : k.act? = some (id, a))
    (hk' : k'.act? = some (id, a')) (ha : a.stage.competes = true)
    (ha' : a'.stage.competes = true) : t = t' := by
  have hfaithful := (leads_after h hw).1
  have hid := (hfaithful.works k (Array.mem_of_getElem? ht)).placed id a hk
  obtain ⟨ident, owner, port, dir, is, n, c, hlive, hn⟩ := hfaithful.tracked id hid
  obtain ⟨asked, hcourse, -⟩ := hn.going t k a ht hk
  obtain ⟨asked', hcourse', -⟩ := hn.going t' k' a' ht' hk'
  refine (Node.custody_of_live? hlive).balanced.alone t t' ?_ ?_
  · rwa [Node.stage_of_going hcourse]
  · rwa [Node.stage_of_going hcourse']

end World

/-- Every status that a run reports is that of a node that incidents lead to from a fresh one. -/
theorem exists_live_of_report {timeOfDay : Int} {commands : List Command} {r : Report}
    {name : String} {s : Election.State} (hr : r ∈ runScript timeOfDay commands)
    (hrest : (World.start timeOfDay).CancelsAtRest 0 commands) (hs : (name, s) ∈ r.nodes) :
    ∃ i owner port dir is n c,
      (Node.fresh (.fresh i owner port dir)).live? is = some (n, c) ∧ n.elector.status = s := by
  obtain ⟨before, later, rfl, k, rfl⟩ := World.exists_after_of_mem (w := World.start timeOfDay) hr
  have hfaithful := (World.leads_after hrest.of_append (World.faithful_start timeOfDay)).1
  obtain ⟨⟨name', id⟩, -, hstatus⟩ := List.mem_filterMap.mp hs
  obtain ⟨e, he, heq⟩ := Option.map_eq_some_iff.mp hstatus
  cases heq
  rw [← World.electors_view] at he
  obtain ⟨i, owner, port, dir, is, n, c, hlive, hn⟩ :=
    hfaithful.tracked id (Array.getElem?_eq_some_iff.mp he).1
  refine ⟨i, owner, port, dir, is, n, c, hlive, ?_⟩
  rw [Option.some.inj (he.symm.trans hn.elector)]

end Primacy.Scenario
