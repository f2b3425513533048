/-
  Primacy.Proofs.Scenario.Work

  One step of one task of a scripted run, seen in the view of the world: whatever a script makes of
  the lock calls and of the registry, and whatever the step comes to, the view leads on.  The
  electors of a run thus move as nodes do.
-/
import Primacy.Proofs.Scenario.View
import Primacy.Scenario.Clock

namespace Primacy.Scenario

open Election (Activity Elector Ending Turn)

theorem Work.eq_of_act? {k : Work} {id : Nat} {a : Activity} (h : k.act? = some (id, a)) :
    k = .elector id a ∨ ∃ i d rest, k = .failover i d (some (.starting id a rest)) := by
  unfold act? at h
  split at h
  · cases h
    exact .inl rfl
  · cases h
    exact .inr ⟨_, _, _, rfl⟩
  · exact nomatch h

theorem map_modify {α β : Type} {f : α → α} {g : α → β} {k : β → β} (h : ∀ x, g (f x) = k (g x))
    (xs : Array α) (i : Nat) : (xs.modify i f).map g = (xs.map g).modify i k := by
  refine Array.ext (by simp) fun j hj hj' => ?_
  simp only [Array.getElem_map, Array.getElem_modify]
  split
  · exact h _
  · rfl

theorem map_modify_same {α β : Type} {f : α → α} {g : α → β} (h : ∀ x, g (f x) = g x)
    (xs : Array α) (i : Nat) : (xs.modify i f).map g = xs.map g := by
  rw [map_modify (k := id) h]
  exact Array.ext Array.size_modify fun j _ _ => by simp [Array.getElem_modify]

namespace World

/-- What links a world to nodes. -/
def view (w : World) : View where
  electors := w.electors.map (·.elector)
  works := w.tasks.map (·.work)
  stack := w.stack
  names := w.nodeNames
  staffed := w.drivers.map (·.cluster.isSome)

variable {w w' : World} {t : TaskId} {k : Work} {id : Nat} {a : Activity} {e : Elector}

theorem leads_of_eq (h : w'.view = w.view) : w.view.Leads w'.view := by
  rw [h]
  exact .refl _

/-! ## The view after an operation -/

theorem works_view (w : World) (t : TaskId) : w.view.works[t]? = (w.task? t).map Task.work :=
  Array.getElem?_map

theorem electors_view (w : World) (id : Nat) : w.view.electors[id]? = w.elector? id :=
  Array.getElem?_map

theorem exists_cluster (h : w.view.staffed[id]? = some true) :
    ∃ c, w.drivers[id]?.bind DriverCell.cluster = some c := by
  have h : (w.drivers.map (·.cluster.isSome))[id]? = some true := h
  rw [Array.getElem?_map, Option.map_eq_some_iff] at h
  obtain ⟨cell, hcell, hcluster⟩ := h
  obtain ⟨c, hc⟩ := Option.isSome_iff_exists.mp hcluster
  exact ⟨c, by rw [hcell, Option.bind_some, hc]⟩

@[simp] theorem view_setPhase (w : World) (t : TaskId) (p : Phase) :
    (w.setPhase t p).view = w.view := by
  have hworks : (w.setPhase t p).tasks.map (·.work) = w.tasks.map (·.work) :=
    map_modify_same (f := fun k => { k with phase := p }) (fun _ => rfl) w.tasks t
  exact congrArg (fun works => { w.view with works := works }) hworks

@[simp] theorem view_setWork (w : World) (t : TaskId) (k : Work) :
    (w.setWork t k).view = w.view.setWork t k := by
  have hworks : (w.setWork t k).tasks.map (·.work) = (w.tasks.map (·.work)).setIfInBounds t k := by
    refine Array.ext (by simp [setWork, setTask]) fun i hi hi' => ?_
    have hbound : i < (w.tasks.map (·.work)).size := by simpa using hi'
    rw [Array.getElem_setIfInBounds hbound]
    simp only [setWork, setTask, Array.getElem_map, Array.getElem_modify]
    split <;> rfl
  exact congrArg (fun works => { w.view with works := works }) hworks

@[simp] theorem view_spawn (w : World) (step : Option Nat) (k : Work) :
    (w.spawn step k).view = w.view.push k :=
  congrArg (fun works => { w.view with works := works }) Array.map_push

@[simp] theorem view_spawnFirst (w : World) (k : Work) :
    (w.spawnFirst k).view = w.view.pushFirst k := by
  have hsize : w.view.works.size = w.tasks.size := Array.size_map ..
  rw [View.pushFirst, hsize, ← view_spawn w none k]
  rfl

@[simp] theorem view_finish (w : World) (t : TaskId) (r : Outcome) :
    (w.finish t r).view = (w.view.setWork t .ended).erase t := by
  rw [← view_setWork, finish]
  split
  · split <;> rfl
  · rfl

@[simp] theorem view_withdraw (w : World) (t : TaskId) : (w.withdraw t).view = w.view := by
  unfold withdraw
  split <;> rfl

@[simp] theorem view_awaitDisk (w : World) (t : TaskId) : (w.awaitDisk t).view = w.view :=
  view_setPhase w t .disk

theorem view_setElector (w : World) (id : Nat) {f : ElectorCell → ElectorCell}
    {f' : Elector → Elector} (h : ∀ cell, (f cell).elector = f' cell.elector) :
    (w.setElector id f).view = w.view.modify id f' :=
  congrArg (fun electors => { w.view with electors := electors }) (map_modify h w.electors id)

theorem view_setElector_same (w : World) (id : Nat) {f : ElectorCell → ElectorCell}
    (h : ∀ cell, (f cell).elector = cell.elector) : (w.setElector id f).view = w.view :=
  congrArg (fun electors => { w.view with electors := electors })
    (map_modify_same h w.electors id)

theorem view_carryOut (w : World) (id : Nat) (before : Elector) (turn : Turn Activity Ending) :
    (w.carryOut id before turn).1.view = w.view.carryOut id before turn := by
  have hset : (w.setElector id fun cell => { cell with elector := turn.elector }).view =
      w.view.modify id fun _ => turn.elector := view_setElector w id fun _ => rfl
  rw [View.carryOut, ← hset]
  simp only [carryOut]
  split
  · exact view_spawn (w.setElector id fun cell => { cell with elector := turn.elector }) none _
  · rfl

theorem view_makeNode (w : World) (name : String) (i : Identity) (port : Nat)
    (dir : Option String) (lock registry : Nat) : ∃ owner,
    (w.makeNode name i port dir lock registry).1.view =
      w.view.found name (.fresh i owner port dir) ∧
    (w.makeNode name i port dir lock registry).2 = w.view.electors.size := by
  have hview : ∀ (w₁ : World) (cell : ElectorCell), w₁.view = w.view →
      w₁.nodeNames = w.nodeNames → ({ w₁ with
        electors := w₁.electors.push cell
        nodeNames := w₁.nodeNames.insert name w₁.electors.size } : World).view =
        w.view.found name cell.elector := by
    intro w₁ cell h hnames
    rw [← h]
    simp [view, View.found]
  rw [makeNode]
  split
  · next old _ =>
    have hsame := view_setElector_same w old (f := fun cell => { cell with named := false })
      fun _ => rfl
    refine ⟨_, hview _ _ hsame rfl, ?_⟩
    rw [← hsame]
    exact (Array.size_map ..).symm
  · exact ⟨_, hview w _ rfl rfl, (Array.size_map ..).symm⟩

theorem view_breakOff (r : Outcome) (hwork : w.view.works[t]? = some k)
    (hact : k.act? = some (id, a)) : (w.breakOff t r).view = w.view.breakOff t id a := by
  obtain ⟨task, htask, rfl⟩ := Option.map_eq_some_iff.mp ((works_view w t).symm.trans hwork)
  have hset : ((w.withdraw t).setElector id fun cell =>
      { cell with elector := a.abandon cell.elector t }).view = w.view.modify id (a.abandon · t) := by
    rw [← view_withdraw w t]
    exact view_setElector _ id fun _ => rfl
  rw [breakOff, htask]
  simp only
  rcases Work.eq_of_act? hact with hk | ⟨_, _, _, hk⟩
  · rw [hk]
    simp only [view_finish, hset]
    rfl
  · rw [hk]
    simp only [view_finish, hset]
    rfl

/-- A task at no activity breaks off nothing. -/
theorem leads_breakOff_idle (r : Outcome)
    (hidle : ∀ k, w.view.works[t]? = some k → k.act? = none) :
    w.view.Leads (w.breakOff t r).view := by
  rw [breakOff]
  split
  · exact .refl _
  · next task htask =>
    have hnone : task.work.act? = none := by
      refine hidle _ ?_
      rw [works_view, htask]
      rfl
    simp only
    split
    · next hk =>
      rw [hk] at hnone
      exact nomatch hnone
    · next hk =>
      rw [hk] at hnone
      exact nomatch hnone
    · rw [view_finish, view_withdraw]
      refine (View.Leads.setWork_other t rfl).trans (.erase_other fun k' hk' => ?_)
      rcases View.of_getElem?_setWork hk' with ⟨-, rfl⟩ | ⟨hne, -⟩
      · rfl
      · exact absurd rfl hne

/-! ## Looks at requests -/

theorem stirs_of_eq (h : w'.view = w.view) : w.view.Stirs w'.view := h ▸ .still

theorem stirs_stopFirst (w : World) (node : String) : w.view.Stirs (w.stopFirst node).view := by
  unfold stopFirst
  split
  · next id hid =>
    rw [view_spawnFirst]
    exact .stop node id hid
  · exact .still

theorem stirs_stopFirst_of_eq (h : w'.view = w.view) (node : String) :
    w.view.Stirs (w'.stopFirst node).view :=
  h ▸ stirs_stopFirst w' node

theorem stirs_callLock (w : World) (t : TaskId) (id : Nat) (c : Lock.Call) :
    w.view.Stirs (w.callLock t id c).1.view := by
  unfold callLock
  split
  · exact .still
  · simp only
    split
    · exact .still
    · exact stirs_of_eq (view_setPhase _ t _)
  · simp only
    split
    · exact .still
    · exact stirs_of_eq (view_setPhase _ t _)

theorem stirs_startLock (w : World) (t : TaskId) (id : Nat) (c : Lock.Call) :
    w.view.Stirs (w.startLock t id c).1.view := by
  unfold startLock
  split
  · exact .still
  · simp only
    split
    · exact stirs_of_eq (view_setPhase _ t _)
    · exact stirs_of_eq (view_setPhase _ t _)
    · exact .still
    · exact .still
    · exact stirs_of_eq (view_setPhase _ t _)
    · exact .still
    · refine stirs_stopFirst_of_eq (w := w) ?_ _
      exact view_setPhase _ t _

theorem stirs_lookLock (w : World) (t : TaskId) (id : Nat) (c : Lock.Call) :
    w.view.Stirs (w.lookLock t id c).1.view := by
  unfold lookLock
  split
  · exact stirs_startLock w t id c
  · exact .still
  · exact .still
  · exact stirs_callLock w t id c

theorem view_callRegistry (w : World) (id : Nat) (q : Registry.Request) :
    (w.callRegistry id q).1.view = w.view := by
  unfold callRegistry
  split
  · rfl
  · split <;> rfl
  · split
    · rfl
    · split <;> rfl

theorem stirs_lookRegistry (w : World) (t : TaskId) (id : Nat) (q : Registry.Request) :
    w.view.Stirs (w.lookRegistry t id q).1.view := by
  unfold lookRegistry
  simp only
  split
  · split
    · exact stirs_of_eq (view_setPhase _ t _)
    · exact .still
    · exact stirs_of_eq (view_setPhase _ t _)
    · refine stirs_stopFirst_of_eq (w := w) ?_ _
      exact view_setPhase _ t _
    · exact .still
  · split
    · exact stirs_of_eq (view_callRegistry w id q)
    · exact .still
  · split
    · exact stirs_of_eq (view_awaitDisk w t)
    · exact stirs_of_eq (view_callRegistry w id q)

theorem stirs_lookElector (w : World) (t : TaskId) (cell : ElectorCell) (q : Election.Request) :
    w.view.Stirs (w.lookElector t cell q).1.view := by
  unfold lookElector
  split
  · exact stirs_lookLock w t cell.lock _
  · next key value _ =>
    have h := stirs_lookRegistry w t cell.registry (.put key value)
    unfold onAnswer
    split
    · next w' r hlook =>
      rw [hlook] at h
      cases r <;> exact h
    all_goals
      next w' hlook =>
      rwa [hlook] at h

/-! ## Steps of activities -/

/-- What a step of an activity comes to: a turn, or nothing yet.  Whoever waits may be suspended
there, and only a request breaks down. -/
inductive Comes (w : World) (t : TaskId) (id : Nat) (e : Elector) (a : Activity) :
    World × Progress (Activity ⊕ Ending) → Prop where
  | turn {w₁ : World} {x : Turn Activity Ending} (stirs : w.view.Stirs w₁.view)
      (takes : View.Takes e t a x) : Comes w t id e a (w₁.carryOut id e x)
  | again {w₁ : World} (stirs : w.view.Stirs w₁.view) : Comes w t id e a (w₁, .again)
  | wait {w₁ : World} (stirs : w.view.Stirs w₁.view)
      (rests : (a.request? e).isSome = true ∨ a.mayRest false = true) :
      Comes w t id e a (w₁, .wait)
  | broken {w₁ : World} (stirs : w.view.Stirs w₁.view) (request : (a.request? e).isSome = true) :
      Comes w t id e a (w₁, .broken)

theorem stepActivity_comes {cell : ElectorCell} (t : TaskId) (a : Activity)
    (hcell : w.electors[id]? = some cell) :
    Comes w t id cell.elector a (w.stepActivity t id a) := by
  unfold stepActivity
  rw [hcell]
  simp only
  split
  · next hrequest =>
    split
    · next hready => exact .turn .still (.step hready)
    · next hready => exact .wait .still (.inr (Activity.mayRest_of_not_isReady hrequest hready))
  · next q hrequest =>
    have hsome : (a.request? cell.elector).isSome = true := by
      rw [hrequest]
      rfl
    split
    · next hready =>
      rw [Bool.and_eq_true] at hready
      exact .turn (stirs_of_eq (view_withdraw w t)) (.step hready.1)
    · have hstirs := stirs_lookElector w t cell q
      unfold onAnswer
      split
      · next hlook =>
        rw [hlook] at hstirs
        exact .turn hstirs (.reply _ hrequest)
      · next hlook =>
        rw [hlook] at hstirs
        exact .again hstirs
      · next hlook =>
        rw [hlook] at hstirs
        exact .wait hstirs (.inl hsome)
      · next hlook =>
        rw [hlook] at hstirs
        exact .broken hstirs hsome

/-! ## Steps of tasks -/

/-- Whatever the step of a task comes to, the view leads on to what is made of that. -/
def Ensues (v : View) (t : TaskId) {α : Type} : World × Progress α → Prop
  | (w, .answered _) => v.Leads w.view
  | (w, .again) => v.Leads w.view
  | (w, .wait) => v.Leads (w.block t).view
  | (w, .broken) => v.Leads (w.breakOff t .broken).view

/-- A driver keeps its cluster. -/
theorem leads_setDriver (w : World) (id : Nat) {f : DriverCell → DriverCell}
    (hf : ∀ cell, cell.cluster.isSome = true → (f cell).cluster.isSome = true) :
    w.view.Leads (w.setDriver id f).view := by
  refine View.Leads.staff fun i hi => ?_
  have hi : (w.drivers.map (·.cluster.isSome))[i]? = some true := hi
  rw [Array.getElem?_map, Option.map_eq_some_iff] at hi
  obtain ⟨cell, hcell, hcluster⟩ := hi
  show ((w.drivers.modify id f).map (·.cluster.isSome))[i]? = some true
  rw [Array.getElem?_map, Array.getElem?_modify, hcell]
  split
  · exact congrArg some (hf cell hcluster)
  · exact congrArg some hcluster

/-- The view leads on to the world, in which the task is at no activity. -/
structure Idles (v : View) (t : TaskId) (w : World) : Prop where
  leads : v.Leads w.view
  work : ∃ k, w.view.works[t]? = some k ∧ k.act? = none

namespace Idles

variable {v : View}

theorem of_eq (h : Idles v t w) (hw : w'.view = w.view) : Idles v t w' where
  leads := hw ▸ h.leads
  work := hw ▸ h.work

theorem stirs (h : Idles v t w) (hw : w.view.Stirs w'.view) : Idles v t w' where
  leads := h.leads.trans hw.leads
  work := by
    obtain ⟨k, hwork, hk⟩ := h.work
    exact ⟨k, hw.works hwork, hk⟩

theorem setWork (h : Idles v t w) (hk : k.act? = none) : v.Leads (w.setWork t k).view := by
  rw [view_setWork]
  exact h.leads.trans (.setWork_other t hk)

theorem finish (h : Idles v t w) (r : Outcome) : v.Leads (w.finish t r).view := by
  rw [view_finish]
  refine h.leads.trans ((View.Leads.setWork_other t rfl).trans (.erase_other fun k hk => ?_))
  rcases View.of_getElem?_setWork hk with ⟨-, rfl⟩ | ⟨hne, -⟩
  · rfl
  · exact absurd rfl hne

theorem setDriver (h : Idles v t w) (id : Nat) {f : DriverCell → DriverCell}
    (hf : ∀ cell, cell.cluster.isSome = true → (f cell).cluster.isSome = true) :
    Idles v t (w.setDriver id f) :=
  ⟨h.leads.trans (leads_setDriver w id hf), h.work⟩

theorem ensues {α : Type} {r : World × Progress α} (h : Idles v t r.1) : Ensues v t r := by
  obtain ⟨k, hwork, hk⟩ := h.work
  have hidle : ∀ k', r.1.view.works[t]? = some k' → k'.act? = none := fun k' hk' =>
    Option.some.inj (hk'.symm.trans hwork) ▸ hk
  obtain ⟨w, p⟩ := r
  cases p with
  | answered x => exact h.leads
  | again => exact h.leads
  | wait => exact h.leads.trans (.erase_other hidle)
  | broken => exact h.leads.trans (leads_breakOff_idle .broken hidle)

/-- A task at no activity looks at a request. -/
theorem onAnswer {α β : Type} {look : World × Progress α} {f : World → α → World × Progress β}
    (h : Idles v t w) (hlook : w.view.Stirs look.1.view)
    (hf : ∀ w' x, Idles v t w' → Ensues v t (f w' x)) : Ensues v t (onAnswer look f) := by
  unfold Scenario.onAnswer
  split
  · exact hf _ _ (h.stirs hlook)
  · exact ensues (h.stirs hlook)
  · exact ensues (h.stirs hlook)
  · exact ensues (h.stirs hlook)

end Idles

/-- Members are started one after the other, from where the task is at no activity. -/
theorem leads_startMembers {v : View} {i : Nat} (c : Cluster) (d : DriverDialogue)
    (members : List Member) (h : v.Leads (w.view.setWork t .ended)) (ht : t < w.view.works.size)
    (hi : w.view.staffed[i]? = some true) : v.Leads (w.startMembers t i c d members).view := by
  have hset : ∀ (v' : View) (k : Work), (v'.setWork t .ended).setWork t k = v'.setWork t k :=
    fun v' k => congrArg (fun works => { v' with works := works })
      (Array.setIfInBounds_setIfInBounds _)
  cases members with
  | nil =>
    rw [startMembers, view_setWork, ← hset]
    exact h.trans (.setWork_other t rfl)
  | cons m rest =>
    obtain ⟨owner, hview, hid⟩ := view_makeNode w m.identity.label m.identity m.port
      (some m.nodeDir) c.lock c.registry
    have hfound : ∀ k, (w.view.found m.identity.label
        (.fresh m.identity owner m.port (some m.nodeDir))).setWork t k =
        ((w.view.setWork t .ended).found m.identity.label
          (.fresh m.identity owner m.port (some m.nodeDir))).setWork t k := fun k =>
      (hset (w.view.found _ _) k).symm
    rw [startMembers]
    simp only
    split
    · rw [view_setWork, hview, hfound]
      exact (h.trans .found).trans (.setWork_other t rfl)
    · next p hp =>
      obtain ⟨entry, hentry⟩ := Election.Entry.exists_of_enter hp
      rw [view_setWork, hview, hfound]
      refine h.trans (.enlist entry (by simpa [View.setWork] using ht) ?_ fun i' hi' => ?_)
      · rw [hid, hentry]
        rfl
      · cases hi'
        exact hi

/-- A node loses its name. -/
theorem leads_dropNode (w : World) (name : String) : w.view.Leads (w.dropNode name).view := by
  unfold dropNode
  split
  · next id hid =>
    have hsame := view_setElector_same w id (f := fun cell => { cell with named := false })
      fun _ => rfl
    exact (leads_of_eq hsame).trans (.names fun p hp => (List.mem_filter.mp hp).1)
  · exact .refl _

theorem works_dropNode (w : World) (name : String) :
    (w.dropNode name).view.works = w.view.works := by
  unfold dropNode
  split <;> rfl

theorem view_evict (w : World) (lock : Nat) (owner : String) :
    (w.evict lock owner).1.view = w.view := by
  unfold evict
  split
  · split <;> rfl
  · rfl

namespace Idles

variable {v : View} {cell : DriverCell}

theorem dropNode (h : Idles v t w) (name : String) : Idles v t (w.dropNode name) where
  leads := h.leads.trans (leads_dropNode w name)
  work := works_dropNode w name ▸ h.work

theorem evict (h : Idles v t w) (lock : Nat) (owner : String) : Idles v t (w.evict lock owner).1 :=
  h.of_eq (view_evict w lock owner)

theorem launch (h : Idles v t w) (hcell : w.drivers[id]? = some cell) (d : DriverDialogue)
    (role : String) (args : List String) : Ensues v t (w.launch t id cell d role args) := by
  have hcalled : Idles v t (w.setDriver id fun cell =>
      { cell with hookCalls := cell.hookCalls ++ [.launch role args]
                  launches := cell.launches.tail }) := h.setDriver id fun _ h => h
  unfold World.launch
  simp only
  split
  · exact hcalled.setWork rfl
  · exact ensues (hcalled.of_eq (view_setPhase _ t _))
  · exact hcalled.setWork rfl
  · exact hcalled.setWork rfl
  · next c _ _ =>
    have hstaffed := hcalled.setDriver id (f := fun cell =>
      { cell with cluster := some { c with down := c.down.filter (·.role != role) } })
      fun _ _ => rfl
    obtain ⟨k, hwork, -⟩ := hstaffed.work
    refine leads_startMembers c d _ (hstaffed.leads.trans (.setWork_other t rfl))
      (View.lt_of_getElem? hwork) ?_
    simp [view, World.setDriver, Array.getElem?_modify, hcell]

theorem terminate (h : Idles v t w) (d : DriverDialogue) (role dir : String) :
    Ensues v t (w.terminate t id cell d role dir) := by
  have hcalled : Idles v t (w.setDriver id fun cell =>
      { cell with hookCalls := cell.hookCalls ++ [.terminate role dir]
                  terminations := cell.terminations.tail }) := h.setDriver id fun _ h => h
  unfold World.terminate
  simp only
  split
  · exact hcalled.setWork rfl
  · exact ensues (hcalled.of_eq (view_setPhase _ t _))
  · exact hcalled.setWork rfl
  · exact hcalled.setWork rfl
  · next c _ _ =>
    split
    · exact hcalled.setWork rfl
    · next m _ =>
      have hdown := hcalled.setDriver id (f := fun cell =>
        { cell with cluster := some { c with down := c.down.filter (· != m) ++ [m] } })
        fun _ _ => rfl
      split
      · exact hdown.setWork rfl
      · split
        · exact hdown.setWork rfl
        · next elector _ =>
          have hevicted := (hdown.dropNode m.identity.label).evict c.lock elector.owner
          split
          · exact hevicted.setWork rfl
          · exact hevicted.setWork rfl

theorem stepDialogue (h : Idles v t w) (d : DriverDialogue) :
    Ensues v t (w.stepDialogue t id d) := by
  unfold World.stepDialogue
  simp only
  split
  · exact ensues h
  · next cell hcell =>
    split
    · exact h.finish _
    · exact h.onAnswer (stirs_lookRegistry ..) fun w' r hw' => hw'.setWork rfl
    · split
      · split
        · exact h.setWork rfl
        · exact ensues h
      · exact ensues (h.of_eq (view_awaitDisk w t))
    · next dir path line next =>
      split
      · split
        · refine setWork (h.of_eq ?_) rfl
          unfold World.writeLine
          split
          · rfl
          · split <;> rfl
        · exact ensues h
      · exact ensues (h.of_eq (view_awaitDisk w t))
    · split
      · exact ensues h
      · exact h.terminate _ _ _
    · split
      · exact ensues h
      · exact h.launch hcell _ _ _
    · split
      · split
        · exact h.setWork rfl
        · exact ensues h
      · split
        · exact h.setWork rfl
        · exact ensues (h.of_eq (view_setPhase w t _))
    · exact h.setWork rfl
    · exact h.setWork rfl
    · exact h.setWork rfl
    · exact ensues h

theorem stepTask {task : Task} (h : Idles v t w) (hidle : task.work.act? = none) :
    Ensues v t (w.stepTask t task) := by
  unfold World.stepTask
  split
  · refine h.leads.trans (.erase_other fun k hk => ?_)
    obtain ⟨k', hwork, hk'⟩ := h.work
    exact Option.some.inj (hwork.symm.trans hk) ▸ hk'
  · next hwork =>
    rw [hwork] at hidle
    exact nomatch hidle
  · split
    · split
      · exact h.finish _
      · exact ensues h
    · exact ensues h
  · exact h.onAnswer (stirs_lookLock ..) fun w' r hw' => hw'.finish _
  · exact h.finish _
  · exact h.onAnswer (stirs_lookRegistry ..) fun w' r hw' => hw'.setWork rfl
  · next id d hook hwork =>
    cases hook with
    | starting e a rest =>
      rw [hwork] at hidle
      exact nomatch hidle
    | settling looks =>
      simp only [World.stepHook]
      split
      · split
        · exact h.setWork rfl
        · exact ensues h
      · split
        · exact h.setWork rfl
        · exact ensues (h.of_eq (view_setPhase w t _))
  · exact h.stepDialogue _

end Idles

/-- What a step of an activity comes to, if what a turn leads to is carried on by `f`. -/
theorem Comes.ensues {look : World × Progress (Activity ⊕ Ending)}
    {f : World → Activity ⊕ Ending → World × Progress Unit} (h : Comes w t id e a look)
    (hwork : w.view.works[t]? = some k) (hact : k.act? = some (id, a))
    (hstack : t ∈ w.view.stack) (hcell : w.view.electors[id]? = some e)
    (hf : ∀ w' next, t < w'.view.works.size → w'.view.staffed = w.view.staffed →
      (∀ k', k'.act? = next.elim (fun b => some (id, b)) (fun _ => none) →
        (∀ i : Nat, k'.starter? = some i → w.view.staffed[i]? = some true) →
        w.view.Leads (w'.view.setWork t k')) → Ensues w.view t (f w' next)) :
    Ensues w.view t (onAnswer look f) := by
  cases h with
  | @turn w₁ x stirs takes =>
    show Ensues w.view t (f (w₁.carryOut id e x).1 x.next)
    have hview := view_carryOut w₁ id e x
    have hsize := View.lt_of_getElem? (stirs.works hwork)
    refine hf _ _ ?_ ?_ fun k' hk' hs => ?_
    · rw [hview]
      exact View.lt_size_carryOut hsize
    · rw [hview, View.staffed_carryOut, stirs.staffed]
    · rw [hview]
      exact stirs.leads.trans (.takes (stirs.works hwork) hact (stirs.mem_stack hstack)
        (stirs.electors ▸ hcell) takes hk' (stirs.staffed ▸ hs))
  | again stirs => exact stirs.leads
  | @wait w₁ stirs rests =>
    refine stirs.leads.trans (.rest (stirs.works hwork) hact fun e' he' => ?_)
    rw [stirs.electors, hcell] at he'
    exact Option.some.inj he' ▸ rests
  | @broken w₁ stirs request =>
    show w.view.Leads (w₁.breakOff t .broken).view
    rw [view_breakOff .broken (stirs.works hwork) hact]
    refine stirs.leads.trans (.breakOff (stirs.works hwork) hact fun e' he' => ?_)
    rw [stirs.electors, hcell] at he'
    exact .inl (Option.some.inj he' ▸ request)

/-- Whatever the step of a task at work comes to, the view leads on. -/
theorem ensues_stepTask {task : Task} (hv : w.view.Faithful) (here : w.task? t = some task)
    (hstack : t ∈ w.stack) : Ensues w.view t (w.stepTask t task) := by
  have hwork : w.view.works[t]? = some task.work := by
    rw [works_view, here]
    rfl
  cases hact : task.work.act? with
  | none => exact Idles.stepTask ⟨.refl _, _, hwork, hact⟩ hact
  | some x =>
    obtain ⟨id, a⟩ := x
    obtain ⟨e, hcell⟩ := hv.exists_elector hwork hact
    obtain ⟨cell, hid, rfl⟩ :=
      Option.map_eq_some_iff.mp ((electors_view w id).symm.trans hcell)
    have hcomes := stepActivity_comes t a hid
    rcases Work.eq_of_act? hact with hk | ⟨i, d, rest, hk⟩
    · unfold stepTask
      rw [hk]
      refine hcomes.ensues hwork hact hstack hcell fun w' next _ _ hleads => ?_
      cases next with
      | inl b =>
        show w.view.Leads (w'.setWork t (.elector id b)).view
        rw [view_setWork]
        exact hleads _ rfl nofun
      | inr ending =>
        show w.view.Leads (w'.finish t (outcomeOf ending)).view
        rw [view_finish]
        refine (hleads .ended rfl nofun).trans (.erase_other fun k' hk' => ?_)
        rcases View.of_getElem?_setWork hk' with ⟨-, rfl⟩ | ⟨hne, -⟩
        · rfl
        · exact absurd rfl hne
    · have hstaffed : w.view.staffed[i]? = some true :=
        (hv.works _ (Array.mem_of_getElem? hwork)).staffed i (by rw [hk]; rfl)
      unfold stepTask
      rw [hk]
      refine hcomes.ensues hwork hact hstack hcell fun w' next ht hsame hleads => ?_
      split
      · next b =>
        show w.view.Leads (w'.setWork t (.failover i d (some (.starting id b rest)))).view
        rw [view_setWork]
        refine hleads _ rfl fun i' hi' => ?_
        cases hi'
        exact hstaffed
      · next err =>
        show w.view.Leads (w'.setWork t (.failover i (launched d (.error err)) none)).view
        rw [view_setWork]
        exact hleads _ rfl nofun
      · obtain ⟨c, hc⟩ := exists_cluster (hsame ▸ hstaffed)
        rw [hc]
        exact leads_startMembers c d rest (hleads .ended rfl nofun) ht (hsame ▸ hstaffed)

end World

end Primacy.Scenario
