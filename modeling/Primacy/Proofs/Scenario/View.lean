/-
  Primacy.Proofs.Scenario.View

  What links a scripted run to nodes.  A view of the world keeps its electors, what its tasks are
  at, and which tasks are at work; a node is at an elector of the view if it has the same elector,
  and has everything going that a task is at.  A view leads to another if every node that is at an
  elector gets to the other by incidents.  What the world does to its view is one of a few things,
  and each of them leads on.
-/
import Primacy.Proofs.Election.History
import Primacy.Scenario.Work

namespace Primacy.Scenario

open Election (Activity Course Elector Ending Entry Node Turn)

/-! ## Views -/

namespace Work

/-- The elector that a task is at work on, and its activity. -/
def act? : Work → Option (Nat × Activity)
  | elector id a => some (id, a)
  | failover _ _ (some (.starting id a _)) => some (id, a)
  | _ => none

/-- The driver for whose launch a task starts an elector. -/
def starter? : Work → Option Nat
  | failover id _ (some (.starting ..)) => some id
  | _ => none

theorem starter?_eq_none {k : Work} (hk : k.act? = none) : k.starter? = none := by
  unfold starter?
  split
  · exact nomatch hk
  · rfl

end Work

structure View where
  electors : Array Elector
  works : Array Work
  /-- The tasks at work, which may be anywhere in an activity. -/
  stack : List TaskId
  names : Keyed Nat
  /-- Whether a driver has a cluster. -/
  staffed : Array Bool

namespace View

def setWork (v : View) (t : TaskId) (k : Work) : View :=
  { v with works := v.works.setIfInBounds t k }

def push (v : View) (k : Work) : View := { v with works := v.works.push k }

/-- A new task that works first. -/
def pushFirst (v : View) (k : Work) : View :=
  { v.push k with stack := v.works.size :: v.stack }

/-- The task is not at work any more. -/
def erase (v : View) (t : TaskId) : View := { v with stack := v.stack.erase t }

def modify (v : View) (id : Nat) (f : Elector → Elector) : View :=
  { v with electors := v.electors.modify id f }

/-- Carries out a turn of an activity. -/
def carryOut (v : View) (id : Nat) (before : Elector) (turn : Turn Activity Ending) : View :=
  let v := v.modify id fun _ => turn.elector
  if before.waiter = .absent ∧ turn.elector.waiter = .active then
    v.push (.elector id (.waiter .await))
  else v

/-- The task has broken off what it was at. -/
def breakOff (v : View) (t : TaskId) (id : Nat) (a : Activity) : View :=
  ((v.modify id (a.abandon · t)).setWork t .ended).erase t

/-- A new elector under a name. -/
def found (v : View) (name : String) (e : Elector) : View :=
  { v with electors := v.electors.push e, names := v.names.insert name v.electors.size }

variable {v v' v'' : View} {t t' : TaskId} {k k' : Work} {id id' : Nat}

theorem of_getElem?_setWork (h : (v.setWork t k).works[t']? = some k') :
    t' = t ∧ k' = k ∨ t' ≠ t ∧ v.works[t']? = some k' := by
  have h : (v.works.setIfInBounds t k)[t']? = some k' := h
  rw [Array.getElem?_setIfInBounds] at h
  by_cases hne : t = t'
  · rw [if_pos hne] at h
    split at h
    · exact .inl ⟨hne.symm, (Option.some.inj h).symm⟩
    · exact nomatch h
  · rw [if_neg hne] at h
    exact .inr ⟨Ne.symm hne, h⟩

theorem of_getElem?_push (h : (v.push k).works[t']? = some k') :
    t' = v.works.size ∧ k' = k ∨ t' ≠ v.works.size ∧ v.works[t']? = some k' := by
  have h : (v.works.push k)[t']? = some k' := h
  rw [Array.getElem?_push] at h
  split at h
  · next hsize => exact .inl ⟨hsize, (Option.some.inj h).symm⟩
  · next hsize => exact .inr ⟨hsize, h⟩

theorem lt_of_getElem? (h : v.works[t]? = some k) : t < v.works.size :=
  (Array.getElem?_eq_some_iff.mp h).1

/-! ## Nodes at electors -/

/-- The node is at an elector of the view: whatever is at work on the elector is a course of the
same number, at a point where it may be suspended unless its task is at work, and a number that no
task has is new. -/
structure Holds (v : View) (id : Nat) (n : Node) : Prop where
  elector : v.electors[id]? = some n.elector
  going : ∀ t k a, v.works[t]? = some k → k.act? = some (id, a) →
    ∃ asked, n.course t = some (.going a asked) ∧ (t ∉ v.stack → a.mayRest asked = true)
  new : ∀ t, v.works.size ≤ t → n.course t = none

namespace Holds

variable {n n' : Node} {x : Course} {e : Elector} {s : List TaskId}

theorem congr (h : v.Holds id n) (elector : n'.elector = n.elector)
    (course : n'.course = n.course) : v.Holds id n' where
  elector := elector ▸ h.elector
  going := course ▸ h.going
  new := course ▸ h.new

/-- What becomes of a task, and of the course of the same number. -/
theorem setWork (h : v.Holds id n) (ht : t < v.works.size)
    (hk : ∀ a, k.act? = some (id, a) →
      ∃ asked, x = .going a asked ∧ (t ∉ v.stack → a.mayRest asked = true)) :
    (v.setWork t k).Holds id (n.setCourse t x) where
  elector := h.elector
  going t' k' a hwork hact := by
    rcases of_getElem?_setWork hwork with ⟨rfl, rfl⟩ | ⟨hne, hwork⟩
    · obtain ⟨asked, rfl, hrest⟩ := hk a hact
      exact ⟨asked, Function.update_self .., hrest⟩
    · obtain ⟨asked, hcourse, hrest⟩ := h.going t' k' a hwork hact
      exact ⟨asked, (Function.update_of_ne hne ..).trans hcourse, hrest⟩
  new t' ht' := by
    have hsize : v.works.size ≤ t' := by rwa [View.setWork, Array.size_setIfInBounds] at ht'
    exact (Function.update_of_ne (Nat.ne_of_gt (Nat.lt_of_lt_of_le ht hsize)) ..).trans
      (h.new t' hsize)

theorem setWork_other (h : v.Holds id n) (hk : ∀ a, k.act? ≠ some (id, a)) :
    (v.setWork t k).Holds id n where
  elector := h.elector
  going t' k' a hwork hact := by
    rcases of_getElem?_setWork hwork with ⟨-, rfl⟩ | ⟨-, hwork⟩
    · exact absurd hact (hk a)
    · exact h.going t' k' a hwork hact
  new t' ht' := h.new t' (by rwa [View.setWork, Array.size_setIfInBounds] at ht')

/-- A new task is a new course. -/
theorem push (h : v.Holds id n)
    (hk : ∀ a, k.act? = some (id, a) → ∃ asked, x = .going a asked ∧ a.mayRest asked = true) :
    (v.push k).Holds id (n.setCourse v.works.size x) where
  elector := h.elector
  going t k' a hwork hact := by
    rcases of_getElem?_push hwork with ⟨rfl, rfl⟩ | ⟨hne, hwork⟩
    · obtain ⟨asked, rfl, hrest⟩ := hk a hact
      exact ⟨asked, Function.update_self .., fun _ => hrest⟩
    · obtain ⟨asked, hcourse, hrest⟩ := h.going t k' a hwork hact
      exact ⟨asked, (Function.update_of_ne hne ..).trans hcourse, hrest⟩
  new t ht := by
    have hsize : v.works.size + 1 ≤ t := by rwa [View.push, Array.size_push] at ht
    exact (Function.update_of_ne (Nat.ne_of_gt hsize) ..).trans (h.new t (Nat.le_of_succ_le hsize))

theorem push_other (h : v.Holds id n) (hk : ∀ a, k.act? ≠ some (id, a)) :
    (v.push k).Holds id n where
  elector := h.elector
  going t k' a hwork hact := by
    rcases of_getElem?_push hwork with ⟨-, rfl⟩ | ⟨-, hwork⟩
    · exact absurd hact (hk a)
    · exact h.going t k' a hwork hact
  new t ht := h.new t (Nat.le_of_succ_le (by rwa [View.push, Array.size_push] at ht))

theorem modify (h : v.Holds id n) (f : Elector → Elector) :
    (v.modify id f).Holds id { n with elector := f n.elector } where
  elector := by rw [View.modify, Array.getElem?_modify, if_pos rfl, h.elector, Option.map_some]
  going := h.going
  new := h.new

theorem modify_other (h : v.Holds id n) (hne : id' ≠ id) (f : Elector → Elector) :
    (v.modify id' f).Holds id n where
  elector := by
    rw [View.modify, Array.getElem?_modify, if_neg hne]
    exact h.elector
  going := h.going
  new := h.new

/-- More tasks may be at work. -/
theorem stack (h : v.Holds id n) (hs : ∀ t ∈ v.stack, t ∈ s ∨ ∀ k, v.works[t]? = some k →
    k.act? = none) : { v with stack := s }.Holds id n where
  elector := h.elector
  going t k a hwork hact := by
    obtain ⟨asked, hcourse, hrest⟩ := h.going t k a hwork hact
    refine ⟨asked, hcourse, fun hmem => hrest fun hbefore => ?_⟩
    rcases hs t hbefore with hs | hidle
    · exact hmem hs
    · exact nomatch (hidle k hwork).symm.trans hact
  new := h.new

/-- A task whose activity may be suspended need not be at work. -/
theorem erase (h : v.Holds id n) (ht : ∀ k a, v.works[t]? = some k → k.act? = some (id, a) →
    ∃ asked, n.course t = some (.going a asked) ∧ a.mayRest asked = true) :
    (v.erase t).Holds id n where
  elector := h.elector
  going t' k a hwork hact := by
    by_cases hne : t' = t
    · subst hne
      obtain ⟨asked, hcourse, hrest⟩ := ht k a hwork hact
      exact ⟨asked, hcourse, fun _ => hrest⟩
    · obtain ⟨asked, hcourse, hrest⟩ := h.going t' k a hwork hact
      exact ⟨asked, hcourse, fun hmem => hrest fun h => hmem ((List.mem_erase_of_ne hne).mpr h)⟩
  new := h.new

end Holds

/-! ## Views that lead to others -/

/-- A task's elector exists, and the driver for which it starts one has a cluster. -/
structure Admits (v : View) (k : Work) : Prop where
  placed : ∀ id a, k.act? = some (id, a) → id < v.electors.size
  staffed : ∀ id, k.starter? = some id → v.staffed[id]? = some true

theorem admits_of_none (v : View) (hk : k.act? = none) : v.Admits k where
  placed _ _ h := nomatch hk.symm.trans h
  staffed _ h := nomatch (k.starter?_eq_none hk).symm.trans h

theorem Admits.mono (h : v.Admits k) (size : v.electors.size ≤ v'.electors.size)
    (staffed : ∀ id : Nat, v.staffed[id]? = some true → v'.staffed[id]? = some true) :
    v'.Admits k where
  placed id a hact := Nat.lt_of_lt_of_le (h.placed id a hact) size
  staffed id hid := staffed id (h.staffed id hid)

/-- The elector began as `e` and is where incidents lead. -/
def Tracks (v : View) (id : Nat) (e : Elector) : Prop :=
  ∃ is n c, (Node.fresh e).live? is = some (n, c) ∧ v.Holds id n

/-- Every elector is where incidents lead from a fresh one. -/
structure Faithful (v : View) : Prop where
  tracked : ∀ id, id < v.electors.size → ∃ i owner port dir, v.Tracks id (.fresh i owner port dir)
  works : ∀ k ∈ v.works, v.Admits k
  named : ∀ p ∈ v.names, p.2 < v.electors.size

theorem Faithful.exists_elector (h : v.Faithful) (hwork : v.works[t]? = some k) {a : Activity}
    (hact : k.act? = some (id, a)) : ∃ e, v.electors[id]? = some e := by
  have hid := (h.works k (Array.mem_of_getElem? hwork)).placed id a hact
  exact ⟨_, Array.getElem?_eq_some_iff.mpr ⟨hid, rfl⟩⟩

/-- Every node at an elector gets to the other view by incidents. -/
def Advances (v v' : View) : Prop :=
  ∀ id n, v.Holds id n → ∃ is n' c, n.live? is = some (n', c) ∧ v'.Holds id n'

theorem Advances.trans (h : v.Advances v') (h' : v'.Advances v'') : v.Advances v'' := by
  intro id n hn
  obtain ⟨is, n₁, c₁, hlive, hn₁⟩ := h id n hn
  obtain ⟨js, n₂, c₂, hlive', hn₂⟩ := h' id n₁ hn₁
  exact ⟨is ++ js, n₂, _, Node.live?_append hlive hlive', hn₂⟩

theorem Advances.tracks (h : v.Advances v') {e : Elector} (htracks : v.Tracks id e) :
    v'.Tracks id e := by
  obtain ⟨is, n, c, hlive, hn⟩ := htracks
  obtain ⟨js, n', c', hlive', hn'⟩ := h id n hn
  exact ⟨is ++ js, n', _, Node.live?_append hlive hlive', hn'⟩

/-- Where nothing happens to a node, it stays. -/
theorem advances_of_holds (h : ∀ id n, v.Holds id n → v'.Holds id n) : v.Advances v' :=
  fun id n hn => ⟨[], n, .empty, rfl, h id n hn⟩

/-- A faithful view leads to a faithful one, and its nodes get there. -/
def Leads (v v' : View) : Prop := v.Faithful → v'.Faithful ∧ v.Advances v'

namespace Leads

theorem refl (v : View) : v.Leads v := fun h => ⟨h, advances_of_holds fun _ _ hn => hn⟩

theorem trans (h : v.Leads v') (h' : v'.Leads v'') : v.Leads v'' := by
  intro hv
  obtain ⟨hv', hadvances⟩ := h hv
  obtain ⟨hv'', hadvances'⟩ := h' hv'
  exact ⟨hv'', hadvances.trans hadvances'⟩

/-- No elector is added, and no driver loses its cluster. -/
theorem of_advances (size : v'.electors.size = v.electors.size)
    (staffed : ∀ id : Nat, v.staffed[id]? = some true → v'.staffed[id]? = some true)
    (names : ∀ p ∈ v'.names, p ∈ v.names) (works : ∀ k ∈ v'.works, k ∈ v.works ∨ v.Admits k)
    (advances : v.Advances v') : v.Leads v' := by
  refine fun h => ⟨⟨fun id hid => ?_, fun k hk => ?_, fun p hp => ?_⟩, advances⟩
  · obtain ⟨i, owner, port, dir, htracks⟩ := h.tracked id (size ▸ hid)
    exact ⟨i, owner, port, dir, advances.tracks htracks⟩
  · exact ((works k hk).elim (h.works k) fun hk => hk).mono (Nat.le_of_eq size.symm) staffed
  · rw [size]
    exact h.named p (names p hp)

theorem setWork_other (t : TaskId) (hk : k.act? = none) : v.Leads (v.setWork t k) := by
  refine of_advances rfl (fun _ hi => hi) (fun _ hp => hp) (fun k' hk' => ?_)
    (advances_of_holds fun id n hn => hn.setWork_other ?_)
  · refine (Array.mem_or_eq_of_mem_setIfInBounds hk').imp_right ?_
    rintro rfl
    exact v.admits_of_none hk
  · rw [hk]
    exact nofun

theorem push_other (hk : k.act? = none) : v.Leads (v.push k) := by
  refine of_advances rfl (fun _ hi => hi) (fun _ hp => hp) (fun k' hk' => ?_)
    (advances_of_holds fun id n hn => hn.push_other ?_)
  · refine (Array.mem_push.mp hk').imp_right ?_
    rintro rfl
    exact v.admits_of_none hk
  · rw [hk]
    exact nofun

/-- More tasks may be at work, and one that is at no activity need not be. -/
theorem stack {s : List TaskId} (hs : ∀ t ∈ v.stack, t ∈ s ∨ ∀ k, v.works[t]? = some k →
    k.act? = none) : v.Leads { v with stack := s } :=
  of_advances rfl (fun _ hi => hi) (fun _ hp => hp) (fun _ hk => .inl hk)
    (advances_of_holds fun _ _ hn => hn.stack hs)

theorem erase_other (ht : ∀ k, v.works[t]? = some k → k.act? = none) :
    v.Leads (v.erase t) :=
  stack fun t' ht' => by
    by_cases hne : t' = t
    · exact .inr (hne ▸ ht)
    · exact .inl ((List.mem_erase_of_ne hne).mpr ht')

/-- Names are taken away. -/
theorem names {names : Keyed Nat} (hs : ∀ p ∈ names, p ∈ v.names) :
    v.Leads { v with names := names } :=
  of_advances rfl (fun _ hi => hi) hs (fun _ hk => .inl hk)
    (advances_of_holds fun _ _ hn => ⟨hn.elector, hn.going, hn.new⟩)

/-- No driver loses its cluster. -/
theorem staff {staffed : Array Bool}
    (hs : ∀ id : Nat, v.staffed[id]? = some true → staffed[id]? = some true) :
    v.Leads { v with staffed := staffed } :=
  of_advances rfl hs (fun _ hp => hp) (fun _ hk => .inl hk)
    (advances_of_holds fun _ _ hn => ⟨hn.elector, hn.going, hn.new⟩)

/-- Some electors are dropped. -/
theorem discard {electors : Array Elector} (size : electors.size = v.electors.size)
    (hdrop : ∀ (id : Nat) (e : Elector), v.electors[id]? = some e →
      electors[id]? = some e ∨ electors[id]? = some e.drop) :
    v.Leads { v with electors := electors } := by
  refine of_advances size (fun _ hi => hi) (fun _ hp => hp) (fun _ hk => .inl hk) fun id n hn => ?_
  rcases hdrop id n.elector hn.elector with hsame | hdropped
  · exact ⟨[], n, .empty, rfl, hsame, hn.going, hn.new⟩
  · obtain ⟨c, hlive⟩ := (Node.Makes.discard (n := n)).exists_live
    exact ⟨_, _, c, hlive, hdropped, hn.going, hn.new⟩

/-- A new task makes a call on an elector. -/
theorem call (c : Entry) (hid : id < v.electors.size) :
    v.Leads (v.push (.elector id c.activity)) := by
  refine of_advances rfl (fun _ hi => hi) (fun _ hp => hp) (fun k hk => ?_) fun id' n hn => ?_
  · refine (Array.mem_push.mp hk).imp_right ?_
    rintro rfl
    refine ⟨fun id' a ha => ?_, nofun⟩
    cases ha
    exact hid
  · by_cases hne : id' = id
    · subst hne
      have hnew : n.course v.works.size = none := hn.new _ (Nat.le_refl _)
      obtain ⟨c', hlive⟩ := (Node.Makes.call (c := c) hnew).exists_live
      refine ⟨_, _, c', hlive, hn.push fun a ha => ?_⟩
      cases ha
      exact ⟨false, rfl, c.mayRest_activity⟩
    · refine ⟨[], n, .empty, rfl, hn.push_other fun a ha => ?_⟩
      cases ha
      exact hne rfl

end Leads

/-! ## New electors -/

section Found

variable {name : String} {i : Identity} {owner : String} {port : Nat} {dir : Option String}

theorem Holds.found {n : Node} {e : Elector} (h : v.Holds id n) : (v.found name e).Holds id n where
  elector := by
    have hid : id < v.electors.size := (Array.getElem?_eq_some_iff.mp h.elector).1
    rw [View.found, Array.getElem?_push, if_neg (Nat.ne_of_lt hid)]
    exact h.elector
  going := h.going
  new := h.new

/-- No task is at work on the elector that is next. -/
theorem Faithful.unused (h : v.Faithful) (hwork : v.works[t]? = some k) (a : Activity) :
    k.act? ≠ some (v.electors.size, a) := fun hact =>
  Nat.lt_irrefl _ ((h.works k (Array.mem_of_getElem? hwork)).placed _ a hact)

theorem Faithful.holds_fresh (h : v.Faithful) (e : Elector) :
    (v.found name e).Holds v.electors.size (.fresh e) where
  elector := Array.getElem?_push_size
  going _ _ a hwork hact := absurd hact (h.unused hwork a)
  new _ _ := rfl

theorem Faithful.named_found (h : v.Faithful) {e : Elector} :
    ∀ p ∈ (v.found name e).names, p.2 < (v.found name e).electors.size := by
  intro p hp
  have hsize : (v.found name e).electors.size = v.electors.size + 1 := Array.size_push ..
  rw [hsize]
  rcases Keyed.mem_insert hp with rfl | hmem
  · exact Nat.lt_succ_self _
  · exact Nat.lt_succ_of_lt (h.named p hmem)

/-- Whatever else happens, the new elector and those before it are where incidents lead. -/
theorem Faithful.tracked_found (h : v.Faithful) (hadvances : v.Advances v')
    (size : v'.electors.size = v.electors.size + 1)
    (hnew : v'.Tracks v.electors.size (.fresh i owner port dir)) (id : Nat)
    (hid : id < v'.electors.size) :
    ∃ i owner port dir, v'.Tracks id (.fresh i owner port dir) := by
  rw [size] at hid
  rcases Nat.lt_succ_iff_lt_or_eq.mp hid with hlt | rfl
  · obtain ⟨i, owner, port, dir, htracks⟩ := h.tracked id hlt
    exact ⟨i, owner, port, dir, hadvances.tracks htracks⟩
  · exact ⟨i, owner, port, dir, hnew⟩

theorem Leads.found : v.Leads (v.found name (.fresh i owner port dir)) := by
  intro h
  have hsize : (v.found name (.fresh i owner port dir)).electors.size = v.electors.size + 1 :=
    Array.size_push ..
  have hadvances : v.Advances (v.found name (.fresh i owner port dir)) :=
    advances_of_holds fun _ _ hn => hn.found
  refine ⟨⟨h.tracked_found hadvances hsize ⟨[], _, .empty, rfl, h.holds_fresh _⟩, fun k hk => ?_,
    h.named_found⟩, hadvances⟩
  exact (h.works k hk).mono (hsize ▸ Nat.le_succ _) fun _ hi => hi

/-- A task makes the first call on a new elector. -/
theorem Leads.enlist (c : Entry) (ht : t < v.works.size)
    (hk : k.act? = some (v.electors.size, c.activity))
    (hs : ∀ id, k.starter? = some id → v.staffed[id]? = some true) :
    v.Leads ((v.found name (.fresh i owner port dir)).setWork t k) := by
  intro h
  have hadvances : v.Advances ((v.found name (.fresh i owner port dir)).setWork t k) := by
    refine advances_of_holds fun id n hn => hn.found.setWork_other fun a ha => ?_
    have hid : id < v.electors.size := (Array.getElem?_eq_some_iff.mp hn.elector).1
    rw [hk] at ha
    cases ha
    exact Nat.lt_irrefl _ hid
  have hsize : ((v.found name (.fresh i owner port dir)).setWork t k).electors.size =
      v.electors.size + 1 := Array.size_push ..
  have hfirst : (Node.fresh (.fresh i owner port dir)).course t = none := rfl
  obtain ⟨c', hlive⟩ := (Node.Makes.call (c := c) hfirst).exists_live
  have hnew : ((v.found name (.fresh i owner port dir)).setWork t k).Holds v.electors.size
      ((Node.fresh (.fresh i owner port dir)).setCourse t (.going c.activity false)) := by
    refine (h.holds_fresh (.fresh i owner port dir)).setWork ht fun a ha => ?_
    rw [hk] at ha
    cases ha
    exact ⟨false, rfl, fun _ => c.mayRest_activity⟩
  refine ⟨⟨h.tracked_found hadvances hsize ⟨_, _, c', hlive, hnew⟩, fun k' hk' => ?_,
    h.named_found⟩, hadvances⟩
  rcases Array.mem_or_eq_of_mem_setIfInBounds hk' with hmem | rfl
  · exact (h.works k' hmem).mono (hsize ▸ Nat.le_succ _) fun _ hi => hi
  · refine ⟨fun id a ha => ?_, hs⟩
    rw [hk] at ha
    cases ha
    exact hsize ▸ Nat.lt_succ_self _

end Found

/-! ## Activities -/

/-- The turn is one that the activity can take at the elector `e`. -/
inductive Takes (e : Elector) (t : TaskId) (a : Activity) : Turn Activity Ending → Prop where
  | step (ready : a.isReady e t = true) : Takes e t a (a.step e t)
  | reply {q : Election.Request} (r : Election.Reply) (request : a.request? e = some q) :
      Takes e t a (a.reply e r)

section Activity

variable {n : Node} {a : Activity} {e : Elector} {turn : Turn Activity Ending}

/-- The activity makes its request. -/
theorem Holds.ask (h : v.Holds id n) (hwork : v.works[t]? = some k)
    (hact : k.act? = some (id, a)) : v.Holds id (n.setCourse t (.going a true)) where
  elector := h.elector
  going t' k' a' hwork' hact' := by
    by_cases hne : t' = t
    · subst hne
      obtain rfl := Option.some.inj (hwork'.symm.trans hwork)
      cases hact'.symm.trans hact
      exact ⟨true, Function.update_self .., fun _ => a.mayRest_asked⟩
    · obtain ⟨asked, hcourse, hrest⟩ := h.going t' k' a' hwork' hact'
      exact ⟨asked, (Function.update_of_ne hne ..).trans hcourse, hrest⟩
  new t' ht' := by
    have ht : t < t' := Nat.lt_of_lt_of_le (lt_of_getElem? hwork) ht'
    exact (Function.update_of_ne (Nat.ne_of_gt ht) ..).trans (h.new t' ht')

/-- An activity that waits for something, or whose task is not at work, gets to where it may be
suspended; a waiter has then made the request that it is at. -/
theorem Holds.rested (h : v.Holds id n) (hwork : v.works[t]? = some k)
    (hact : k.act? = some (id, a)) (hrest : (a.request? n.elector).isSome = true ∨
      a.mayRest false = true ∨ t ∉ v.stack) :
    ∃ is n' c asked, n.live? is = some (n', c) ∧ v.Holds id n' ∧
      n'.course t = some (.going a asked) ∧ a.mayRest asked = true ∧
      ∀ p, a = .waiter p → asked = true := by
  obtain ⟨asked, hcourse, hstack⟩ := h.going t k a hwork hact
  cases asked with
  | true => exact ⟨[], n, .empty, true, rfl, h, hcourse, a.mayRest_asked, fun _ _ => rfl⟩
  | false =>
    cases hq : a.request? n.elector with
    | some q =>
      obtain ⟨c, hlive⟩ := (Node.Makes.ask hcourse hq).exists_live
      exact ⟨_, _, c, true, hlive, (h.ask hwork hact).congr rfl rfl, Function.update_self ..,
        a.mayRest_asked, fun _ _ => rfl⟩
    | none =>
      have hmay : a.mayRest false = true := by
        rcases hrest with hsome | hmay | hout
        · rw [hq] at hsome
          exact nomatch hsome
        · exact hmay
        · exact hstack hout
      refine ⟨[], n, .empty, false, rfl, h, hcourse, hmay, ?_⟩
      rintro p rfl
      cases p with
      | await => exact nomatch hq
      | _ => exact nomatch hmay

/-- A task that waits for something need not be at work. -/
theorem Leads.rest (hwork : v.works[t]? = some k) (hact : k.act? = some (id, a))
    (hrest : ∀ e, v.electors[id]? = some e →
      (a.request? e).isSome = true ∨ a.mayRest false = true) : v.Leads (v.erase t) := by
  refine of_advances rfl (fun _ hi => hi) (fun _ hp => hp) (fun _ hk => .inl hk) fun id' n hn => ?_
  by_cases hne : id' = id
  · subst hne
    obtain ⟨is, n', c, asked, hlive, hn', hcourse, hmay, -⟩ :=
      hn.rested hwork hact ((hrest _ hn.elector).imp_right .inl)
    refine ⟨is, n', c, hlive, hn'.erase fun k' a' hwork' hact' => ?_⟩
    obtain rfl := Option.some.inj (hwork'.symm.trans hwork)
    cases hact'.symm.trans hact
    exact ⟨asked, hcourse, hmay⟩
  · refine ⟨[], n, .empty, rfl, hn.erase fun k' a' hwork' hact' => ?_⟩
    obtain rfl := Option.some.inj (hwork'.symm.trans hwork)
    cases hact'.symm.trans hact
    exact absurd rfl hne

/-- A task breaks off an activity that waits for something, or it was not at work. -/
theorem Leads.breakOff (hwork : v.works[t]? = some k) (hact : k.act? = some (id, a))
    (hrest : ∀ e, v.electors[id]? = some e →
      (a.request? e).isSome = true ∨ a.mayRest false = true ∨ t ∉ v.stack) :
    v.Leads (v.breakOff t id a) := by
  have ht : t < v.works.size := lt_of_getElem? hwork
  have hsize : (v.breakOff t id a).electors.size = v.electors.size := Array.size_modify
  have hended : ∀ {f : Elector → Elector} {k' : Work},
      ((v.modify id f).setWork t .ended).works[t]? = some k' → k'.act? = none := by
    intro f k' hk'
    rcases of_getElem?_setWork hk' with ⟨-, rfl⟩ | ⟨hne, -⟩
    · rfl
    · exact absurd rfl hne
  refine of_advances hsize (fun _ hi => hi) (fun _ hp => hp) (fun k' hk' => ?_) fun id' n hn => ?_
  · refine (Array.mem_or_eq_of_mem_setIfInBounds hk').imp_right ?_
    rintro rfl
    exact v.admits_of_none rfl
  · by_cases hne : id' = id
    · subst hne
      obtain ⟨is, n', c, asked, hlive, hn', hcourse, hmay, hasked⟩ :=
        hn.rested hwork hact (hrest _ hn.elector)
      obtain ⟨i, hi⟩ : ∃ i, n'.undergo? i =
          some { n'.setCourse t .brokenOff with elector := a.abandon n'.elector t } := by
        cases a with
        | waiter p =>
          obtain rfl := hasked p rfl
          exact ⟨.collapse t, by simp only [Node.undergo?, hcourse]; rfl⟩
        | _ => exact ⟨.move (.breakOff t), Node.move?_of_makes (.breakOff hcourse hmay)⟩
      refine ⟨is ++ [i], _, _, Node.live?_concat hlive hi, ?_⟩
      have hbroken := (hn'.modify (a.abandon · t)).setWork (t := t) (k := .ended) (x := .brokenOff)
        ht fun b hb => by cases hb
      refine (hbroken.erase fun k' a' hk' hact' => ?_).congr rfl rfl
      cases (hended hk').symm.trans hact'
    · refine ⟨[], n, .empty, rfl, ?_⟩
      have hother := (hn.modify_other (Ne.symm hne) (a.abandon · t)).setWork_other (t := t)
        (k := .ended) fun b hb => by cases hb
      refine hother.erase fun k' a' hk' hact' => ?_
      cases (hended hk').symm.trans hact'

/-- A turn is one incident of the node or two: a request that was not made yet is made first. -/
theorem Takes.exists_live {asked : Bool} {w : TaskId} (h : Takes n.elector t a turn)
    (here : n.course t = some (.going a asked)) (new : n.course w = none) :
    ∃ is n' c, n.live? is = some (n', c) ∧ n'.elector = turn.elector ∧
      n'.course = ((n.carryOut t turn).spawn n.elector w).course := by
  cases h with
  | step ready =>
    obtain ⟨c, hlive⟩ := (Node.Makes.step here ready new).exists_live
    exact ⟨_, _, c, hlive, Node.spawn_elector .., rfl⟩
  | @reply q r request =>
    have hspawn : (n.carryOut t (a.reply n.elector r)).spawn n.elector w =
        n.carryOut t (a.reply n.elector r) := by
      refine if_neg fun ⟨habsent, hactive⟩ => ?_
      exact nomatch habsent.symm.trans (Activity.reply_waiter hactive)
    rw [hspawn]
    -- a world makes a request and has its answer at once, a node may be asked first
    cases asked with
    | true =>
      obtain ⟨c, hlive⟩ := (Node.Makes.answer (r := r) here request).exists_live
      exact ⟨_, _, c, hlive, rfl, rfl⟩
    | false =>
      obtain ⟨n₁, hn₁⟩ : ∃ n₁ : Node, n₁ =
        { n.setCourse t (.going a true) with requests := n.requests ++ [q] } := ⟨_, rfl⟩
      have helector : n₁.elector = n.elector := by rw [hn₁]; rfl
      have hcourse : n₁.course = Function.update n.course t (some (.going a true)) := by
        rw [hn₁]; rfl
      obtain ⟨c, hask⟩ := (Node.Makes.ask here request).exists_live
      have hgoing : n₁.course t = some (.going a true) := hcourse ▸ Function.update_self ..
      obtain ⟨c', hanswer⟩ := (Node.Makes.answer (r := r) hgoing (helector ▸ request)).exists_live
      refine ⟨_, _, _, Node.live?_append (hn₁ ▸ hask) hanswer, ?_, ?_⟩
      · rw [helector]
        rfl
      · rw [helector]
        exact (congrArg (Function.update · t _) hcourse).trans (Function.update_idem ..)

variable {k₀ : Work}

theorem carryOut_of_active (hactive : e.waiter = .absent ∧ turn.elector.waiter = .active) :
    v.carryOut id e turn =
      (v.modify id fun _ => turn.elector).push (.elector id (.waiter .await)) :=
  if_pos hactive

theorem carryOut_of_not (hactive : ¬ (e.waiter = .absent ∧ turn.elector.waiter = .active)) :
    v.carryOut id e turn = v.modify id fun _ => turn.elector :=
  if_neg hactive

/-- What a turn leads to is at work on the same elector. -/
theorem next_of_act? {b : Activity}
    (hk : k.act? = turn.next.elim (fun b => some (id, b)) fun _ => none)
    (hb : k.act? = some (id', b)) : id' = id ∧ turn.next = .inl b := by
  cases hnext : turn.next with
  | inl b' =>
    rw [hk, hnext] at hb
    cases hb
    exact ⟨rfl, rfl⟩
  | inr r =>
    rw [hk, hnext] at hb
    exact nomatch hb

/-- What is at work after a turn is what the node has going after it. -/
theorem Holds.takes (h : v.Holds id n) (ht : t < v.works.size) (hstack : t ∈ v.stack)
    (hk : k.act? = turn.next.elim (fun b => some (id, b)) fun _ => none) :
    ((v.carryOut id n.elector turn).setWork t k).Holds id
      ((n.carryOut t turn).spawn n.elector v.works.size) := by
  have hcourse : ∀ b, k.act? = some (id, b) →
      turn.next.elim (Course.going · false) Course.ended = .going b false := by
    intro b hb
    rw [(next_of_act? hk hb).2]
    rfl
  have hmodified := h.modify fun _ => turn.elector
  by_cases hactive : n.elector.waiter = .absent ∧ turn.elector.waiter = .active
  · have hspawn : (n.carryOut t turn).spawn n.elector v.works.size =
        (n.carryOut t turn).setCourse v.works.size (.going (.waiter .await) false) := if_pos hactive
    have hpushed := hmodified.push (k := .elector id (.waiter .await))
      (x := .going (.waiter .await) false) fun a ha => by
        cases ha
        exact ⟨false, rfl, rfl⟩
    rw [carryOut_of_active hactive, hspawn]
    refine (hpushed.setWork (x := turn.next.elim (.going · false) .ended)
      (by rw [View.push, Array.size_push]; exact Nat.lt_succ_of_lt ht)
      fun b hb => ⟨false, hcourse b hb, fun hout => absurd hstack hout⟩).congr rfl ?_
    -- the world has the task of the waiter before it sets what the turn leads to
    exact Function.update_comm (Nat.ne_of_lt ht) ..
  · have hspawn : (n.carryOut t turn).spawn n.elector v.works.size = n.carryOut t turn :=
      if_neg hactive
    rw [carryOut_of_not hactive, hspawn]
    exact (hmodified.setWork (x := turn.next.elim (.going · false) .ended) ht
      fun b hb => ⟨false, hcourse b hb, fun hout => absurd hstack hout⟩).congr rfl rfl

/-- A turn on one elector is nothing to the others. -/
theorem Holds.takes_other (h : v.Holds id' n) (hne : id ≠ id')
    (hk : ∀ b, k.act? ≠ some (id', b)) :
    ((v.carryOut id e turn).setWork t k).Holds id' n := by
  refine setWork_other ?_ hk
  have hmodified := h.modify_other hne fun _ => turn.elector
  by_cases hactive : e.waiter = .absent ∧ turn.elector.waiter = .active
  · rw [carryOut_of_active hactive]
    refine hmodified.push_other fun b hb => ?_
    cases hb
    exact hne rfl
  · rw [carryOut_of_not hactive]
    exact hmodified

theorem electors_carryOut : (v.carryOut id e turn).electors =
    v.electors.modify id fun _ => turn.elector := by
  simp only [View.carryOut]
  split <;> rfl

theorem staffed_carryOut : (v.carryOut id e turn).staffed = v.staffed := by
  simp only [View.carryOut]
  split <;> rfl

theorem lt_size_carryOut (ht : t < v.works.size) : t < (v.carryOut id e turn).works.size := by
  by_cases hactive : e.waiter = .absent ∧ turn.elector.waiter = .active
  · rw [carryOut_of_active hactive, View.push, Array.size_push]
    exact Nat.lt_succ_of_lt ht
  · rw [carryOut_of_not hactive]
    exact ht

theorem names_carryOut : (v.carryOut id e turn).names = v.names := by
  simp only [View.carryOut]
  split <;> rfl

theorem mem_works_carryOut (hmem : k ∈ (v.carryOut id e turn).works) :
    k ∈ v.works ∨ k = .elector id (.waiter .await) := by
  by_cases hactive : e.waiter = .absent ∧ turn.elector.waiter = .active
  · rw [carryOut_of_active hactive] at hmem
    exact Array.mem_push.mp hmem
  · rw [carryOut_of_not hactive] at hmem
    exact .inl hmem

/-- A task at work takes a turn. -/
theorem Leads.takes (hwork : v.works[t]? = some k₀) (hact : k₀.act? = some (id, a))
    (hstack : t ∈ v.stack) (hcell : v.electors[id]? = some e) (htakes : Takes e t a turn)
    (hk : k.act? = turn.next.elim (fun b => some (id, b)) fun _ => none)
    (hs : ∀ i : Nat, k.starter? = some i → v.staffed[i]? = some true) :
    v.Leads ((v.carryOut id e turn).setWork t k) := by
  have ht : t < v.works.size := lt_of_getElem? hwork
  have hid : id < v.electors.size := (Array.getElem?_eq_some_iff.mp hcell).1
  have hown : ∀ id' b, k.act? = some (id', b) → id' = id := fun _ _ hb => (next_of_act? hk hb).1
  have hsize : ((v.carryOut id e turn).setWork t k).electors.size = v.electors.size := by
    show (v.carryOut id e turn).electors.size = _
    rw [electors_carryOut, Array.size_modify]
  refine of_advances hsize (fun i hi => ?_) (fun p hp => ?_) (fun k' hk' => ?_) fun id' n hn => ?_
  · exact (staffed_carryOut (v := v)).symm ▸ hi
  · exact (names_carryOut (v := v)) ▸ hp
  · rcases Array.mem_or_eq_of_mem_setIfInBounds hk' with hmem | rfl
    · refine (mem_works_carryOut hmem).imp_right ?_
      rintro rfl
      refine ⟨fun id' b hb => ?_, nofun⟩
      cases hb
      exact hid
    · exact .inr ⟨fun id' b hb => hown id' b hb ▸ hid, hs⟩
  · by_cases hne : id' = id
    · -- the waiter that a turn may start takes the number that the next task has
      subst hne
      obtain rfl : e = n.elector := Option.some.inj (hcell.symm.trans hn.elector)
      obtain ⟨asked, hcourse, -⟩ := hn.going t k₀ a hwork hact
      obtain ⟨is, n', c, hlive, helector, hcourse'⟩ :=
        htakes.exists_live hcourse (hn.new _ (Nat.le_refl _))
      refine ⟨is, n', c, hlive, (hn.takes ht hstack hk).congr ?_ hcourse'⟩
      rw [helector, Node.spawn_elector]
      rfl
    · exact ⟨[], n, .empty, rfl, hn.takes_other (Ne.symm hne) fun b hb => hne (hown id' b hb)⟩

end Activity

/-! ## Looks at requests -/

/-- Nothing has happened, or a stop of a node has come up and works first. -/
inductive Stirs (v : View) : View → Prop where
  | still : v.Stirs v
  | stop (name : String) (id : Nat) (named : v.names.get? name = some id) :
      v.Stirs (v.pushFirst (.elector id (.stop .request)))

namespace Stirs

theorem leads (h : v.Stirs v') : v.Leads v' := by
  cases h with
  | still => exact .refl v
  | stop name id named =>
    intro hv
    have hid : id < v.electors.size := hv.named _ (Keyed.mem_of_get? named)
    have hstack : (v.push (.elector id (.stop .request))).Leads
        (v.pushFirst (.elector id (.stop .request))) :=
      .stack fun t ht => .inl (List.mem_cons_of_mem _ ht)
    exact ((Leads.call .stop hid).trans hstack) hv

theorem electors (h : v.Stirs v') : v'.electors = v.electors := by
  cases h <;> rfl

theorem staffed (h : v.Stirs v') : v'.staffed = v.staffed := by
  cases h <;> rfl

theorem mem_stack (h : v.Stirs v') (ht : t ∈ v.stack) : t ∈ v'.stack := by
  cases h with
  | still => exact ht
  | stop name id named => exact List.mem_cons_of_mem _ ht

theorem works (h : v.Stirs v') (hk : v.works[t]? = some k) : v'.works[t]? = some k := by
  cases h with
  | still => exact hk
  | stop name id named =>
    have ht : t ≠ v.works.size := Nat.ne_of_lt (lt_of_getElem? hk)
    exact (Array.getElem?_push.trans (if_neg ht)).trans hk

end Stirs

end View

end Primacy.Scenario
