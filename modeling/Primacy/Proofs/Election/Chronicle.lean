/-
  Primacy.Proofs.Election.Chronicle

  Runs of a node, with a chronicle of what is made known and of the callbacks that come and go.
  Besides the moves of a node a run has one more kind of incident: a lock service or a registry may
  break down under its waiter, at any request.  Runs are interleavings at the grain of single
  accesses; those in which nobody moves unless all others may be suspended are the interleavings at
  suspension points.
-/
import Primacy.Proofs.Election.Custody
import Primacy.Proofs.Election.Deed

namespace Primacy.Election

/-! ## Chronicles -/

/-- What happened in a run, the earliest first. -/
structure Chronicle where
  events : List Event
  /-- The callbacks that were registered. -/
  registered : List String
  /-- The callbacks that a later registration discarded. -/
  discarded : List String

namespace Chronicle

def empty : Chronicle := ⟨[], [], []⟩

def append (c d : Chronicle) : Chronicle :=
  ⟨c.events ++ d.events, c.registered ++ d.registered, c.discarded ++ d.discarded⟩

instance : Append Chronicle := ⟨append⟩

/-- The callbacks that were called. -/
def fired (c : Chronicle) : List String := c.events.filterMap Event.fired?

/-- The markers that were logged and the callbacks that were called. -/
def announced (c : Chronicle) : List Event := c.events.filter Event.isAnnouncement

theorem fired_append (c d : Chronicle) : (c ++ d).fired = c.fired ++ d.fired :=
  List.filterMap_append

theorem announced_append (c d : Chronicle) : (c ++ d).announced = c.announced ++ d.announced :=
  List.filter_append ..

/-- A callback that is called is announced. -/
theorem fired_eq (c : Chronicle) : c.fired = c.announced.filterMap Event.fired? := by
  rw [fired, announced, List.filterMap_filter]
  refine congrArg (List.filterMap · c.events) (funext fun ev => ?_)
  cases hf : ev.fired? with
  | none => rw [ite_self]
  | some callback =>
    have hev : ev.isAnnouncement = true := by
      rw [Event.isAnnouncement, hf, Option.isSome_some, Bool.or_true]
    rw [if_pos hev]

end Chronicle

namespace Activity

/-- The callback that the next step of the activity registers. -/
def registers? : Activity → Option String
  | notify (.register callback) => some callback
  | _ => none

/-- Nobody is broken off where it may not be suspended. -/
theorem mayRest_of_mayBreakOff {a : Activity} {asked : Bool} (h : a.mayBreakOff asked = true) :
    a.mayRest asked = true := by
  cases a with
  | waiter p => cases p <;> first | exact h | exact nomatch h
  | _ => exact h

end Activity

namespace Node

/-! ## Incidents -/

/-- What can happen at a node. -/
inductive Incident where
  | move (m : Move)
  /-- The waiter breaks down under the request that it waits for. -/
  | collapse (id : CallId)

def undergo? (n : Node) : Incident → Option Node
  | .move m => n.move? m
  | .collapse id =>
    match n.course id with
    | some (.going (.waiter _) true) =>
      some { n.setCourse id .brokenOff with elector := WaiterPoint.abandon n.elector }
    | _ => none

/-- The activity that is at work under a name. -/
def activity? (n : Node) (id : CallId) : Option Activity :=
  match n.course id with
  | some (.going a _) => some a
  | _ => none

/-- What an incident makes known. -/
def news (n : Node) : Incident → List Event
  | .move (.step id _) => (n.activity? id).elim [] fun a => (a.step n.elector id).events
  | .move (.answer id r) => (n.activity? id).elim [] fun a => (a.reply n.elector r).events
  | _ => []

/-- The callback that an incident registers. -/
def registers? (n : Node) : Incident → Option String
  | .move (.step id _) => (n.activity? id).bind Activity.registers?
  | _ => none

/-- The chronicle of one incident.  Who registers a callback discards the one that waits. -/
def chronicle (n : Node) (i : Incident) : Chronicle where
  events := n.news i
  registered := (n.registers? i).toList
  discarded := (n.registers? i).elim [] fun _ => n.elector.callback.toList

/-- The node after incidents, the first one first, and the chronicle of them. -/
def live? (n : Node) : List Incident → Option (Node × Chronicle)
  | [] => some (n, .empty)
  | i :: is =>
    (n.undergo? i).bind fun n' => (n'.live? is).map fun x => (x.1, n.chronicle i ++ x.2)

/-- `n.Undergoes i n'` spells out how the incident `i` leads from `n` to `n'`. -/
inductive Undergoes (n : Node) : Incident → Node → Prop where
  | move {m : Move} {n' : Node} (made : n.Makes m n') : n.Undergoes (.move m) n'
  | collapse {id : CallId} {p : WaiterPoint} (here : n.course id = some (.going (.waiter p) true)) :
      n.Undergoes (.collapse id)
        { n.setCourse id .brokenOff with elector := WaiterPoint.abandon n.elector }

/-- A node at which nothing has happened. -/
def blank : Node := fresh (.fresh ⟨"host", 7, "lead", "a"⟩ "a#1" 4000 none)

/-- What incidents lead to, if all of them can happen. -/
def after (n : Node) (is : List Incident) : Node × Chronicle := (n.live? is).getD (n, .empty)

variable {n n' : Node} {i : Incident} {is js : List Incident} {id : CallId} {a : Activity}
  {asked : Bool} {c : Chronicle}

theorem undergoes_of_undergo? (h : n.undergo? i = some n') : n.Undergoes i n' := by
  cases i with
  | move m => exact .move (makes_of_move? h)
  | collapse id =>
    simp only [undergo?] at h
    split at h
    · next p here =>
      cases h
      exact .collapse here
    · exact nomatch h

theorem activity?_of_going (here : n.course id = some (.going a asked)) :
    n.activity? id = some a := by
  simp only [activity?, here]

/-! ## Runs -/

theorem of_live?_nil (h : n.live? [] = some (n', c)) : n' = n ∧ c = .empty := by
  cases h
  exact ⟨rfl, rfl⟩

theorem live?_cons {n₁ : Node} (hi : n.undergo? i = some n₁) (h : n₁.live? is = some (n', c)) :
    n.live? (i :: is) = some (n', n.chronicle i ++ c) := by
  rw [live?, hi, Option.bind_some, h]
  rfl

theorem of_live?_cons (h : n.live? (i :: is) = some (n', c)) :
    ∃ n₁ c₁, n.undergo? i = some n₁ ∧ n₁.live? is = some (n', c₁) ∧ c = n.chronicle i ++ c₁ := by
  obtain ⟨n₁, hi, hrest⟩ := Option.bind_eq_some_iff.mp h
  obtain ⟨⟨n₂, c₁⟩, hlive, heq⟩ := Option.map_eq_some_iff.mp hrest
  cases heq
  exact ⟨n₁, c₁, hi, hlive, rfl⟩

/-- What every incident keeps is kept by a run. -/
theorem live?_keeps {P : Node → Prop} (keep : ∀ {n i n'}, n.Undergoes i n' → P n → P n')
    (h : n.live? is = some (n', c)) (hn : P n) : P n' := by
  induction is generalizing n c with
  | nil =>
    obtain ⟨rfl, -⟩ := of_live?_nil h
    exact hn
  | cons i is ih =>
    obtain ⟨n₁, c₁, hi, hlive, -⟩ := of_live?_cons h
    exact ih hlive (keep (undergoes_of_undergo? hi) hn)

/-- A run announces nothing if no incident of it does. -/
theorem live?_announced {P : Node → Prop} (keep : ∀ {n i n'}, n.Undergoes i n' → P n → P n')
    (silent : ∀ {n i n'}, n.Undergoes i n' → P n → (n.chronicle i).announced = [])
    (h : n.live? is = some (n', c)) (hn : P n) : c.announced = [] := by
  induction is generalizing n c with
  | nil =>
    obtain ⟨-, rfl⟩ := of_live?_nil h
    rfl
  | cons i is ih =>
    obtain ⟨n₁, c₁, hi, hlive, rfl⟩ := of_live?_cons h
    have hu := undergoes_of_undergo? hi
    rw [Chronicle.announced_append, silent hu hn, List.nil_append]
    exact ih hlive (keep hu hn)

/-! ## What an incident does -/

/-- The deed of an incident. -/
def deed? (n : Node) : Incident → Option Deed
  | .move (.step id _) => (n.activity? id).bind Activity.deed?
  | _ => none

theorem deed?_of_step (here : n.course id = some (.going a asked)) (w : CallId) :
    n.deed? (.move (.step id w)) = a.deed? := by
  rw [deed?, activity?_of_going here]
  rfl

/-- What others see of an elector changes by deeds alone. -/
theorem Undergoes.face (h : n.Undergoes i n') :
    n'.elector.face = n.elector.face.after (n.deed? i) := by
  cases h with
  | move made =>
    cases made with
    | call new => rfl
    | @step id w a asked here ready new =>
      rw [spawn_elector, deed?_of_step here]
      exact (a.step_deed n.elector id).1
    | ask here request => rfl
    | @answer id r a q here request => exact a.reply_face n.elector r
    | @breakOff id a asked here may => exact a.abandon_face n.elector id
    | discard => rfl
  | collapse here => rfl

/-- Nothing is announced but by deeds. -/
theorem Undergoes.announced (h : n.Undergoes i n') :
    (n.chronicle i).announced = n.elector.face.news (n.deed? i) := by
  cases h with
  | move made =>
    cases made with
    | call new => rfl
    | @step id w a asked here ready new =>
      have hnews : n.news (.move (.step id w)) = (a.step n.elector id).events := by
        rw [news, activity?_of_going here]
        rfl
      rw [Chronicle.announced, chronicle, hnews, deed?_of_step here]
      exact (a.step_deed n.elector id).2
    | ask here request => rfl
    | @answer id r a q here request =>
      have hnews : n.news (.move (.answer id r)) = (a.reply n.elector r).events := by
        rw [news, activity?_of_going here]
        rfl
      rw [Chronicle.announced, chronicle, hnews]
      exact a.reply_announced n.elector r
    | breakOff here may => rfl
    | discard => rfl
  | collapse here => rfl

/-- A stop that was requested stays requested. -/
theorem Undergoes.shutdown (h : n.Undergoes i n') (hn : n.elector.shutdown = true) :
    n'.elector.shutdown = true := by
  cases h with
  | move made =>
    cases made with
    | call new => exact hn
    | @step id w a asked here ready new =>
      rw [spawn_elector]
      exact a.step_shutdown hn id
    | ask here request => exact hn
    | @answer id r a q here request => exact (a.reply_shutdown n.elector r).trans hn
    | @breakOff id a asked here may =>
      obtain ⟨_, _, ha⟩ := a.abandon_elector n.elector id
      show (a.abandon n.elector id).shutdown = true
      rw [ha]
      exact hn
    | discard => rfl
  | collapse here => exact hn

/-- What holds of everybody at work: of whoever comes, and of whoever goes on after an incident. -/
theorem Undergoes.forall_going {P Q : Activity → Bool → Prop} (h : n.Undergoes i n')
    (before : ∀ id a asked, n.course id = some (.going a asked) → P a asked)
    (keep : ∀ a asked, P a asked → Q a asked) (entry : ∀ c : Entry, Q c.activity false)
    (waiter : Q (.waiter .await) false)
    (ask : ∀ a q, a.request? n.elector = some q → P a false → Q a true)
    (step : ∀ id w a asked b, i = .move (.step id w) → n.course id = some (.going a asked) →
      a.isReady n.elector id = true → (a.step n.elector id).next = .inl b → P a asked → Q b false)
    (reply : ∀ a q r b, a.request? n.elector = some q → (a.reply n.elector r).next = .inl b →
      P a true → Q b false) :
    ∀ id a asked, n'.course id = some (.going a asked) → Q a asked := by
  intro id' a' asked' here
  have hother : n.course id' = some (.going a' asked') → Q a' asked' := fun h =>
    keep a' asked' (before id' a' asked' h)
  cases h with
  | move made =>
    cases made with
    | @call id c new =>
      rcases course_setCourse here with ⟨-, hc⟩ | ⟨-, here⟩
      · cases hc
        exact entry c
      · exact hother here
    | @step id w a asked here₀ ready new =>
      rcases course_spawn here with ⟨-, -, -, hc⟩ | here
      · cases hc
        exact waiter
      · rcases going_carryOut here with ⟨-, hnext, rfl⟩ | ⟨-, here⟩
        · exact step id w a asked a' rfl here₀ ready hnext (before id a asked here₀)
        · exact hother here
    | @ask id a q here₀ request =>
      rcases course_setCourse here with ⟨-, hc⟩ | ⟨-, here⟩
      · cases hc
        exact ask a' q request (before id a' false here₀)
      · exact hother here
    | @answer id r a q here₀ request =>
      rcases going_carryOut here with ⟨-, hnext, rfl⟩ | ⟨-, here⟩
      · exact reply a q r a' request hnext (before id a true here₀)
      · exact hother here
    | @breakOff id a asked here₀ may =>
      rcases course_setCourse here with ⟨-, hc⟩ | ⟨-, here⟩
      · exact nomatch hc
      · exact hother here
    | discard => exact hother here
  | @collapse id p here₀ =>
    rcases course_setCourse here with ⟨-, hc⟩ | ⟨-, here⟩
    · exact nomatch hc
    · exact hother here

/-- A waiter that comes to life leaves all others where they are. -/
theorem course_spawn_of_ne (before : Elector) {w : CallId} (hne : id ≠ w) :
    (n.spawn before w).course id = n.course id := by
  rw [spawn]
  split
  · exact Function.update_of_ne hne ..
  · rfl

/-- After a step its activity is where the step leads. -/
theorem course_step {w : CallId} {t : Turn Activity Ending} (before : Elector)
    (here : n.course id = some (.going a asked)) (new : n.course w = none) :
    ((n.carryOut id t).spawn before w).course id =
      some (t.next.elim (.going · false) .ended) := by
  have hne : id ≠ w := by
    rintro rfl
    exact nomatch new.symm.trans here
  rw [course_spawn_of_ne before hne]
  exact Function.update_self ..

theorem Undergoes.course_elector_of_step {w : CallId} (h : n.Undergoes (.move (.step id w)) n')
    (here : n.course id = some (.going a asked)) :
    n'.course id = some ((a.step n.elector id).next.elim (.going · false) .ended) ∧
    n'.elector = (a.step n.elector id).elector := by
  cases h with
  | move made =>
    cases made with
    | step here' ready new =>
      obtain ⟨rfl, -⟩ := Course.going.inj (Option.some.inj (here.symm.trans here'))
      exact ⟨course_step n.elector here' new, spawn_elector ..⟩

/-- What an incident does to one activity; `x` is where the activity was, and `y` where it is
from then on. -/
inductive Fate (n : Node) (id : CallId) : (i : Incident) → (x y : Course) → Prop where
  | aside {i : Incident} {x : Course} (ask : i ≠ .move (.ask id)) : n.Fate id i x x
  | step {w : CallId} {a : Activity} {asked : Bool} (ready : a.isReady n.elector id = true) :
      n.Fate id (.move (.step id w)) (.going a asked)
        ((a.step n.elector id).next.elim (.going · false) .ended)
  | ask {a : Activity} {q : Request} (request : a.request? n.elector = some q) :
      n.Fate id (.move (.ask id)) (.going a false) (.going a true)
  | answer {a : Activity} {q : Request} {r : Reply} (request : a.request? n.elector = some q) :
      n.Fate id (.move (.answer id r)) (.going a true)
        ((a.reply n.elector r).next.elim (.going · false) .ended)
  | breakOff {a : Activity} {asked : Bool} (may : a.mayBreakOff asked = true) :
      n.Fate id (.move (.breakOff id)) (.going a asked) .brokenOff
  | collapse {p : WaiterPoint} :
      n.Fate id (.collapse id) (.going (.waiter p) true) .brokenOff

/-- Every incident does one of these things to every activity. -/
theorem Undergoes.fate (h : n.Undergoes i n') {x : Course} (here : n.course id = some x) :
    ∃ y, n'.course id = some y ∧ n.Fate id i x y := by
  have hother : ∀ {id' : CallId} {z : Course}, id ≠ id' →
      (n.setCourse id' z).course id = some x := fun {_ _} hne =>
    (Function.update_of_ne hne ..).trans here
  have hown : ∀ z : Course, (n.setCourse id z).course id = some z := fun _ =>
    Function.update_self ..
  cases h with
  | move made =>
    cases made with
    | @call id' c new =>
      refine ⟨x, hother ?_, .aside nofun⟩
      rintro rfl
      exact nomatch new.symm.trans here
    | @step id' w a asked here' ready new =>
      by_cases hid : id = id'
      · subst hid
        obtain rfl := Option.some.inj (here'.symm.trans here)
        exact ⟨_, course_step n.elector here new, .step ready⟩
      · have hw : id ≠ w := by
          rintro rfl
          exact nomatch new.symm.trans here
        have hcarry : (n.carryOut id' (a.step n.elector id')).course id = some x := hother hid
        exact ⟨x, (course_spawn_of_ne n.elector hw).trans hcarry, .aside nofun⟩
    | @ask id' a q here' request =>
      by_cases hid : id = id'
      · subst hid
        obtain rfl := Option.some.inj (here'.symm.trans here)
        exact ⟨_, hown _, .ask request⟩
      · exact ⟨x, hother hid, .aside fun h => by cases h; exact hid rfl⟩
    | @answer id' r a q here' request =>
      by_cases hid : id = id'
      · subst hid
        obtain rfl := Option.some.inj (here'.symm.trans here)
        exact ⟨_, hown _, .answer request⟩
      · exact ⟨x, hother hid, .aside nofun⟩
    | @breakOff id' a asked here' may =>
      by_cases hid : id = id'
      · subst hid
        obtain rfl := Option.some.inj (here'.symm.trans here)
        exact ⟨_, hown _, .breakOff may⟩
      · exact ⟨x, hother hid, .aside nofun⟩
    | discard => exact ⟨x, here, .aside nofun⟩
  | @collapse id' p here' =>
    by_cases hid : id = id'
    · subst hid
      obtain rfl := Option.some.inj (here'.symm.trans here)
      exact ⟨_, hown _, .collapse⟩
    · exact ⟨x, hother hid, .aside nofun⟩

/-- Whoever is busy, without waiting for anything, stays where it is until it takes a step. -/
theorem Undergoes.stays (h : n.Undergoes i n') (here : n.course id = some (.going a false))
    (busy : a.mayRest false = false) (request : a.request? n.elector = none) :
    n'.course id = some (.going a false) ∨ ∃ w, i = .move (.step id w) := by
  obtain ⟨y, hy, hfate⟩ := h.fate here
  cases hfate with
  | aside => exact .inl hy
  | step ready => exact .inr ⟨_, rfl⟩
  | ask request' => exact nomatch request.symm.trans request'
  | breakOff may => exact nomatch busy.symm.trans (Activity.mayRest_of_mayBreakOff may)

/-! ## Interleavings at suspension points -/

/-- The activity may be suspended, or it is over. -/
def mayRest (n : Node) (id : CallId) : Bool :=
  match n.course id with
  | some (.going a asked) => a.mayRest asked
  | _ => true

theorem mayRest_of_going (here : n.course id = some (.going a asked)) :
    n.mayRest id = a.mayRest asked := by
  rw [mayRest, here]

/-- Everybody may be suspended. -/
def AtRest (n : Node) : Prop := ∀ id, n.mayRest id = true

/-- The activity that an incident is about. -/
def Incident.actor? : Incident → Option CallId
  | move m => m.actor?
  | collapse id => some id

/-- Nobody moves unless all others may be suspended. -/
def Cooperative (n : Node) : List Incident → Prop
  | [] => True
  | i :: is => (∀ id, i.actor? ≠ some id → n.mayRest id = true) ∧
      ∀ n', n.undergo? i = some n' → n'.Cooperative is

/-- While somebody is busy, nobody else moves. -/
theorem Cooperative.step_of_busy (h : n.Cooperative (i :: is)) (hu : n.Undergoes i n')
    (here : n.course id = some (.going a false)) (busy : a.mayRest false = false)
    (request : a.request? n.elector = none) : ∃ w, i = .move (.step id w) := by
  have hrest : n.mayRest id = false := (mayRest_of_going here).trans busy
  have hactor : i.actor? = some id := by
    by_contra hne
    exact nomatch hrest.symm.trans (h.1 id hne)
  cases hu with
  | move made =>
    cases made with
    | call new => exact nomatch hactor
    | step here' ready new =>
      cases hactor
      exact ⟨_, rfl⟩
    | ask here' request' =>
      cases hactor
      obtain ⟨rfl, -⟩ := Course.going.inj (Option.some.inj (here.symm.trans here'))
      exact nomatch request.symm.trans request'
    | answer here' request' =>
      cases hactor
      exact nomatch here.symm.trans here'
    | breakOff here' may => exact nomatch hactor
    | discard => exact nomatch hactor
  | collapse here' =>
    cases hactor
    exact nomatch here.symm.trans here'

end Node

end Primacy.Election
