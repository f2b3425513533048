/-
  Primacy.Proofs.Election.Node

  An elector with everything that goes on around it: any number of calls, and the waiter.  A move
  lets one of them touch one thing that the others can see, makes a request, or brings the answer
  to one; moves follow each other in any order, and a request is answered in any way.  A run of
  moves is thus an interleaving of the calls at the grain of single accesses, against any lock
  service and any registry.
-/
import Mathlib.Logic.Function.Basic
import Primacy.Election.Activity
import Primacy.Proofs.Election.Turnstile

namespace Primacy.Election

/-! ## Calls -/

/-- A call on an elector. -/
inductive Entry where
  | start (address : String) (blocking : Bool)
  | stop
  | await
  | notify (callback : String)
  deriving DecidableEq

def Entry.activity : Entry → Activity
  | start address blocking => .start (.arrive address blocking)
  | stop => .stop .request
  | await => .await .check
  | notify callback => .notify (.register callback)

/-- How far a call on an elector, or its waiter, has got. -/
inductive Course where
  /-- It is at a point; `asked` says whether it has made the request that it is at. -/
  | going (a : Activity) (asked : Bool)
  | ended (r : Ending)
  /-- It was dropped, or it broke down. -/
  | brokenOff

namespace Activity

/-- The activity may be suspended here: it has not begun, it waits for its turn, for the waiter
or for the gate, or it waits for the answer to a request. -/
def mayRest (asked : Bool) : Activity → Bool
  | start (.arrive ..) => true
  | start (.queue ..) => true
  | stop .request => true
  | stop .arrive => true
  | stop .queue => true
  | stop .join => true
  | await .check => true
  | await .gate => true
  | notify (.register _) => true
  | waiter .await => true
  | _ => asked

/-- The activity may break off here: a call is dropped while it is suspended, or the registry
breaks down under the promotion of a waiter. -/
def mayBreakOff (asked : Bool) : Activity → Bool
  | waiter (.promote _) => asked
  | waiter _ => false
  | a => a.mayRest asked

theorem mayRest_asked (a : Activity) : a.mayRest true = true := by
  cases a with
  | start p => cases p <;> rfl
  | stop p => cases p <;> rfl
  | await p => cases p <;> rfl
  | notify p => cases p <;> rfl
  | waiter p => cases p <;> rfl

/-- Whoever makes no request and cannot take a step may be suspended. -/
theorem mayRest_of_not_isReady {e : Elector} {me : CallId} {a : Activity}
    (request : a.request? e = none) (ready : a.isReady e me ≠ true) : a.mayRest false = true := by
  cases a with
  | start p =>
    cases p with
    | queue address blocking => rfl
    | await => exact nomatch request
    | _ => exact absurd (Option.isNone_iff_eq_none.mpr request) ready
  | stop p =>
    cases p with
    | queue => rfl
    | join => rfl
    | unlock => exact nomatch request
    | _ => exact absurd rfl ready
  | await p =>
    cases p with
    | gate => rfl
    | _ => exact absurd rfl ready
  | notify p => exact absurd rfl ready
  | waiter p =>
    cases p with
    | await => exact nomatch request
    | _ => exact absurd (Option.isNone_iff_eq_none.mpr request) ready

end Activity

namespace Entry

theorem mayRest_activity (c : Entry) : c.activity.mayRest false = true := by
  cases c <;> rfl

/-- A start begins as a call, if it begins at all. -/
theorem exists_of_enter {address : Except Error String} {blocking : Bool} {p : StartPoint}
    (h : StartPoint.enter address blocking = .ok p) : ∃ c : Entry, c.activity = .start p := by
  cases address with
  | error err => exact nomatch h
  | ok address =>
    cases h
    exact ⟨.start address blocking, rfl⟩

end Entry

/-! ## Nodes and their moves -/

structure Node where
  elector : Elector
  /-- Where the calls made so far are, and the waiter. -/
  course : CallId → Option Course
  /-- The requests made so far, the earliest first. -/
  requests : List Request
  /-- How often the lock was granted. -/
  grants : Nat

namespace Node

/-- A node at which nothing has happened. -/
def fresh (e : Elector) : Node := ⟨e, fun _ => none, [], 0⟩

inductive Move where
  /-- A call is made. -/
  | call (id : CallId) (c : Entry)
  /-- An activity takes a step of its own; a waiter that it brings to life is called `waiter`. -/
  | step (id waiter : CallId)
  /-- An activity makes the request that it is at. -/
  | ask (id : CallId)
  /-- The request of an activity is answered. -/
  | answer (id : CallId) (r : Reply)
  | breakOff (id : CallId)
  /-- Nobody holds on to the elector any more. -/
  | discard

def setCourse (n : Node) (id : CallId) (c : Course) : Node :=
  { n with course := Function.update n.course id (some c) }

/-- Carries out a turn of an activity. -/
def carryOut (n : Node) (id : CallId) (t : Turn Activity Ending) : Node :=
  { n.setCourse id (t.next.elim (.going · false) .ended) with elector := t.elector }

/-- Sets a waiter going if one came to life since the elector was as in `before`. -/
def spawn (n : Node) (before : Elector) (waiter : CallId) : Node :=
  if before.waiter = .absent ∧ n.elector.waiter = .active then
    n.setCourse waiter (.going (.waiter .await) false)
  else n

/-- The node after a move, if the move can be made. -/
def move? (n : Node) : Move → Option Node
  | .call id c =>
    if (n.course id).isNone then some (n.setCourse id (.going c.activity false)) else none
  | .step id waiter =>
    match n.course id with
    | some (.going a _) =>
      if a.isReady n.elector id ∧ (n.course waiter).isNone then
        some ((n.carryOut id (a.step n.elector id)).spawn n.elector waiter)
      else none
    | _ => none
  | .ask id =>
    match n.course id with
    | some (.going a false) =>
      (a.request? n.elector).map fun q =>
        { n.setCourse id (.going a true) with requests := n.requests ++ [q] }
    | _ => none
  | .answer id r =>
    match n.course id with
    | some (.going a true) =>
      (a.request? n.elector).map fun q =>
        { n.carryOut id (a.reply n.elector r) with
          grants := n.grants + if q.isGranted r then 1 else 0 }
    | _ => none
  | .breakOff id =>
    match n.course id with
    | some (.going a asked) =>
      if a.mayBreakOff asked then
        some { n.setCourse id .brokenOff with elector := a.abandon n.elector id }
      else none
    | _ => none
  | .discard => some { n with elector := n.elector.drop }

/-- The nodes that moves lead to from the fresh node of an elector. -/
inductive Reachable (e : Elector) : Node → Prop where
  | fresh : Reachable e (Node.fresh e)
  | move {n n' : Node} {m : Move} (before : Reachable e n) (made : n.move? m = some n') :
      Reachable e n'

/-- The node after moves made one after the other. -/
def run? (n : Node) : List Move → Option Node
  | [] => some n
  | m :: ms => (n.move? m).bind (·.run? ms)

theorem Reachable.run {e : Elector} {n n' : Node} {ms : List Move} (h : Reachable e n)
    (made : n.run? ms = some n') : Reachable e n' := by
  induction ms generalizing n with
  | nil => exact Option.some.inj made ▸ h
  | cons m ms ih =>
    obtain ⟨n₁, h₁, hrest⟩ := Option.bind_eq_some_iff.mp made
    exact ih (.move h h₁) hrest

/-! ## What a move does -/

/-- `n.Makes m n'` spells out how the move `m` leads from `n` to `n'`. -/
inductive Makes (n : Node) : Move → Node → Prop where
  | call {id : CallId} {c : Entry} (new : n.course id = none) :
      n.Makes (.call id c) (n.setCourse id (.going c.activity false))
  | step {id waiter : CallId} {a : Activity} {asked : Bool}
      (here : n.course id = some (.going a asked)) (ready : a.isReady n.elector id = true)
      (new : n.course waiter = none) :
      n.Makes (.step id waiter) ((n.carryOut id (a.step n.elector id)).spawn n.elector waiter)
  | ask {id : CallId} {a : Activity} {q : Request}
      (here : n.course id = some (.going a false)) (request : a.request? n.elector = some q) :
      n.Makes (.ask id) { n.setCourse id (.going a true) with requests := n.requests ++ [q] }
  | answer {id : CallId} {r : Reply} {a : Activity} {q : Request}
      (here : n.course id = some (.going a true)) (request : a.request? n.elector = some q) :
      n.Makes (.answer id r) { n.carryOut id (a.reply n.elector r) with
        grants := n.grants + if q.isGranted r then 1 else 0 }
  | breakOff {id : CallId} {a : Activity} {asked : Bool}
      (here : n.course id = some (.going a asked)) (may : a.mayBreakOff asked = true) :
      n.Makes (.breakOff id) { n.setCourse id .brokenOff with elector := a.abandon n.elector id }
  | discard : n.Makes .discard { n with elector := n.elector.drop }

/-- After the course of one activity was set, every other is where it was. -/
theorem course_setCourse {n : Node} {id id' : CallId} {c c' : Course}
    (h : (n.setCourse id c).course id' = some c') :
    (id' = id ∧ c' = c) ∨ (id' ≠ id ∧ n.course id' = some c') := by
  by_cases hne : id' = id
  · refine .inl ⟨hne, ?_⟩
    simpa [setCourse, hne, eq_comm] using h
  · exact .inr ⟨hne, by simpa [setCourse, hne] using h⟩

theorem course_carryOut {n : Node} {id id' : CallId} {t : Turn Activity Ending} {c : Course}
    (h : (n.carryOut id t).course id' = some c) :
    (id' = id ∧ c = t.next.elim (.going · false) .ended) ∨ (id' ≠ id ∧ n.course id' = some c) :=
  course_setCourse h

theorem going_carryOut {n : Node} {id id' : CallId} {t : Turn Activity Ending} {a : Activity}
    {asked : Bool} (h : (n.carryOut id t).course id' = some (.going a asked)) :
    (id' = id ∧ t.next = .inl a ∧ asked = false) ∨
    (id' ≠ id ∧ n.course id' = some (.going a asked)) := by
  rcases course_carryOut h with ⟨hid, hc⟩ | hother
  · cases hn : t.next with
    | inl b =>
      rw [hn] at hc
      cases hc
      exact .inl ⟨hid, rfl, rfl⟩
    | inr r =>
      rw [hn] at hc
      cases hc
  · exact .inr hother

theorem ended_carryOut {n : Node} {id id' : CallId} {t : Turn Activity Ending} {r : Ending}
    (h : (n.carryOut id t).course id' = some (.ended r)) :
    (id' = id ∧ t.next = .inr r) ∨ (id' ≠ id ∧ n.course id' = some (.ended r)) := by
  rcases course_carryOut h with ⟨hid, hc⟩ | hother
  · cases hn : t.next with
    | inl b =>
      rw [hn] at hc
      cases hc
    | inr r' =>
      rw [hn] at hc
      cases hc
      exact .inl ⟨hid, rfl⟩
  · exact .inr hother

theorem course_spawn {n : Node} {before : Elector} {w id : CallId} {c : Course}
    (h : (n.spawn before w).course id = some c) :
    (before.waiter = .absent ∧ n.elector.waiter = .active ∧ id = w ∧
      c = .going (.waiter .await) false) ∨ n.course id = some c := by
  rw [spawn] at h
  split at h
  · next hw =>
    rcases course_setCourse h with ⟨hid, hc⟩ | ⟨-, h⟩
    · exact .inl ⟨hw.1, hw.2, hid, hc⟩
    · exact .inr h
  · exact .inr h

@[simp] theorem spawn_elector (n : Node) (before : Elector) (w : CallId) :
    (n.spawn before w).elector = n.elector := by
  rw [spawn]
  split <;> rfl

theorem makes_of_move? {n n' : Node} {m : Move} (h : n.move? m = some n') : n.Makes m n' := by
  cases m with
  | call id c =>
    simp only [move?, Option.ite_none_right_eq_some, Option.isNone_iff_eq_none] at h
    obtain ⟨hnew, heq⟩ := h
    cases heq
    exact .call hnew
  | step id waiter =>
    simp only [move?] at h
    split at h
    · next a asked here =>
      simp only [Option.ite_none_right_eq_some, Option.isNone_iff_eq_none] at h
      obtain ⟨⟨hready, hnew⟩, heq⟩ := h
      cases heq
      exact .step here hready hnew
    · cases h
  | ask id =>
    simp only [move?] at h
    split at h
    · next a here =>
      obtain ⟨q, hq, heq⟩ := Option.map_eq_some_iff.mp h
      cases heq
      exact .ask here hq
    · cases h
  | answer id r =>
    simp only [move?] at h
    split at h
    · next a here =>
      obtain ⟨q, hq, heq⟩ := Option.map_eq_some_iff.mp h
      cases heq
      exact .answer here hq
    · cases h
  | breakOff id =>
    simp only [move?] at h
    split at h
    · next a asked here =>
      simp only [Option.ite_none_right_eq_some] at h
      obtain ⟨hmay, heq⟩ := h
      cases heq
      exact .breakOff here hmay
    · cases h
  | discard =>
    cases h
    exact .discard

theorem move?_of_makes {n n' : Node} {m : Move} (h : n.Makes m n') : n.move? m = some n' := by
  cases h with
  | call new => simp [move?, new]
  | step here ready new => simp [move?, here, ready, new]
  | ask here request => simp [move?, here, request]
  | answer here request => simp [move?, here, request]
  | breakOff here may => simp [move?, here, may]
  | discard => rfl

theorem Reachable.makes {e : Elector} {n n' : Node} {m : Move} (h : Reachable e n)
    (made : n.Makes m n') : Reachable e n' :=
  h.move (move?_of_makes made)

/-- The activity that a move gets on with. -/
def Move.actor? : Move → Option CallId
  | step id _ => some id
  | ask id => some id
  | answer id _ => some id
  | _ => none

def Move.isBreakOff : Move → Bool
  | breakOff _ => true
  | _ => false

variable {n n' : Node} {m : Move}

/-- No move changes what an elector was given. -/
theorem Makes.card (h : n.Makes m n') : n'.elector.card = n.elector.card := by
  cases h with
  | call new => rfl
  | @step id waiter a asked here ready new =>
    rw [spawn_elector]
    exact a.step_card n.elector id
  | ask here request => rfl
  | @answer id r a q here request => exact a.reply_card n.elector r
  | @breakOff id a asked here may =>
    obtain ⟨_, _, h⟩ := a.abandon_elector n.elector id
    show (a.abandon n.elector id).card = n.elector.card
    rw [h]
    rfl
  | discard => rfl

/-- No move changes the name under which an elector competes. -/
theorem Makes.owner (h : n.Makes m n') : n'.elector.owner = n.elector.owner :=
  congrArg (·.2.1) h.card

/-- Whoever a move does not get on with is where it was, or may be suspended where it begins. -/
theorem Makes.rests (h : n.Makes m n') {id : CallId} {a : Activity} {asked : Bool}
    (hne : m.actor? ≠ some id) (here : n'.course id = some (.going a asked)) :
    n.course id = some (.going a asked) ∨ a.mayRest asked = true := by
  cases h with
  | @call id₁ c new =>
    rcases course_setCourse here with ⟨-, hc⟩ | ⟨-, here⟩
    · cases hc
      exact .inr c.mayRest_activity
    · exact .inl here
  | @step id₁ waiter b asked₁ here₁ ready new =>
    rcases course_spawn here with ⟨-, -, -, hc⟩ | here
    · cases hc
      exact .inr rfl
    · rcases course_carryOut here with ⟨hid, -⟩ | ⟨-, here⟩
      · exact absurd (congrArg some hid.symm) hne
      · exact .inl here
  | @ask id₁ b q here₁ request =>
    rcases course_setCourse here with ⟨hid, -⟩ | ⟨-, here⟩
    · exact absurd (congrArg some hid.symm) hne
    · exact .inl here
  | @answer id₁ r b q here₁ request =>
    rcases course_carryOut here with ⟨hid, -⟩ | ⟨-, here⟩
    · exact absurd (congrArg some hid.symm) hne
    · exact .inl here
  | @breakOff id₁ b asked₁ here₁ may =>
    rcases course_setCourse here with ⟨-, hc⟩ | ⟨-, here⟩
    · exact nomatch hc
    · exact .inl here
  | discard => exact .inl here

end Node

end Primacy.Election
