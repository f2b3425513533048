/-
  Primacy.Proofs.Election.Group

  Electors that share a lock service and a registry.  One activity at a time is at work, and works
  on until it is suspended: while it waits for its turn, for the waiter, for the gate, or for an
  answer.  A run of moves is an interleaving of all calls and waiters at these points.
-/
import Mathlib.Logic.Function.Basic
import Mathlib.Logic.Relation
import Primacy.Proofs.Election.Custody
import Primacy.Proofs.Lock.Service

namespace Primacy.Election

/-! ## The turn of one activity -/

namespace Node

/-- One turn of the activity `id`, which has the lock service at hand; `r` is what the registry
answers.  A lock call is made and looked at in one go.  An activity that no longer waits for the
lock gives its call up. -/
def advance? (L : Lock.Service) (n : Node) (s : L.State) (id waiter : CallId)
    (x : L.Surroundings) (r : Reply) : Option (Node × L.State) :=
  match n.course id with
  | some (.going a asked) =>
    if a.isReady n.elector id then (n.move? (.step id waiter)).map (·, L.withdraw s id)
    else
      (a.request? n.elector).bind fun q =>
        match q.target n.elector.owner with
        | .inr _ => (n.move? (if asked then .answer id r else .ask id)).map (·, s)
        | .inl c =>
          (if asked then some n else n.move? (.ask id)).bind fun n =>
            match L.look s x id c with
            | (none, s) => some (n, s)
            | (some r, s) => (n.move? (.answer id (r.mapError .lock))).map (·, s)
  | _ => none

/-- `n.Advances L s id waiter x r n' s'` spells out how a turn of `id` leads from `n` with the lock
in state `s` to `n'` with the lock in state `s'`. -/
inductive Advances (L : Lock.Service) (n : Node) (s : L.State) (id waiter : CallId)
    (x : L.Surroundings) (r : Reply) : Node → L.State → Prop where
  | step {a : Activity} {asked : Bool} {n' : Node} (here : n.course id = some (.going a asked))
      (made : n.Makes (.step id waiter) n') : n.Advances L s id waiter x r n' (L.withdraw s id)
  | put {a : Activity} {asked : Bool} {key value : String} {n' : Node}
      (here : n.course id = some (.going a asked))
      (request : a.request? n.elector = some (.put key value))
      (made : n.Makes (if asked then .answer id r else .ask id) n') :
      n.Advances L s id waiter x r n' s
  | wait {a : Activity} {asked : Bool} {q : Request} {c : Lock.Call} {n' : Node} {s' : L.State}
      (here : n.course id = some (.going a asked)) (request : a.request? n.elector = some q)
      (target : q.target n.elector.owner = .inl c)
      (asks : if asked then n' = n else n.Makes (.ask id) n')
      (look : L.look s x id c = (none, s')) : n.Advances L s id waiter x r n' s'
  | answer {a : Activity} {asked : Bool} {q : Request} {c : Lock.Call} {n₁ n' : Node}
      {l : Except LockError Bool} {s' : L.State}
      (here : n.course id = some (.going a asked)) (request : a.request? n.elector = some q)
      (target : q.target n.elector.owner = .inl c)
      (asks : if asked then n₁ = n else n.Makes (.ask id) n₁)
      (look : L.look s x id c = (some l, s'))
      (made : n₁.Makes (.answer id (l.mapError .lock)) n') : n.Advances L s id waiter x r n' s'

theorem Request.target_eq_inr {q : Request} {owner key value : String}
    (h : q.target owner = .inr (key, value)) : q = .put key value := by
  cases q with
  | put key value => cases h; rfl
  | _ => exact nomatch h

/-- The move belongs to a turn of the activity `id`. -/
inductive Move.IsTurn (id waiter : CallId) : Move → Prop where
  | step : IsTurn id waiter (.step id waiter)
  | ask : IsTurn id waiter (.ask id)
  | answer (r : Reply) : IsTurn id waiter (.answer id r)

theorem Move.IsTurn.isBreakOff {m : Move} {id waiter : CallId} (h : m.IsTurn id waiter) :
    m.isBreakOff = false := by
  cases h <;> rfl

theorem Move.IsTurn.actor? {m : Move} {id waiter : CallId} (h : m.IsTurn id waiter) :
    m.actor? = some id := by
  cases h <;> rfl

namespace Advances

variable {L : Lock.Service} {n n' : Node} {s s' : L.State} {id waiter : CallId}
  {x : L.Surroundings} {r : Reply}

/-- A turn keeps what each of its moves keeps. -/
theorem preserves {P : Node → Prop} (h : n.Advances L s id waiter x r n' s')
    (keep : ∀ n m n', m.IsTurn id waiter → Makes n m n' → P n → P n') (hn : P n) : P n' := by
  have hasks : ∀ {asked : Bool} {n₁ : Node},
      (if asked then n₁ = n else n.Makes (.ask id) n₁) → P n₁ := by
    intro asked n₁ asks
    cases asked with
    | true => exact asks ▸ hn
    | false => exact keep _ _ _ .ask asks hn
  cases h with
  | step here made => exact keep _ _ _ .step made hn
  | @put a asked key value _ here request made =>
    cases asked with
    | true => exact keep _ _ _ (.answer r) made hn
    | false => exact keep _ _ _ .ask made hn
  | wait here request target asks look => exact hasks asks
  | answer here request target asks look made => exact keep _ _ _ (.answer _) made (hasks asks)

/-- A turn keeps what each look at the lock service keeps. -/
theorem preserves_lock {P : L.State → Prop} (h : n.Advances L s id waiter x r n' s')
    (look : ∀ s x t c, P s → P (L.look s x t c).2) (withdraw : ∀ s t, P s → P (L.withdraw s t))
    (hs : P s) : P s' := by
  cases h with
  | step here made => exact withdraw s id hs
  | put here request made => exact hs
  | @wait a asked q c _ _ here request target asks hlook =>
    have h := look s x id c hs
    rwa [hlook] at h
  | @answer a asked q c n₁ _ l _ here request target asks hlook made =>
    have h := look s x id c hs
    rwa [hlook] at h

/-- Everybody else is where he was, or may be suspended where he begins. -/
theorem rests (h : n.Advances L s id waiter x r n' s') {id' : CallId} {a : Activity} {asked : Bool}
    (hne : id' ≠ id) (here : n'.course id' = some (.going a asked)) :
    n.course id' = some (.going a asked) ∨ a.mayRest asked = true := by
  -- a turn can be two moves, and what is to be shown is carried through both
  refine h.preserves (P := fun n₁ => n₁.course id' = some (.going a asked) →
    n.course id' = some (.going a asked) ∨ a.mayRest asked = true) ?_ .inl here
  intro n₁ m n₂ turn made before here
  have hactor : m.actor? ≠ some id' := by
    rw [turn.actor?]
    exact fun h => hne (Option.some.inj h).symm
  rcases made.rests hactor here with here | hrest
  · exact before here
  · exact .inr hrest

end Advances

theorem advances_of_advance? {L : Lock.Service} {n n' : Node} {s s' : L.State}
    {id waiter : CallId} {x : L.Surroundings} {r : Reply}
    (h : n.advance? L s id waiter x r = some (n', s')) : n.Advances L s id waiter x r n' s' := by
  unfold advance? at h
  split at h
  · next a asked here =>
    split at h
    · obtain ⟨n₁, hmade, heq⟩ := Option.map_eq_some_iff.mp h
      cases heq
      exact .step here (makes_of_move? hmade)
    · obtain ⟨q, request, hq⟩ := Option.bind_eq_some_iff.mp h
      split at hq
      · next put target =>
        obtain rfl := Request.target_eq_inr target
        obtain ⟨n₁, hmade, heq⟩ := Option.map_eq_some_iff.mp hq
        cases heq
        exact .put here request (makes_of_move? hmade)
      · next c target =>
        obtain ⟨n₁, hasked, hlook⟩ := Option.bind_eq_some_iff.mp hq
        have asks : if asked then n₁ = n else n.Makes (.ask id) n₁ := by
          cases asked with
          | true => exact (Option.some.inj hasked).symm
          | false => exact makes_of_move? hasked
        split at hlook
        · next s₁ look =>
          cases hlook
          exact .wait here request target asks look
        · next l s₁ look =>
          obtain ⟨n₂, hmade, heq⟩ := Option.map_eq_some_iff.mp hlook
          cases heq
          exact .answer here request target asks look (makes_of_move? hmade)
  · exact nomatch h

end Node

/-! ## Groups and their moves -/

structure Group (ι : Type) (L : Lock.Service) where
  nodes : ι → Node
  lock : L.State
  /-- The activity at work. -/
  active : Option (ι × CallId)
  /-- The first number that no call was given yet. -/
  next : CallId

namespace Group

/-- What can happen in a group. -/
inductive Move (ι : Type) (L : Lock.Service) where
  | call (i : ι) (c : Entry)
  /-- A suspended activity goes on with its work. -/
  | resume (i : ι) (id : CallId)
  /-- The activity at work takes a turn. -/
  | turn (x : L.Surroundings) (r : Reply)
  /-- The activity at work is suspended, or over. -/
  | rest
  | breakOff (i : ι) (id : CallId)
  /-- Nobody holds on to an elector any more. -/
  | discard (i : ι)
  /-- Somebody else calls the lock service. -/
  | outside (x : L.Surroundings) (c : Lock.Call)

variable {ι : Type} [DecidableEq ι] {L : Lock.Service}

def fresh (electors : ι → Elector) (s : L.State) : Group ι L :=
  ⟨fun i => .fresh (electors i), s, none, 0⟩

def setNode (g : Group ι L) (i : ι) (n : Node) : Group ι L :=
  { g with nodes := Function.update g.nodes i n }

/-- A suspended activity can go on: it has a step to take, a request to make, or an answer to
come.  A registry always answers; a lock call that waits is answered when it is woken. -/
def canGoOn (g : Group ι L) (i : ι) (id : CallId) : Bool :=
  let e := (g.nodes i).elector
  match (g.nodes i).course id with
  | some (.going a asked) =>
    a.isReady e id ||
    match a.request? e with
    | none => false
    | some q => match q.target e.owner with
      | .inl _ => !asked || L.isWoken g.lock id
      | .inr _ => true
  | _ => false

/-- The activity may be suspended, or it is over. -/
def mayRest (g : Group ι L) (i : ι) (id : CallId) : Bool :=
  match (g.nodes i).course id with
  | some (.going a asked) => a.mayRest asked
  | _ => true

/-- The group after a move, if the move can be made. -/
def move? (g : Group ι L) : Move ι L → Option (Group ι L)
  | .call i c =>
    if g.active.isNone then
      ((g.nodes i).move? (.call g.next c)).map fun n =>
        { g.setNode i n with next := g.next + 1 }
    else none
  | .resume i id =>
    if g.active.isNone ∧ g.canGoOn i id then some { g with active := some (i, id) } else none
  | .turn x r =>
    g.active.bind fun (i, id) =>
      ((g.nodes i).advance? L g.lock id g.next x r).map fun (n, s) =>
        { g.setNode i n with lock := s, next := g.next + 1 }
  | .rest =>
    g.active.bind fun (i, id) => if g.mayRest i id then some { g with active := none } else none
  | .breakOff i id =>
    if g.active.isNone then
      ((g.nodes i).move? (.breakOff id)).map fun n =>
        { g.setNode i n with lock := L.withdraw g.lock id }
    else none
  | .discard i =>
    if g.active.isNone then ((g.nodes i).move? .discard).map (g.setNode i) else none
  | .outside x c =>
    if g.active.isNone then
      some { g with lock := (L.look g.lock x g.next c).2, next := g.next + 1 }
    else none

/-- The groups that allowed moves lead to. -/
inductive Reachable (allowed : Move ι L → Prop) (g₀ : Group ι L) : Group ι L → Prop where
  | refl : Reachable allowed g₀ g₀
  | move {g g' : Group ι L} {m : Move ι L} (before : Reachable allowed g₀ g) (may : allowed m)
      (made : g.move? m = some g') : Reachable allowed g₀ g'

/-- The group after moves made one after the other. -/
def run? (g : Group ι L) : List (Move ι L) → Option (Group ι L)
  | [] => some g
  | m :: ms => (g.move? m).bind (·.run? ms)

theorem Reachable.run {allowed : Move ι L → Prop} {g₀ g g' : Group ι L} {ms : List (Move ι L)}
    (h : Reachable allowed g₀ g) (may : ∀ m ∈ ms, allowed m) (made : g.run? ms = some g') :
    Reachable allowed g₀ g' := by
  induction ms generalizing g with
  | nil => exact Option.some.inj made ▸ h
  | cons m ms ih =>
    obtain ⟨g₁, h₁, hrest⟩ := Option.bind_eq_some_iff.mp made
    exact ih (.move h (may m List.mem_cons_self) h₁) (fun m' hm => may m' (.tail m hm)) hrest

/-! ## What a move does -/

/-- `g.Makes m g'` spells out how the move `m` leads from `g` to `g'`. -/
inductive Makes (g : Group ι L) : Move ι L → Group ι L → Prop where
  | call {i : ι} {c : Entry} {n : Node} (idle : g.active = none)
      (made : (g.nodes i).Makes (.call g.next c) n) :
      g.Makes (.call i c) { g.setNode i n with next := g.next + 1 }
  | resume {i : ι} {id : CallId} (idle : g.active = none) (can : g.canGoOn i id = true) :
      g.Makes (.resume i id) { g with active := some (i, id) }
  | turn {x : L.Surroundings} {r : Reply} {i : ι} {id : CallId} {n : Node} {s : L.State}
      (here : g.active = some (i, id))
      (made : (g.nodes i).Advances L g.lock id g.next x r n s) :
      g.Makes (.turn x r) { g.setNode i n with lock := s, next := g.next + 1 }
  | rest {i : ι} {id : CallId} (here : g.active = some (i, id)) (may : g.mayRest i id = true) :
      g.Makes .rest { g with active := none }
  | breakOff {i : ι} {id : CallId} {n : Node} (idle : g.active = none)
      (made : (g.nodes i).Makes (.breakOff id) n) :
      g.Makes (.breakOff i id) { g.setNode i n with lock := L.withdraw g.lock id }
  | discard {i : ι} {n : Node} (idle : g.active = none) (made : (g.nodes i).Makes .discard n) :
      g.Makes (.discard i) (g.setNode i n)
  | outside {x : L.Surroundings} {c : Lock.Call} (idle : g.active = none) :
      g.Makes (.outside x c) { g with lock := (L.look g.lock x g.next c).2, next := g.next + 1 }

theorem makes_of_move? {g g' : Group ι L} {m : Move ι L} (h : g.move? m = some g') :
    g.Makes m g' := by
  cases m with
  | call i c =>
    simp only [move?, Option.ite_none_right_eq_some, Option.isNone_iff_eq_none] at h
    obtain ⟨n, hmade, heq⟩ := Option.map_eq_some_iff.mp h.2
    cases heq
    exact .call h.1 (Node.makes_of_move? hmade)
  | resume i id =>
    simp only [move?, Option.ite_none_right_eq_some, Option.isNone_iff_eq_none] at h
    obtain ⟨⟨hidle, hcan⟩, heq⟩ := h
    cases heq
    exact .resume hidle hcan
  | turn x r =>
    obtain ⟨⟨i, id⟩, hactive, hturn⟩ := Option.bind_eq_some_iff.mp h
    obtain ⟨⟨n, s⟩, hmade, heq⟩ := Option.map_eq_some_iff.mp hturn
    cases heq
    exact .turn hactive (Node.advances_of_advance? hmade)
  | rest =>
    obtain ⟨⟨i, id⟩, hactive, hrest⟩ := Option.bind_eq_some_iff.mp h
    simp only [Option.ite_none_right_eq_some] at hrest
    obtain ⟨hmay, heq⟩ := hrest
    cases heq
    exact .rest hactive hmay
  | breakOff i id =>
    simp only [move?, Option.ite_none_right_eq_some, Option.isNone_iff_eq_none] at h
    obtain ⟨n, hmade, heq⟩ := Option.map_eq_some_iff.mp h.2
    cases heq
    exact .breakOff h.1 (Node.makes_of_move? hmade)
  | discard i =>
    simp only [move?, Option.ite_none_right_eq_some, Option.isNone_iff_eq_none] at h
    obtain ⟨n, hmade, heq⟩ := Option.map_eq_some_iff.mp h.2
    cases heq
    exact .discard h.1 (Node.makes_of_move? hmade)
  | outside x c =>
    simp only [move?, Option.ite_none_right_eq_some, Option.isNone_iff_eq_none] at h
    obtain ⟨hidle, heq⟩ := h
    cases heq
    exact .outside hidle

def Move.isBreakOff : Move ι L → Bool
  | breakOff _ _ => true
  | _ => false

def Move.isOutside : Move ι L → Bool
  | outside _ _ => true
  | _ => false

variable {g g' : Group ι L} {m : Move ι L}

@[simp] theorem setNode_nodes_self (g : Group ι L) (i : ι) (n : Node) :
    (g.setNode i n).nodes i = n := by
  simp [setNode]

theorem setNode_nodes_other (g : Group ι L) {i j : ι} (n : Node) (h : j ≠ i) :
    (g.setNode i n).nodes j = g.nodes j := by
  simp [setNode, h]

/-- What holds of every node holds after one of them was set. -/
theorem forall_setNode {P : ι → Node → Prop} {i : ι} {n : Node} (hi : P i n)
    (hg : ∀ j, P j (g.nodes j)) : ∀ j, P j ((g.setNode i n).nodes j) := by
  intro j
  by_cases hj : j = i
  · subst hj
    rw [setNode_nodes_self]
    exact hi
  · rw [setNode_nodes_other g n hj]
    exact hg j

/-- A move of a group keeps what the moves of a node keep. -/
theorem Makes.preserves {P : ι → Node → Prop} (h : g.Makes m g')
    (keep : ∀ i n k n', (k.isBreakOff = true → m.isBreakOff = true) → Node.Makes n k n' →
      P i n → P i n')
    (hg : ∀ i, P i (g.nodes i)) : ∀ i, P i (g'.nodes i) := by
  cases h with
  | @call i c n idle made =>
    refine forall_setNode (keep i _ _ _ ?_ made (hg i)) hg
    exact nofun
  | resume idle can => exact hg
  | @turn x r i id n s here made =>
    refine forall_setNode (made.preserves ?_ (hg i)) hg
    intro n k n' turn
    exact keep i n k n' fun h => absurd (turn.isBreakOff.symm.trans h) (by decide)
  | rest here may => exact hg
  | @breakOff i id n idle made => exact forall_setNode (keep i _ _ _ (fun _ => rfl) made (hg i)) hg
  | @discard i n idle made =>
    refine forall_setNode (keep i _ _ _ ?_ made (hg i)) hg
    exact nofun
  | outside idle => exact hg

/-- A move of a group keeps what each look at the lock service keeps. -/
theorem Makes.preserves_lock {P : L.State → Prop} (h : g.Makes m g')
    (look : ∀ s x t c, P s → P (L.look s x t c).2) (withdraw : ∀ s t, P s → P (L.withdraw s t))
    (hg : P g.lock) : P g'.lock := by
  cases h with
  | turn active made => exact made.preserves_lock look withdraw hg
  | breakOff idle made => exact withdraw _ _ hg
  | outside idle => exact look _ _ _ _ hg
  | _ => exact hg

/-- Whoever is not at work may be suspended where it is. -/
def Rests (g : Group ι L) : Prop :=
  ∀ i id a asked, (g.nodes i).course id = some (.going a asked) → g.active ≠ some (i, id) →
    a.mayRest asked = true

theorem Rests.setNode (hg : g.Rests) {i : ι} {n : Node}
    (hnodes : g'.nodes = (g.setNode i n).nodes) (hactive : g'.active = g.active)
    (hn : ∀ id a asked, g.active ≠ some (i, id) → n.course id = some (.going a asked) →
      (g.nodes i).course id = some (.going a asked) ∨ a.mayRest asked = true) : g'.Rests := by
  intro j id a asked here hne
  rw [hactive] at hne
  rw [hnodes] at here
  by_cases hj : j = i
  · subst hj
    rw [setNode_nodes_self] at here
    rcases hn id a asked hne here with here | hrest
    · exact hg j id a asked here hne
    · exact hrest
  · rw [setNode_nodes_other g n hj] at here
    exact hg j id a asked here hne

theorem Makes.rests (h : g.Makes m g') (hg : g.Rests) : g'.Rests := by
  cases h with
  | call idle made => exact hg.setNode rfl rfl fun _ _ _ _ here => made.rests nofun here
  | resume idle can =>
    intro j id a asked here _
    refine hg j id a asked here ?_
    rw [idle]
    exact nofun
  | @turn x r i id n s active made =>
    -- whoever is at work is exempt, and it is the one whose turn it is
    refine hg.setNode rfl rfl fun id' _ _ hne here => made.rests ?_ here
    rintro rfl
    exact hne active
  | @rest i id active may =>
    intro j id' a asked here _
    by_cases hself : g.active = some (j, id')
    · obtain ⟨rfl, rfl⟩ := Prod.mk.inj (Option.some.inj (active.symm.trans hself))
      rw [Group.mayRest] at may
      have here' : (g.nodes i).course id = some (.going a asked) := here
      rw [here'] at may
      exact may
    · exact hg j id' a asked here hself
  | breakOff idle made => exact hg.setNode rfl rfl fun _ _ _ _ here => made.rests nofun here
  | discard idle made => exact hg.setNode rfl rfl fun _ _ _ _ here => made.rests nofun here
  | outside idle => exact hg

end Group

end Primacy.Election
