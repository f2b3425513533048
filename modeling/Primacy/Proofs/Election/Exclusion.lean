/-
  Primacy.Proofs.Election.Exclusion

  The lock service and the electors agree: an elector's owner holds the lock exactly while the
  elector was granted it and has not given it back.  Whoever is suspended has no lock in hand, so
  whenever nobody is at work, the holder is the elector that runs.
-/
import Primacy.Proofs.Election.Group

namespace Primacy.Election

/-! ## Lock calls of an activity -/

theorem Request.granted?_target {q : Request} {owner : String} {c : Lock.Call}
    (h : q.target owner = .inl c) (l : Except LockError Bool) :
    c.granted? (some l) = if q.isGranted (l.mapError .lock) then some owner else none := by
  cases q with
  | connect address => cases h; rfl
  | tryLock =>
    cases h
    match l with
    | .ok true => rfl
    | .ok false => rfl
    | .error _ => rfl
  | lock => cases h; cases l <;> rfl
  | unlock => cases h; rfl
  | put key value => exact nomatch h

theorem Request.freed?_target {q : Request} {owner : String} {c : Lock.Call}
    (h : q.target owner = .inl c) : c.freed? = if q = .unlock then some owner else none := by
  cases q with
  | put key value => exact nomatch h
  | _ => cases h; rfl

theorem Request.owner?_target {q : Request} {owner owner' : String} {c : Lock.Call}
    (h : q.target owner = .inl c) (hne : owner' ≠ owner) : c.owner? ≠ some owner' := by
  cases q with
  | connect address => cases h; exact nofun
  | put key value => exact nomatch h
  | _ => cases h; exact fun h => hne (Option.some.inj h).symm

theorem Passage.waiting_of_granted {e e' : Elector} {answered : Bool} {s s' : Stage}
    (h : Passage e e' answered true s s') : s = .waiting := by
  cases h
  rfl

/-! ## What a node owes -/

namespace Node

/-- The lock was granted and not given back. -/
def Owes (n : Node) : Prop := n.grants ≠ n.requests.count .unlock

variable {n n' : Node} {id : CallId} {a : Activity} {asked : Bool} {q : Request}

theorem Makes.owes_iff {m : Move} (h : n.Makes m n') (hasks : ∀ id, m ≠ .ask id)
    (hanswers : ∀ id r, m ≠ .answer id r) : n'.Owes ↔ n.Owes := by
  cases h with
  | call new => exact Iff.rfl
  | @step id waiter a asked here ready new =>
    rw [Owes, spawn]
    split <;> exact Iff.rfl
  | ask here request => exact absurd rfl (hasks _)
  | answer here request => exact absurd rfl (hanswers _ _)
  | breakOff here may => exact Iff.rfl
  | discard => exact Iff.rfl

/-- An activity that is to unlock has the lock in hand, or has given it back. -/
theorem Custody.owes_of_asks (hn : n.Custody) {n₁ : Node}
    (here : n.course id = some (.going a asked)) (request : a.request? n.elector = some q)
    (asks : if asked then n₁ = n else n.Makes (.ask id) n₁) :
    n₁.Owes ↔ n.Owes ∧ q ≠ .unlock := by
  cases asked with
  | true =>
    -- it asked before, and what it asked for is in the books already
    obtain rfl : n₁ = n := asks
    refine (and_iff_left_of_imp fun howes hq => ?_).symm
    have hin := (Activity.request?_eq_unlock_iff request).mp hq
    have hmade : 0 < n₁.requests.count .unlock := List.count_pos_iff.mpr (hn.settled id a here hin)
    have hle : n₁.requests.count .unlock ≤ n₁.grants := hn.balanced.bounded.1
    have hone : n₁.grants ≤ 1 := hn.balanced.bounded.2
    exact howes (by omega)
  | false =>
    have hmakes : n.Makes (.ask id) n₁ := asks
    cases hmakes with
    | @ask _ b q' here' request' =>
      obtain ⟨rfl, -⟩ := Course.going.inj (Option.some.inj (here.symm.trans here'))
      obtain rfl := Option.some.inj (request.symm.trans request')
      show n.grants ≠ (n.requests ++ [q]).count .unlock ↔ _
      rw [count_unlock_append]
      by_cases hq : q = .unlock
      · have hin := (Activity.request?_eq_unlock_iff request).mp hq
        have hholds : n.ledger.Holds (some id) :=
          ⟨(stage_of_going here).symm ▸ hin, asked_of_going here⟩
        have hgrants : n.grants = 1 := (hn.balanced.owed _ hholds).1
        have hunlocks : n.requests.count .unlock = 0 := (hn.balanced.owed _ hholds).2
        simp [hq, hgrants, hunlocks]
      · simp [hq, Owes]

theorem asked_of_asks {n₁ : Node} (here : n.course id = some (.going a asked))
    (asks : if asked then n₁ = n else n.Makes (.ask id) n₁) :
    n₁.course id = some (.going a true) ∧ n₁.elector = n.elector := by
  cases asked with
  | true =>
    obtain rfl : n₁ = n := asks
    exact ⟨here, rfl⟩
  | false =>
    have hmakes : n.Makes (.ask id) n₁ := asks
    cases hmakes with
    | @ask _ b q here' request =>
      obtain ⟨rfl, -⟩ := Course.going.inj (Option.some.inj (here.symm.trans here'))
      exact ⟨by simp [setCourse], rfl⟩

/-- Only a grant makes a node owe the lock. -/
theorem Custody.owes_of_answer (hn : n.Custody) {r : Reply}
    (here : n.course id = some (.going a true)) (request : a.request? n.elector = some q)
    (made : n.Makes (.answer id r) n') : n'.Owes ↔ n.Owes ∨ q.isGranted r = true := by
  cases made with
  | @answer _ _ b q' here' request' =>
    obtain ⟨rfl, -⟩ := Course.going.inj (Option.some.inj (here.symm.trans here'))
    obtain rfl := Option.some.inj (request.symm.trans request')
    show n.grants + (if q.isGranted r then 1 else 0) ≠ n.requests.count .unlock ↔ _
    cases hg : q.isGranted r with
    | false => simp [Owes]
    | true =>
      have hp := Activity.reply_passage (r := r) request
      rw [hg] at hp
      have hstage : n.ledger.stage id = .waiting :=
        (stage_of_going here).trans hp.waiting_of_granted
      have hgrants : n.grants = 0 := hn.balanced.waiting id hstage
      have hle : n.requests.count .unlock ≤ n.grants := hn.balanced.bounded.1
      have hne : n.grants + 1 ≠ n.requests.count .unlock := by omega
      exact iff_of_true hne (.inr rfl)

/-- A turn keeps the lock service and the node in agreement. -/
theorem Advances.holder_iff {L : Lock.Service} {s s' : L.State} {waiter : CallId}
    {x : L.Surroundings} {r : Reply} (h : n.Advances L s id waiter x r n' s') (hn : n.Custody)
    (hs : L.holder s = some n.elector.owner ↔ n.Owes) :
    L.holder s' = some n.elector.owner ↔ n'.Owes := by
  -- a look that does not grant the lock leaves it to the owner unless he unlocks
  have hkept : ∀ {c : Lock.Call} {q : Request} {o : Option (Except LockError Bool)},
      q.target n.elector.owner = .inl c → c.granted? o = none →
      L.look s x id c = (o, s') →
      (L.holder s' = some n.elector.owner ↔ n.Owes ∧ q ≠ .unlock) := by
    intro c q o target hnone look
    have hholder := L.holder_look s x id c
    rw [look] at hholder
    rw [hholder, Lock.Call.holderAfter_eq_some_iff hnone, hs, Request.freed?_target target]
    by_cases hq : q = .unlock <;> simp [hq]
  cases h with
  | step here made =>
    rw [L.holder_withdraw, hs]
    exact (made.owes_iff nofun nofun).symm
  | @put a asked key value _ here request made =>
    rw [hs]
    cases asked with
    | true =>
      rw [hn.owes_of_answer here request made]
      exact (or_iff_left nofun).symm
    | false =>
      have asks : if false then n' = n else n.Makes (.ask id) n' := made
      rw [hn.owes_of_asks here request asks]
      exact (and_iff_left nofun).symm
  | @wait a asked q c _ _ here request target asks look =>
    rw [hn.owes_of_asks here request asks]
    refine hkept target ?_ look
    cases c <;> rfl
  | @answer a asked q c n₁ _ l _ here request target asks look made =>
    obtain ⟨here₁, helector⟩ := asked_of_asks here asks
    have hn₁ : n₁.Custody := by
      cases asked with
      | true => exact asks ▸ hn
      | false => exact hn.makes asks
    rw [hn₁.owes_of_answer here₁ (helector ▸ request) made, hn.owes_of_asks here request asks]
    have hgranted := Request.granted?_target target l
    cases hg : q.isGranted (l.mapError .lock) with
    | false =>
      rw [hg] at hgranted
      rw [hkept target hgranted look]
      simp
    | true =>
      rw [hg] at hgranted
      have hholder := L.holder_look s x id c
      rw [look, Lock.Call.holderAfter_of_granted hgranted] at hholder
      rw [hholder]
      simp

/-- A turn in one owner's name neither gives the lock to another nor takes it from him. -/
theorem Advances.holder_iff_of_ne {L : Lock.Service} {s s' : L.State} {waiter : CallId}
    {x : L.Surroundings} {r : Reply} (h : n.Advances L s id waiter x r n' s') {owner : String}
    (hne : owner ≠ n.elector.owner) : L.holder s' = some owner ↔ L.holder s = some owner := by
  have hlook : ∀ {c : Lock.Call} {q : Request} {o : Option (Except LockError Bool)},
      q.target n.elector.owner = .inl c → L.look s x id c = (o, s') →
      (L.holder s' = some owner ↔ L.holder s = some owner) := by
    intro c q o target look
    have h := L.holder_look_of_ne s x id c (Request.owner?_target target hne)
    rwa [look] at h
  cases h with
  | step here made => rw [L.holder_withdraw]
  | put here request made => exact Iff.rfl
  | wait here request target asks look => exact hlook target look
  | answer here request target asks look made => exact hlook target look

end Node

/-! ## Agreement -/

/-- Whoever is suspended with the lock in hand has asked for it to be unlocked. -/
theorem Activity.asked_of_mayRest {a : Activity} {asked : Bool} (hrest : a.mayRest asked = true)
    (hin : a.stage.inHand = true) : asked = true := by
  cases a with
  | start p => cases p <;> first | exact hrest | exact nomatch hin
  | stop p => cases p <;> first | exact hrest | exact nomatch hin
  | waiter p => cases p <;> first | exact hrest | exact nomatch hin
  | await p => exact nomatch hin
  | notify p => exact nomatch hin

/-- A node that runs owes the lock. -/
theorem Node.Custody.owes_of_running {n : Node} (hn : n.Custody)
    (hrunning : n.elector.status = .running) : n.Owes := by
  have hholds : n.ledger.Holds none := hrunning
  have hgrants : n.grants = 1 := (hn.balanced.owed _ hholds).1
  have hunlocks : n.requests.count .unlock = 0 := (hn.balanced.owed _ hholds).2
  rw [Node.Owes, hgrants, hunlocks]
  decide

/-- While nobody around it has the lock in hand, a node owes the lock exactly if it runs. -/
theorem Node.Custody.owes_iff_running {n : Node} (hn : n.Custody)
    (hfree : ∀ id a, n.course id = some (.going a false) → a.stage.inHand = false) :
    n.Owes ↔ n.elector.status = .running := by
  refine ⟨fun howes => ?_, hn.owes_of_running⟩
  obtain ⟨hand, hholds⟩ := hn.balanced.covered howes
  cases hand with
  | none => exact hholds
  | some id =>
    -- the hand would be an activity that has the lock and has not asked to unlock it
    obtain ⟨hin, hasked⟩ := hholds
    have hbusy : n.ledger.stage id ≠ .idle := by
      intro hidle
      rw [hidle] at hin
      exact nomatch hin
    obtain ⟨a, asked, here⟩ := going_of_stage hbusy
    rw [stage_of_going here] at hin
    rw [asked_of_going here] at hasked
    subst hasked
    exact nomatch (hfree id a here).symm.trans hin

/-- Nothing has happened to the elector yet. -/
def Elector.IsFresh (e : Elector) : Prop := e = .fresh e.identity e.owner e.port e.nodeDir

theorem Elector.IsFresh.status_ne_running {e : Elector} (h : e.IsFresh) : e.status ≠ .running := by
  rw [h]
  exact nofun

namespace Group

variable {ι : Type} {L : Lock.Service} {electors : ι → Elector} {g g' : Group ι L} {m : Move ι L}

/-- Whoever else calls the lock service does so in a name of his own. -/
def Move.IsAloof (electors : ι → Elector) : Move ι L → Prop
  | outside _ c => ∀ i, c.owner? ≠ some (electors i).owner
  | _ => True

theorem Move.isAloof_of_not_outside (h : m.isOutside = false) : m.IsAloof electors := by
  cases m with
  | outside x c => exact nomatch h
  | _ => trivial

structure Sound (electors : ι → Elector) (g : Group ι L) : Prop where
  custody : ∀ i, (g.nodes i).Custody
  owner : ∀ i, (g.nodes i).elector.owner = (electors i).owner
  rests : g.Rests
  holder : ∀ i, L.holder g.lock = some (electors i).owner ↔ (g.nodes i).Owes

theorem sound_fresh {s : L.State} (hfresh : ∀ i, (electors i).IsFresh)
    (hfree : ∀ i, L.holder s ≠ some (electors i).owner) : (fresh electors s).Sound electors where
  custody i := Node.custody_fresh (hfresh i).status_ne_running
  owner _ := rfl
  rests _ _ _ _ h := nomatch h
  holder i := iff_of_false (hfree i) fun h => h rfl

/-- Whoever is not at work has no lock in hand. -/
theorem Sound.not_inHand (hg : g.Sound electors) {i : ι} {id : CallId} {a : Activity}
    (here : (g.nodes i).course id = some (.going a false)) (hne : g.active ≠ some (i, id)) :
    a.stage.inHand = false := by
  have hrest := hg.rests i id a false here hne
  by_contra hin
  rw [Bool.not_eq_false] at hin
  exact nomatch Activity.asked_of_mayRest hrest hin

/-- An elector that runs holds the lock, whoever is at work. -/
theorem Sound.holder_of_running (hg : g.Sound electors) {i : ι}
    (h : (g.nodes i).elector.status = .running) : L.holder g.lock = some (electors i).owner :=
  (hg.holder i).mpr ((hg.custody i).owes_of_running h)

theorem Sound.holder_iff_running_of_idle (hg : g.Sound electors) (idle : g.active = none) (i : ι) :
    L.holder g.lock = some (electors i).owner ↔ (g.nodes i).elector.status = .running := by
  rw [hg.holder i]
  refine (hg.custody i).owes_iff_running fun id a here => hg.not_inHand here ?_
  rw [idle]
  exact nofun

/-- At most one elector runs, whoever is at work. -/
theorem Sound.eq_of_running (hg : g.Sound electors)
    (howners : Function.Injective fun i => (electors i).owner) {i j : ι}
    (hi : (g.nodes i).elector.status = .running) (hj : (g.nodes j).elector.status = .running) :
    i = j :=
  howners (Option.some.inj ((hg.holder_of_running hi).symm.trans (hg.holder_of_running hj)))

variable [DecidableEq ι]

/-- The lock service agrees with a node whose moves leave both as they are. -/
theorem Sound.holder_setNode (hg : g.Sound electors) {i : ι} {n : Node} {s : L.State}
    (hlock : L.holder s = L.holder g.lock) (hn : n.Owes ↔ (g.nodes i).Owes) :
    ∀ j, L.holder s = some (electors j).owner ↔ ((g.setNode i n).nodes j).Owes := by
  rw [hlock]
  exact forall_setNode (P := fun j n => L.holder g.lock = some (electors j).owner ↔ n.Owes)
    ((hg.holder i).trans hn.symm) hg.holder

/-- Every move keeps the agreement. -/
theorem Sound.makes (hg : g.Sound electors)
    (howners : Function.Injective fun i => (electors i).owner) (hm : m.IsAloof electors)
    (h : g.Makes m g') : g'.Sound electors where
  custody := h.preserves (fun _ _ _ _ _ made hn => hn.makes made) hg.custody
  owner := h.preserves (P := fun i n => n.elector.owner = (electors i).owner)
    (fun _ _ _ _ _ made hn => made.owner.trans hn) hg.owner
  rests := h.rests hg.rests
  holder := by
    cases h with
    | call idle made => exact hg.holder_setNode rfl (made.owes_iff nofun nofun)
    | resume idle can => exact hg.holder
    | @turn x r i id n s active made =>
      -- the node whose turn it is agrees by its books, every other by having another owner
      intro j
      have howner := hg.owner i
      by_cases hj : j = i
      · subst hj
        show L.holder s = _ ↔ ((g.setNode j n).nodes j).Owes
        rw [setNode_nodes_self, ← howner]
        exact made.holder_iff (hg.custody j) (howner ▸ hg.holder j)
      · show L.holder s = _ ↔ ((g.setNode i n).nodes j).Owes
        rw [setNode_nodes_other g n hj, ← hg.holder j]
        refine made.holder_iff_of_ne ?_
        rw [howner]
        exact fun h => hj (howners h)
    | rest active may => exact hg.holder
    | breakOff idle made =>
      exact hg.holder_setNode (L.holder_withdraw ..) (made.owes_iff nofun nofun)
    | discard idle made => exact hg.holder_setNode rfl (made.owes_iff nofun nofun)
    | @outside x c idle =>
      intro i
      exact (L.holder_look_of_ne g.lock x g.next c (hm i)).trans (hg.holder i)

theorem Reachable.sound {s : L.State} {allowed : Move ι L → Prop}
    (h : Reachable allowed (fresh electors s) g) (hfresh : ∀ i, (electors i).IsFresh)
    (howners : Function.Injective fun i => (electors i).owner)
    (hfree : ∀ i, L.holder s ≠ some (electors i).owner)
    (haloof : ∀ m, allowed m → m.IsAloof electors) : g.Sound electors := by
  induction h with
  | refl => exact sound_fresh hfresh hfree
  | move before may made ih => exact ih.makes howners (haloof _ may) (makes_of_move? made)

/-- Whenever nobody is at work, the elector that runs is the one whose owner holds the lock; and at
most one elector runs at any time. -/
theorem holder_iff_running {m : Lock.Memory} {g : Group ι .memory}
    (hfresh : ∀ i, (electors i).IsFresh)
    (howners : Function.Injective fun i => (electors i).owner)
    (hfree : ∀ i, m.holder ≠ some (electors i).owner)
    (h : Reachable (·.IsAloof electors) (fresh electors (L := .memory) m) g) :
    (g.active = none → ∀ i, g.lock.holder = some (electors i).owner ↔
      (g.nodes i).elector.status = .running) ∧
    ∀ i j, (g.nodes i).elector.status = .running → (g.nodes j).elector.status = .running →
      i = j := by
  have hsound := h.sound hfresh howners hfree fun _ hm => hm
  exact ⟨fun idle i => hsound.holder_iff_running_of_idle idle i,
    fun _ _ hi hj => hsound.eq_of_running howners hi hj⟩

/-! ## A handover -/

/-- Two electors. -/
def pair (b : Bool) : Elector :=
  .fresh ⟨"host", 7, "lead", cond b "a" "b"⟩ (cond b "a#1" "b#1") (cond b 4000 4001)
    none

/-- So many turns of the activity at work, with a registry that takes every entry. -/
def turns (k : Nat) : List (Move Bool .memory) := List.replicate k (.turn () (.ok true))

/-- One elector starts and runs, the other one starts and stands by. -/
def standbyMoves : List (Move Bool .memory) :=
  [.call true (.start "memory" false), .resume true 0] ++ turns 19 ++
  [.rest, .call false (.start "memory" false), .resume false 20] ++ turns 13 ++
  [.rest, .resume false 31] ++ turns 1 ++ [.rest]

/-- Then the first one is stopped, and the waiter of the other one is woken. -/
def handoverMoves : List (Move Bool .memory) :=
  standbyMoves ++ [.call true .stop, .resume true 35] ++ turns 7 ++ [.rest, .resume false 31] ++
  turns 10 ++ [.rest]

/-- The two electors after moves on a fresh lock in memory. -/
def pairAfter (ms : List (Move Bool .memory)) : Group Bool .memory :=
  ((fresh pair (L := .memory) Lock.Memory.fresh).run? ms).getD
    (fresh pair (L := .memory) Lock.Memory.fresh)

theorem handover_holder_iff_running :
    (pairAfter handoverMoves).active = none ∧
    (∀ b, (pairAfter handoverMoves).lock.holder = some (pair b).owner ↔
      ((pairAfter handoverMoves).nodes b).elector.status = .running) ∧
    (pairAfter handoverMoves).lock.holder = some (pair false).owner := by
  have hfresh : ∀ b, (pair b).IsFresh := fun _ => rfl
  have howners : ∀ b c, (pair b).owner = (pair c).owner → b = c := by decide
  have hrun : (fresh pair (L := .memory) Lock.Memory.fresh).run? handoverMoves =
      some (pairAfter handoverMoves) := rfl
  have hmoves : (handoverMoves.all fun m => !m.isOutside) = true := rfl
  have haloof : ∀ m ∈ handoverMoves, m.IsAloof pair := fun m hm =>
    Move.isAloof_of_not_outside (by simpa using List.all_eq_true.mp hmoves m hm)
  have hfree : ∀ b, Lock.Memory.fresh.holder ≠ some (pair b).owner := by decide
  have h := holder_iff_running hfresh (fun _ _ => howners _ _) hfree (.run .refl haloof hrun)
  exact ⟨rfl, h.1 rfl, rfl⟩

end Group

end Primacy.Election
