/-
  Primacy.Proofs.Election.Standstill

  A group on a lock in memory never comes to a standstill with a standby and a free lock.  A call
  that waits for the lock has a ticket there, and there are tickets only while the lock is held; the
  holder is one of the electors, and when nobody can do anything any more it is the one that runs.
-/
import Primacy.Proofs.Election.Exclusion

namespace Primacy.Election

/-! ## Room for new calls -/

namespace Node

/-- The number that a move may give to an activity. -/
def Move.newcomer? : Move → Option CallId
  | call id _ => some id
  | step _ waiter => some waiter
  | _ => none

variable {n n' : Node}

theorem Makes.course_eq_none {m : Move} (h : n.Makes m n') {id : CallId}
    (hne : m.newcomer? ≠ some id) (hid : n.course id = none) : n'.course id = none := by
  have hself : ∀ {id' a asked}, n.course id' = some (.going a asked) → id ≠ id' := by
    rintro id' a asked here rfl
    exact nomatch hid.symm.trans here
  by_contra hsome
  obtain ⟨c, hc⟩ := Option.ne_none_iff_exists'.mp hsome
  cases h with
  | call new =>
    rcases course_setCourse hc with ⟨rfl, -⟩ | ⟨-, hc⟩
    · exact hne rfl
    · exact nomatch hid.symm.trans hc
  | step here ready new =>
    rcases course_spawn hc with ⟨-, -, rfl, -⟩ | hc
    · exact hne rfl
    · rcases course_carryOut hc with ⟨rfl, -⟩ | ⟨-, hc⟩
      · exact hself here rfl
      · exact nomatch hid.symm.trans hc
  | ask here request =>
    rcases course_setCourse hc with ⟨rfl, -⟩ | ⟨-, hc⟩
    · exact hself here rfl
    · exact nomatch hid.symm.trans hc
  | answer here request =>
    rcases course_carryOut hc with ⟨rfl, -⟩ | ⟨-, hc⟩
    · exact hself here rfl
    · exact nomatch hid.symm.trans hc
  | breakOff here may =>
    rcases course_setCourse hc with ⟨rfl, -⟩ | ⟨-, hc⟩
    · exact hself here rfl
    · exact nomatch hid.symm.trans hc
  | discard => exact nomatch hid.symm.trans hc

theorem Advances.course_eq_none {L : Lock.Service} {s s' : L.State} {id waiter : CallId}
    {x : L.Surroundings} {r : Reply} (h : n.Advances L s id waiter x r n' s') {id' : CallId}
    (hne : id' ≠ waiter) (hid : n.course id' = none) : n'.course id' = none := by
  refine h.preserves (P := fun n => n.course id' = none) (fun n₁ m n₂ turn made => ?_) hid
  refine made.course_eq_none ?_
  cases turn with
  | step => exact fun h => hne (Option.some.inj h).symm
  | ask => rintro ⟨⟩
  | answer r => rintro ⟨⟩

end Node

/-! ## Getting on -/

/-- An activity that may not be suspended has a step to take or a request to make. -/
theorem Activity.isReady_or_request {a : Activity} {asked : Bool} (e : Elector) (me : CallId)
    (hrest : a.mayRest asked = false) :
    asked = false ∧ (a.isReady e me = true ∨ (a.request? e).isSome = true) := by
  have hsplit : ∀ o : Option Request, o.isNone = true ∨ o.isSome = true := by
    intro o
    cases o with
    | none => exact .inl rfl
    | some q => exact .inr rfl
  cases a with
  | start p =>
    have h := hsplit (request? e (.start p))
    cases p with
    | arrive address blocking => exact nomatch hrest
    | queue address blocking => exact nomatch hrest
    | await => exact ⟨hrest, .inr rfl⟩
    | _ => exact ⟨hrest, h⟩
  | stop p =>
    cases p with
    | request => exact nomatch hrest
    | arrive => exact nomatch hrest
    | queue => exact nomatch hrest
    | join => exact nomatch hrest
    | unlock => exact ⟨hrest, .inr rfl⟩
    | _ => exact ⟨hrest, .inl rfl⟩
  | await p =>
    cases p with
    | readStatus => exact ⟨hrest, .inl rfl⟩
    | _ => exact nomatch hrest
  | notify p =>
    cases p with
    | register callback => exact nomatch hrest
    | _ => exact ⟨hrest, .inl rfl⟩
  | waiter p =>
    have h := hsplit (request? e (.waiter p))
    cases p with
    | await => exact nomatch hrest
    | _ => exact ⟨hrest, h⟩

namespace Node

variable {n : Node} {id : CallId} {a : Activity} {q : Request}

theorem exists_ask (here : n.course id = some (.going a false))
    (request : a.request? n.elector = some q) :
    ∃ n', n.move? (.ask id) = some n' ∧ n'.course id = some (.going a true) ∧
      n'.elector = n.elector := by
  refine ⟨{ n.setCourse id (.going a true) with requests := n.requests ++ [q] }, ?_, ?_, rfl⟩
  · simp only [move?, here, request, Option.map_some]
  · simp [setCourse]

theorem isSome_answer (here : n.course id = some (.going a true))
    (request : a.request? n.elector = some q) (r : Reply) :
    (n.move? (.answer id r)).isSome = true := by
  simp [move?, here, request]

/-- The activity at work can take a turn where it may not be suspended. -/
theorem isSome_advance? {L : Lock.Service} {s : L.State} {waiter : CallId} {x : L.Surroundings}
    {r : Reply} {asked : Bool} (here : n.course id = some (.going a asked))
    (hrest : a.mayRest asked = false) (new : n.course waiter = none) :
    (n.advance? L s id waiter x r).isSome = true := by
  obtain ⟨rfl, hon⟩ := Activity.isReady_or_request n.elector id hrest
  simp only [advance?, here]
  by_cases hready : a.isReady n.elector id = true
  · simp [move?, here, hready, new]
  · obtain ⟨q, request⟩ := Option.isSome_iff_exists.mp (hon.resolve_left hready)
    obtain ⟨n', hask, here', helector⟩ := exists_ask here request
    rw [if_neg hready, request]
    cases ht : q.target n.elector.owner with
    | inr put => simp [ht, hask]
    | inl c =>
      have hanswer := isSome_answer here' (helector ▸ request)
      cases hl : L.look s x id c with
      | mk l s' => cases l <;> simp [ht, hask, hl, hanswer]

end Node

namespace Group

variable {ι : Type} {L : Lock.Service} {electors : ι → Elector} {g g' : Group ι L}

/-- The numbers from the next one on were given to no call. -/
def Numbered (g : Group ι L) : Prop := ∀ i id, g.next ≤ id → (g.nodes i).course id = none

/-- A move of somebody who is at work already. -/
def Move.isWork : Move ι L → Bool
  | resume _ _ => true
  | turn _ _ => true
  | rest => true
  | _ => false

theorem canGoOn_of_ready {i : ι} {id : CallId} {a : Activity} {asked : Bool}
    (here : (g.nodes i).course id = some (.going a asked))
    (ready : a.isReady (g.nodes i).elector id = true) : g.canGoOn i id = true := by
  unfold canGoOn
  rw [here]
  dsimp only
  rw [ready, Bool.true_or]

/-- Whoever has a request to make goes on, and so does whoever waits for the registry. -/
theorem canGoOn_of_request {i : ι} {id : CallId} {a : Activity} {asked : Bool} {q : Request}
    (here : (g.nodes i).course id = some (.going a asked))
    (request : a.request? (g.nodes i).elector = some q)
    (hlock : ∀ c, q.target (g.nodes i).elector.owner = .inl c → asked = false) :
    g.canGoOn i id = true := by
  unfold canGoOn
  rw [here]
  dsimp only
  rw [request]
  dsimp only
  cases htarget : q.target (g.nodes i).elector.owner with
  | inl c =>
    rw [hlock c htarget]
    exact Bool.or_true _
  | inr put => exact Bool.or_true _

/-- A call that waits for a lock in memory and cannot go on has its ticket there. -/
theorem waiting_ne_nil {g : Group ι .memory} {i : ι} {id : CallId} {asked : Bool}
    (here : (g.nodes i).course id = some (.going (.waiter .await) asked))
    (hstill : g.canGoOn i id = false) : g.lock.waiting ≠ [] := by
  intro hnil
  have hwoken : Lock.Service.memory.isWoken g.lock id = true := by
    simp [Lock.Service.memory, hnil]
  simp [canGoOn, here, Activity.request?, WaiterPoint.request?, Request.target, hwoken] at hstill

variable [DecidableEq ι] {m : Move ι L}

theorem Numbered.setNode (hg : g.Numbered) {i : ι} {n : Node}
    (hnodes : g'.nodes = (g.setNode i n).nodes) (hnext : g.next ≤ g'.next)
    (hn : ∀ id, g'.next ≤ id → (g.nodes i).course id = none → n.course id = none) :
    g'.Numbered := by
  intro j id hid
  have hold : ∀ k, (g.nodes k).course id = none := fun k => hg k id (Nat.le_trans hnext hid)
  rw [hnodes]
  by_cases hj : j = i
  · subst hj
    rw [setNode_nodes_self]
    exact hn id hid (hold j)
  · rw [setNode_nodes_other g n hj]
    exact hold j

theorem Makes.numbered (h : g.Makes m g') (hg : g.Numbered) : g'.Numbered := by
  have hnext : ∀ id, g.next + 1 ≤ id → id ≠ g.next := fun _ hid => Nat.ne_of_gt hid
  cases h with
  | call idle made =>
    refine hg.setNode rfl (Nat.le_succ _) fun id hid => made.course_eq_none fun h => ?_
    exact hnext id hid (Option.some.inj h).symm
  | resume idle can => exact hg
  | turn active made =>
    exact hg.setNode rfl (Nat.le_succ _) fun id hid => made.course_eq_none (hnext id hid)
  | rest active may => exact hg
  | breakOff idle made => exact hg.setNode rfl (Nat.le_refl _) fun _ _ => made.course_eq_none nofun
  | discard idle made => exact hg.setNode rfl (Nat.le_refl _) fun _ _ => made.course_eq_none nofun
  | outside idle => exact fun i id hid => hg i id (Nat.le_trans (Nat.le_succ _) hid)

theorem Reachable.numbered {s : L.State} {allowed : Move ι L → Prop}
    (h : Reachable allowed (fresh electors s) g) : g.Numbered := by
  induction h with
  | refl => exact fun _ _ _ => rfl
  | move before may made ih => exact (makes_of_move? made).numbered ih

/-- Nobody who is at work already can do anything. -/
def IsStuck (g : Group ι L) : Prop := ∀ m : Move ι L, m.isWork = true → g.move? m = none

/-- At a standstill nobody is at work: whoever is can get on or be suspended. -/
theorem IsStuck.idle (hstuck : g.IsStuck) (hg : g.Numbered) (x : L.Surroundings) :
    g.active = none := by
  by_contra hsome
  obtain ⟨⟨i, id⟩, hactive⟩ := Option.ne_none_iff_exists'.mp hsome
  have hrest : g.mayRest i id = false := by
    have h := hstuck .rest rfl
    simpa [move?, hactive] using h
  rw [mayRest] at hrest
  split at hrest
  · next a asked here =>
    have hturn := hstuck (.turn x (.ok true)) rfl
    have hnew : (g.nodes i).course g.next = none := hg i g.next (Nat.le_refl _)
    -- whatever the lock service and the registry answer, there is a turn to take
    obtain ⟨⟨n, s⟩, hadvance⟩ := Option.isSome_iff_exists.mp
      (Node.isSome_advance? (L := L) (s := g.lock) (x := x) (r := .ok true) here hrest hnew)
    simp [move?, hactive, hadvance] at hturn
  · cases hrest

theorem IsStuck.canGoOn_eq_false (hstuck : g.IsStuck) (idle : g.active = none) (i : ι)
    (id : CallId) : g.canGoOn i id = false := by
  have h := hstuck (.resume i id) rfl
  simpa [move?, idle] using h

/-! ## The holder at a standstill -/

/-- The lock is held by nobody or by one of the electors. -/
def IsOurs (electors : ι → Elector) (g : Group ι L) : Prop :=
  ∀ owner, L.holder g.lock = some owner → ∃ i, (electors i).owner = owner

theorem Makes.isOurs (h : g.Makes m g') (hm : m.isOutside = false) (hsound : g.Sound electors)
    (hg : g.IsOurs electors) : g'.IsOurs electors := by
  cases h with
  | call idle made => exact hg
  | resume idle can => exact hg
  | @turn x r i id n s active made =>
    intro owner hholder
    -- a turn gives the lock to nobody but the elector it belongs to
    by_cases hown : owner = (g.nodes i).elector.owner
    · exact ⟨i, (hsound.owner i).symm.trans hown.symm⟩
    · exact hg owner ((made.holder_iff_of_ne hown).mp hholder)
  | rest active may => exact hg
  | breakOff idle made =>
    intro owner hholder
    exact hg owner ((L.holder_withdraw ..).symm.trans hholder)
  | discard idle made => exact hg
  | outside idle => exact nomatch hm

theorem Reachable.isOurs {s : L.State} (h : Reachable (·.isOutside = false) (fresh electors s) g)
    (hfresh : ∀ i, (electors i).IsFresh)
    (howners : Function.Injective fun i => (electors i).owner) (hfree : L.holder s = none) :
    g.IsOurs electors := by
  induction h with
  | refl =>
    intro owner hholder
    exact nomatch hfree.symm.trans hholder
  | move before may made ih =>
    have hsound : Sound electors _ := before.sound hfresh howners
      (fun i h => nomatch hfree.symm.trans h) fun _ => Move.isAloof_of_not_outside
    exact (makes_of_move? made).isOurs may hsound ih

theorem Reachable.isHeeded {s : Lock.Memory} {allowed : Move ι .memory → Prop}
    {g : Group ι .memory} (h : Reachable allowed (fresh electors (L := .memory) s) g)
    (hs : s.IsHeeded) : Lock.Memory.IsHeeded g.lock := by
  induction h with
  | refl => exact hs
  | move before may made ih =>
    exact (makes_of_move? made).preserves_lock (fun _ _ t c hm => hm.serve t c)
      (fun _ t hm => hm.withdraw t) ih

/-- When nobody can get on any more and the waiter of some elector, a standby, still waits for the
lock, exactly one elector runs, and it holds the lock. -/
theorem one_running_of_stuck {s : Lock.Memory} {g : Group ι .memory} {i : ι} {id : CallId}
    {asked : Bool} (hfresh : ∀ i, (electors i).IsFresh)
    (howners : Function.Injective fun i => (electors i).owner)
    (hfree : s.holder = none) (hunasked : s.waiting = [])
    (h : Reachable (·.isOutside = false) (fresh electors (L := .memory) s) g) (stuck : g.IsStuck)
    (waits : (g.nodes i).course id = some (.going (.waiter .await) asked)) :
    ∃ j, (g.nodes j).elector.status = .running ∧ g.lock.holder = some (electors j).owner ∧
      ∀ k, (g.nodes k).elector.status = .running → k = j := by
  have hsound : g.Sound electors := h.sound hfresh howners
    (fun i h => nomatch hfree.symm.trans h) fun _ => Move.isAloof_of_not_outside
  have idle := stuck.idle h.numbered ()
  -- a waiter that cannot go on has its ticket at the lock, and a free lock has woken them all
  have hheld : g.lock.holder ≠ none := by
    intro hnone
    have hwaiting := waiting_ne_nil waits (stuck.canGoOn_eq_false idle i id)
    exact hwaiting (h.isHeeded (fun _ => hunasked) hnone)
  obtain ⟨owner, hholder⟩ := Option.ne_none_iff_exists'.mp hheld
  obtain ⟨j, rfl⟩ := h.isOurs hfresh howners hfree owner hholder
  have hj : (g.nodes j).elector.status = .running :=
    (hsound.holder_iff_running_of_idle idle j).mp hholder
  exact ⟨j, hj, hholder, fun k hk => hsound.eq_of_running howners hk hj⟩

/-- Once one of two electors runs and the other one stands by, nobody can get on. -/
theorem standby_one_running :
    (pairAfter standbyMoves).IsStuck ∧
    ((pairAfter standbyMoves).nodes false).elector.status = .standby ∧
    ((pairAfter standbyMoves).nodes false).course 31 = some (.going (.waiter .await) true) ∧
    ∃ j, ((pairAfter standbyMoves).nodes j).elector.status = .running ∧
      (pairAfter standbyMoves).lock.holder = some (pair j).owner ∧
      ∀ k, ((pairAfter standbyMoves).nodes k).elector.status = .running → k = j := by
  have hrun : (fresh pair (L := .memory) Lock.Memory.fresh).run? standbyMoves =
      some (pairAfter standbyMoves) := rfl
  have hmoves : (standbyMoves.all fun m => !m.isOutside) = true := rfl
  have hreach : Reachable (·.isOutside = false) (fresh pair (L := .memory) Lock.Memory.fresh)
      (pairAfter standbyMoves) :=
    .run .refl (fun m hm => by simpa using List.all_eq_true.mp hmoves m hm) hrun
  have hstill : ∀ i id, (pairAfter standbyMoves).canGoOn i id = false := by
    intro i id
    -- no call was given a number from 35 on
    by_cases hid : id < 35
    · have hnamed : ∀ i, ∀ id < 35, (pairAfter standbyMoves).canGoOn i id = false := by decide
      exact hnamed i id hid
    · have hnone := hreach.numbered i id (Nat.le_of_not_lt hid)
      simp only [canGoOn, hnone]
  have hstuck : (pairAfter standbyMoves).IsStuck := by
    intro m hm
    cases m with
    | resume i id => simp [move?, hstill]
    | turn x r => rfl
    | rest => rfl
    | _ => cases hm
  have howners : ∀ b c, (pair b).owner = (pair c).owner → b = c := by decide
  have hwaits : ((pairAfter standbyMoves).nodes false).course 31 =
      some (.going (.waiter .await) true) := rfl
  exact ⟨hstuck, rfl, hwaits,
    one_running_of_stuck (fun _ => rfl) (fun _ _ => howners _ _) rfl rfl hreach hstuck hwaits⟩

end Group

end Primacy.Election
