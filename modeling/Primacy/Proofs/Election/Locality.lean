/-
  Primacy.Proofs.Election.Locality

  What a stop of one elector does to a group on one lock in memory, where the holder may be evicted
  at any time.  It touches no other elector, and of the lock no more than what its own elector
  holds.  An elector that was evicted while it ran is stopped all the same, and one stop of it is
  told; once a stop has ended, all others end well and change nothing.
-/
import Primacy.Proofs.Election.StopTurn

namespace Primacy.Election

/-! ## Groups on a lock in memory -/

namespace Group

variable {ι : Type}

/-- Nobody else calls the lock service but to evict the holder, that is to unlock in his name. -/
def Move.MayEvict : Move ι .memory → Prop
  | outside _ c => ∃ owner, c = .unlock owner
  | _ => True

/-- The move is one of the stop `id` of the elector `i`. -/
inductive OfStop {L : Lock.Service} (g : Group ι L) (i : ι) : CallId → Move ι L → Prop where
  | call : g.OfStop i g.next (.call i .stop)
  | resume {id : CallId} {p : StopPoint} {asked : Bool}
      (here : (g.nodes i).course id = some (.going (.stop p) asked)) : g.OfStop i id (.resume i id)
  | turn {id : CallId} {p : StopPoint} {asked : Bool} {x : L.Surroundings} {r : Reply}
      (active : g.active = some (i, id))
      (here : (g.nodes i).course id = some (.going (.stop p) asked)) : g.OfStop i id (.turn x r)
  | rest {id : CallId} {c : Course} (active : g.active = some (i, id))
      (here : (g.nodes i).course id = some c) (stop : c.isStop = true) : g.OfStop i id .rest

/-- What holds of a group on a lock in memory throughout a run. -/
structure Tidy (electors : ι → Elector) (g : Group ι .memory) : Prop where
  reachable : ∀ i, Node.Reachable (electors i) (g.nodes i)
  patient : ∀ i, (g.nodes i).Patient
  numbered : g.Numbered
  /-- No name is given twice. -/
  apart : ∀ i j id, (g.nodes i).course id ≠ none → (g.nodes j).course id ≠ none → i = j
  /-- No stop has a ticket at the lock. -/
  tickets : ∀ t ∈ g.lock.waiting, ∃ i, (g.nodes i).NamesOther t

variable {electors : ι → Elector} {g g' : Group ι .memory} {m : Move ι .memory} {i : ι}
  {id : CallId}

theorem tidy_fresh {s : Lock.Memory} (hs : s.waiting = []) :
    (fresh electors (L := .memory) s).Tidy electors where
  reachable _ := .fresh
  patient _ _ _ here := nomatch here
  numbered _ _ _ := rfl
  apart _ _ _ h := absurd rfl h
  tickets t ht := by
    have hmem : t ∈ s.waiting := ht
    rw [hs] at hmem
    exact nomatch hmem

theorem Tidy.owner (hg : g.Tidy electors) (i : ι) :
    (g.nodes i).elector.owner = (electors i).owner :=
  (hg.reachable i).owner

/-- The elector has been nothing but fresh before. -/
theorem Tidy.reachable_fresh (hg : g.Tidy electors) (hfresh : (electors i).IsFresh) :
    Node.Reachable (.fresh (electors i).identity (g.nodes i).elector.owner (electors i).port
      (electors i).nodeDir) (g.nodes i) := by
  have h := hg.reachable i
  rw [hfresh] at h
  rw [hg.owner i]
  exact h

/-- The elector ran when it was evicted, and does not hold the lock. -/
structure IsOusted (electors : ι → Elector) (g : Group ι .memory) (i : ι) : Prop where
  holder : g.lock.holder ≠ some (electors i).owner
  granted : (g.nodes i).grants ≠ 0
  node : (g.nodes i).Ousted

theorem Tidy.isOusted (hg : g.Tidy electors) (hfresh : (electors i).IsFresh)
    (hrunning : (g.nodes i).elector.status = .running)
    (hlost : g.lock.holder ≠ some (electors i).owner) : g.IsOusted electors i where
  holder := hlost
  granted := by
    have hholds : (g.nodes i).ledger.Holds none := hrunning
    have hone : (g.nodes i).grants = 1 :=
      (((hg.reachable i).custody hfresh.status_ne_running).balanced.owed _ hholds).1
    rw [hone]
    exact Nat.one_ne_zero
  node := ((hg.reachable i).halted hfresh.status_ne_running).ousted hrunning

/-- No stop has a ticket to give up. -/
theorem Tidy.withdraw (hg : g.Tidy electors) {p : StopPoint} {asked : Bool}
    (here : (g.nodes i).course id = some (.going (.stop p) asked)) :
    Lock.Memory.withdraw g.lock id = g.lock := by
  refine Lock.Memory.withdraw_of_not_mem fun hmem => ?_
  obtain ⟨j, c, hc, hstop⟩ := hg.tickets id hmem
  obtain rfl := hg.apart i j id (by rw [here]; exact nofun) (by rw [hc]; exact nofun)
  cases here.symm.trans hc
  exact nomatch hstop

/-- Nor has a call that is not made yet. -/
theorem Tidy.withdraw_next (hg : g.Tidy electors) :
    Lock.Memory.withdraw g.lock g.next = g.lock := by
  refine Lock.Memory.withdraw_of_not_mem fun hmem => ?_
  obtain ⟨j, c, hc, -⟩ := hg.tickets g.next hmem
  exact nomatch hc.symm.trans (hg.numbered j g.next (Nat.le_refl _))

variable [DecidableEq ι] {L : Lock.Service}

/-- A move is about one node, and gives away no name but the next one. -/
theorem Makes.exists_setNode {g g' : Group ι L} {m : Move ι L} (h : g.Makes m g') :
    g'.nodes = g.nodes ∨ ∃ k n, g'.nodes = (g.setNode k n).nodes ∧
      ∀ id, id ≠ g.next → (g.nodes k).course id = none → n.course id = none := by
  cases h with
  | @call i c n idle made =>
    refine .inr ⟨i, n, rfl, fun id hid => made.course_eq_none ?_⟩
    exact fun h => hid (Option.some.inj h).symm
  | resume idle can => exact .inl rfl
  | @turn x r i id n s active made => exact .inr ⟨i, n, rfl, fun id hid => made.course_eq_none hid⟩
  | rest active may => exact .inl rfl
  | @breakOff i id n idle made => exact .inr ⟨i, n, rfl, fun _ _ => made.course_eq_none nofun⟩
  | @discard i n idle made => exact .inr ⟨i, n, rfl, fun _ _ => made.course_eq_none nofun⟩
  | outside idle => exact .inl rfl

theorem Makes.apart (h : g.Makes m g') (hnumbered : g.Numbered)
    (hg : ∀ i j id, (g.nodes i).course id ≠ none → (g.nodes j).course id ≠ none → i = j) :
    ∀ i j id, (g'.nodes i).course id ≠ none → (g'.nodes j).course id ≠ none → i = j := by
  rcases h.exists_setNode with heq | ⟨k, n, heq, hnew⟩
  · rw [heq]
    exact hg
  · rw [heq]
    -- the next name goes to the node that the move is about, all others are as they were
    have hold : ∀ i id, ((g.setNode k n).nodes i).course id ≠ none →
        (g.nodes i).course id ≠ none ∨ i = k ∧ id = g.next := by
      intro i id hi
      by_cases hik : i = k
      · subst hik
        rw [setNode_nodes_self] at hi
        by_cases hid : id = g.next
        · exact .inr ⟨rfl, hid⟩
        · exact .inl fun hnone => hi (hnew id hid hnone)
      · rw [setNode_nodes_other g n hik] at hi
        exact .inl hi
    have hfree : ∀ i, (g.nodes i).course g.next = none := fun i => hnumbered i _ (Nat.le_refl _)
    intro i j id hi hj
    rcases hold i id hi with hi' | ⟨rfl, rfl⟩
    · rcases hold j id hj with hj' | ⟨rfl, rfl⟩
      · exact hg i j id hi' hj'
      · exact absurd (hfree i) hi'
    · rcases hold j g.next hj with hj' | ⟨rfl, -⟩
      · exact absurd (hfree j) hj'
      · rfl

theorem Makes.tickets (h : g.Makes m g') (may : m.MayEvict)
    (hg : ∀ t ∈ g.lock.waiting, ∃ i, (g.nodes i).NamesOther t) :
    ∀ t ∈ g'.lock.waiting, ∃ i, (g'.nodes i).NamesOther t := by
  intro t ht
  -- a ticket is new only if a turn has just put it there
  have hbefore : t ∈ g.lock.waiting ∨ ∃ i, (g.nodes i).NamesOther t := by
    cases h with
    | turn active made => exact (made.of_mem_waiting ht).imp_right fun hn => ⟨_, hn⟩
    | breakOff idle made => exact .inl (List.mem_filter.mp ht).1
    | @outside x c idle =>
      obtain ⟨owner, rfl⟩ := may
      refine .inl ((Lock.Memory.mem_waiting_of_serve ht).resolve_right ?_)
      rintro ⟨-, _, hcall⟩
      exact nomatch hcall
    | _ => exact .inl ht
  obtain ⟨i, hi⟩ : ∃ i, (g.nodes i).NamesOther t := hbefore.elim (hg t) fun h => h
  refine ⟨i, h.preserves (P := fun j n => j = i → n.NamesOther t)
    (fun j _ _ _ _ made hn hj => (hn hj).makes made) ?_ i rfl⟩
  rintro j rfl
  exact hi

theorem Tidy.makes (hg : g.Tidy electors) (h : g.Makes m g') (may : m.MayEvict) :
    g'.Tidy electors where
  reachable := h.preserves (P := fun i n => Node.Reachable (electors i) n)
    (fun _ _ _ _ _ made hn => hn.makes made) hg.reachable
  patient := by
    cases h with
    | @call i c n idle made =>
      exact forall_setNode (P := fun _ n => n.Patient) ((hg.patient i).makes made nofun) hg.patient
    | resume idle can => exact hg.patient
    | @turn x r i id n s active made =>
      exact forall_setNode (P := fun _ n => n.Patient) (made.patient (hg.patient i)) hg.patient
    | rest active may => exact hg.patient
    | @breakOff i id n idle made =>
      exact forall_setNode (P := fun _ n => n.Patient) ((hg.patient i).makes made nofun) hg.patient
    | @discard i n idle made =>
      exact forall_setNode (P := fun _ n => n.Patient) ((hg.patient i).makes made nofun) hg.patient
    | outside idle => exact hg.patient
  numbered := h.numbered hg.numbered
  apart := h.apart hg.numbered hg.apart
  tickets := h.tickets may hg.tickets

theorem Reachable.tidy {s : Lock.Memory} (hs : s.waiting = [])
    (h : Reachable Move.MayEvict (fresh electors (L := .memory) s) g) : g.Tidy electors := by
  induction h with
  | refl => exact tidy_fresh hs
  | move before may made ih => exact ih.makes (makes_of_move? made) may

/-! ## The steps of a stop -/

/-- A move of a stop touches no other node. -/
theorem OfStop.nodes_eq {g g' : Group ι L} {m : Move ι L} (hm : g.OfStop i id m)
    (h : g.Makes m g') {j : ι} (hj : j ≠ i) : g'.nodes j = g.nodes j := by
  cases hm with
  | call =>
    cases h with
    | call idle made => exact setNode_nodes_other g _ hj
  | resume here =>
    cases h with
    | resume idle can => rfl
  | turn active here =>
    cases h with
    | turn active' made =>
      cases active.symm.trans active'
      exact setNode_nodes_other g _ hj
  | rest active here stop =>
    cases h with
    | rest active' may => rfl

/-- A move of a stop leaves the lock to its holder, unless it is the elector's own owner; then it
may free the lock. -/
theorem OfStop.holder {g g' : Group ι L} {m : Move ι L} (hm : g.OfStop i id m)
    (h : g.Makes m g') :
    L.holder g'.lock = L.holder g.lock ∨
      L.holder g.lock = some (g.nodes i).elector.owner ∧ L.holder g'.lock = none := by
  cases hm with
  | call =>
    cases h with
    | call idle made => exact .inl rfl
  | resume here =>
    cases h with
    | resume idle can => exact .inl rfl
  | turn active here =>
    cases h with
    | turn active' made =>
      cases active.symm.trans active'
      exact made.holder_of_stop here
  | rest active here stop =>
    cases h with
    | rest active' may => exact .inl rfl

/-! ## Eviction -/

/-- Only a move of the elector itself, or one that has to do with the lock, is of interest. -/
theorem IsOusted.setNode (hi : g.IsOusted electors i) {k : ι} {n : Node}
    (hnodes : g'.nodes = (g.setNode k n).nodes) (holder : g'.lock.holder ≠ some (electors i).owner)
    (hn : k = i → n.grants ≠ 0 ∧ n.Ousted) : g'.IsOusted electors i := by
  have hnode : (g'.nodes i).grants ≠ 0 ∧ (g'.nodes i).Ousted := by
    rw [hnodes]
    refine forall_setNode (P := fun j n => j = i → n.grants ≠ 0 ∧ n.Ousted) hn ?_ i rfl
    rintro j rfl
    exact ⟨hi.granted, hi.node⟩
  exact ⟨holder, hnode.1, hnode.2⟩

theorem IsOusted.makes (hi : g.IsOusted electors i) (hg : g.Tidy electors)
    (hfresh : (electors i).IsFresh) (howners : Function.Injective fun i => (electors i).owner)
    (h : g.Makes m g') (may : m.MayEvict) : g'.IsOusted electors i := by
  have howner := hg.owner i
  have hcustody := (hg.reachable i).custody hfresh.status_ne_running
  have hgrants : ∀ {n n' : Node} {k : Node.Move}, n.Makes k n' → n.grants ≠ 0 → n'.grants ≠ 0 :=
    fun made hn => Nat.ne_of_gt (Nat.lt_of_lt_of_le (Nat.pos_of_ne_zero hn) made.grants_le)
  cases h with
  | @call k c n idle made =>
    refine hi.setNode rfl hi.holder ?_
    rintro rfl
    exact ⟨hgrants made hi.granted, hi.node.makes made nofun fun _ _ _ hm => nomatch hm⟩
  | resume idle can => exact ⟨hi.holder, hi.granted, hi.node⟩
  | @turn x r k id n s active made =>
    have hlost : Lock.Memory.holder s ≠ some (electors i).owner := by
      -- it is not granted the lock again, and nobody else is granted it in its name
      by_cases hk : k = i
      · subst hk
        rw [← howner]
        exact made.not_holder hcustody hi.granted (howner ▸ hi.holder)
      · have hne : (electors i).owner ≠ (g.nodes k).elector.owner := by
          rw [hg.owner k]
          exact fun heq => hk (howners heq).symm
        exact fun hheld => hi.holder ((made.holder_iff_of_ne hne).mp hheld)
    refine hi.setNode rfl hlost ?_
    rintro rfl
    exact ⟨made.preserves (P := fun n => n.grants ≠ 0) (fun _ _ _ _ hmakes => hgrants hmakes)
      hi.granted, hi.node.advances made (howner ▸ hi.holder)⟩
  | rest active may => exact ⟨hi.holder, hi.granted, hi.node⟩
  | @breakOff k id n idle made =>
    refine hi.setNode (k := k) (n := n) rfl hi.holder ?_
    rintro rfl
    refine ⟨hgrants made hi.granted,
      hi.node.makes made (fun id' p hm there => ?_) fun _ _ _ hm => nomatch hm⟩
    -- no stop is suspended with a request
    exact (hg.patient k id' _ there).elim nofun nofun
  | @discard k n idle made =>
    refine hi.setNode rfl hi.holder ?_
    rintro rfl
    exact ⟨hgrants made hi.granted, hi.node.makes made nofun fun _ _ _ hm => nomatch hm⟩
  | @outside x c idle =>
    -- an eviction makes nobody the holder
    refine ⟨fun hheld => ?_, hi.granted, hi.node⟩
    obtain ⟨owner, rfl⟩ := may
    have hholder := Lock.Memory.holder_serve g.lock g.next (.unlock owner)
    have hafter := hholder.symm.trans hheld
    exact hi.holder ((Lock.Call.holderAfter_eq_some_iff rfl).mp hafter).1

/-! ## Stops that come too late -/

/-- Once a stop of an elector has ended, the moves of another change nothing but the turnstile. -/
theorem OfStop.around (hm : g.OfStop i id m) (h : g.Makes m g') (hg : g.Tidy electors)
    (hfresh : (electors i).IsFresh) {id₀ : CallId} {r₀ : StopResult}
    (ended : (g.nodes i).course id₀ = some (.ended (.stopped r₀))) :
    (g.nodes i).Around id (g'.nodes i) ∧ g'.lock = g.lock := by
  have hreach := hg.reachable_fresh hfresh
  cases hm with
  | call =>
    cases h with
    | @call _ _ n idle made =>
      show (g.nodes i).Around g.next ((g.setNode i n).nodes i) ∧ g.lock = g.lock
      rw [setNode_nodes_self]
      cases made with
      | call new => exact ⟨⟨rfl, rfl, rfl, fun id' hne => Function.update_of_ne hne ..⟩, rfl⟩
  | resume here =>
    cases h with
    | resume idle can => exact ⟨.refl _ _, rfl⟩
  | turn active here =>
    cases h with
    | @turn x r _ _ n s active' made =>
      cases active.symm.trans active'
      show (g.nodes i).Around id ((g.setNode i n).nodes i) ∧ s = g.lock
      rw [setNode_nodes_self]
      obtain ⟨haround, hlock⟩ := made.around here (hreach.isCalm ended here) (hreach.isShut ended)
      exact ⟨haround, hlock.trans (hg.withdraw here)⟩
  | rest active here stop =>
    cases h with
    | rest active' may => exact ⟨.refl _ _, rfl⟩

theorem Reachable.endsWell {g g' : Group ι L} {allowed : Move ι L → Prop}
    (h : Reachable allowed g g') {e : Elector} (he : e.IsFresh) {n₀ : Node}
    (hi : Node.EndsWell e n₀ (g.nodes i)) : Node.EndsWell e n₀ (g'.nodes i) := by
  rw [he] at hi ⊢
  induction h with
  | refl => exact hi
  | move before may made ih =>
    refine (makes_of_move? made).preserves
      (P := fun j n => j = i → Node.EndsWell (.fresh e.identity e.owner e.port e.nodeDir) n₀ n)
      (fun j n k n' _ hmakes hn hj => (hn hj).makes hmakes) ?_ i rfl
    rintro j rfl
    exact ih

/-! ## A run of a stop that comes too late -/

theorem run?_cons {g g' : Group ι L} {m : Move ι L} {ms : List (Move ι L)}
    (h : g.move? m = some g') : g.run? (m :: ms) = g'.run? ms := by
  rw [run?, h, Option.bind_some]

/-- The group while the stop `id` of the elector `i` is at work: it is at the point `p`, and the
turnstile is `t`. -/
def atStop (g : Group ι L) (i : ι) (id : CallId) (p : StopPoint) (t : Turnstile)
    (next : CallId) : Group ι L :=
  { g.setNode i ((g.nodes i).atStop id p t) with active := some (i, id), next := next }

/-- A turn of the stop, and where it leads. -/
theorem move?_atStop {g : Group ι L} {p : StopPoint} {t : Turnstile} {next : CallId}
    (ready : p.isReady { (g.nodes i).elector with init := t } id = true)
    (hne : next ≠ id) (hnew : (g.nodes i).course next = none)
    (hlock : L.withdraw g.lock id = g.lock) (x : L.Surroundings) (r : Reply) :
    (g.atStop i id p t next).move? (.turn x r) =
      some { g.setNode i (((g.nodes i).atStop id p t).carryOut id
          ((Activity.stop p).step { (g.nodes i).elector with init := t } id)) with
        active := some (i, id), next := next + 1 } := by
  have hnode : (g.atStop i id p t next).nodes i = (g.nodes i).atStop id p t :=
    setNode_nodes_self g i _
  have hfree : ((g.nodes i).atStop id p t).course next = none :=
    (Function.update_of_ne hne ..).trans hnew
  have hadvance := Node.advance?_of_stop (L := L) (s := g.lock) (x := x) (r := r) (w := next)
    (Function.update_self ..) ready hfree
  show (((g.atStop i id p t next).nodes i).advance? L g.lock id next x r).map
    (fun y => { (g.atStop i id p t next).setNode i y.1 with lock := y.2, next := next + 1 }) = _
  rw [hnode, hadvance, hlock, Option.map_some]
  simp only [atStop, setNode, Function.update_idem]
  rfl

/-- The stop goes on to its next point. -/
theorem move?_atStop_of_go {g : Group ι L} {p p' : StopPoint} {t t' : Turnstile} {next : CallId}
    (hstep : p.step { (g.nodes i).elector with init := t } id =
      .go { (g.nodes i).elector with init := t' } p')
    (ready : p.isReady { (g.nodes i).elector with init := t } id = true)
    (hne : next ≠ id) (hnew : (g.nodes i).course next = none)
    (hlock : L.withdraw g.lock id = g.lock) (x : L.Surroundings) (r : Reply) :
    (g.atStop i id p t next).move? (.turn x r) = some (g.atStop i id p' t' (next + 1)) := by
  have hcarry : ((g.nodes i).atStop id p t).carryOut id
      ((Activity.stop p).step { (g.nodes i).elector with init := t } id) =
      (g.nodes i).atStop id p' t' := by
    rw [Activity.step, hstep]
    exact Node.setCourse_atStop ..
  rw [move?_atStop ready hne hnew hlock, hcarry]
  rfl

/-- A stop is called, and set to work. -/
theorem run?_call_stop {g : Group ι L} (idle : g.active = none)
    (hnew : (g.nodes i).course g.next = none) (ms : List (Move ι L)) :
    g.run? (.call i .stop :: .resume i g.next :: ms) =
      (g.atStop i g.next .request (g.nodes i).elector.init (g.next + 1)).run? ms := by
  generalize hn : (g.nodes i).setCourse g.next (.going (.stop .request) false) = n
  have here : n.course g.next = some (.going (.stop .request) false) := by
    rw [← hn]
    exact Function.update_self ..
  have hmove : (g.nodes i).move? (.call g.next .stop) = some n := by
    rw [← hn]
    exact Node.move?_of_makes (.call hnew)
  have hcall : g.move? (.call i .stop) = some { g.setNode i n with next := g.next + 1 } := by
    have hidle : g.active.isNone = true := by
      rw [idle]
      rfl
    unfold move?
    dsimp only
    rw [if_pos hidle, hmove]
    rfl
  have hcan : Group.canGoOn { g.setNode i n with next := g.next + 1 } i g.next = true := by
    have hat : ((g.setNode i n).nodes i).course g.next =
        some (.going (.stop .request) false) := by rw [setNode_nodes_self, here]
    exact canGoOn_of_ready hat rfl
  have hresume : Group.move? { g.setNode i n with next := g.next + 1 } (.resume i g.next) =
      some (g.atStop i g.next .request (g.nodes i).elector.init (g.next + 1)) := by
    have hidle : (g.setNode i n).active.isNone = true := by
      show g.active.isNone = true
      rw [idle]
      rfl
    unfold move?
    dsimp only
    rw [if_pos ⟨hidle, hcan⟩, ← hn]
    rfl
  rw [run?_cons hcall, run?_cons hresume]

/-- Whoever has come to his end goes. -/
theorem move?_rest_of_ended {g : Group ι L} {e : Ending} (active : g.active = some (i, id))
    (here : (g.nodes i).course id = some (.ended e)) :
    g.move? .rest = some { g with active := none } := by
  have hmay : g.mayRest i id = true := by
    unfold mayRest
    rw [here]
  unfold move?
  dsimp only
  rw [active, Option.bind_some, if_pos hmay]

/-- A stop that is called when one has ended, and when nobody is at the turnstile, ends well in six
turns, and everything else is as before. -/
theorem run?_stop {g : Group ι L} (idle : g.active = none) (hg : g.Numbered)
    (hshut : (g.nodes i).elector.IsShut) (hfree : (g.nodes i).elector.init = .free)
    (hlock : L.withdraw g.lock g.next = g.lock) (x : L.Surroundings) (r : Reply) :
    g.run? (.call i .stop :: .resume i g.next :: (List.replicate 6 (.turn x r) ++ [.rest])) =
      some { g.setNode i ((g.nodes i).setCourse g.next (.ended (.stopped (.ok ())))) with
        next := g.next + 7 } := by
  have hname : ∀ k, (g.nodes i).course (g.next + k) = none := fun k =>
    hg i _ (Nat.le_add_right ..)
  have hne : ∀ k, g.next + (k + 1) ≠ g.next := fun k =>
    Nat.ne_of_gt (Nat.lt_add_of_pos_right (Nat.succ_pos k))
  have hsame : ∀ t, Elector.IsShut { (g.nodes i).elector with init := t } := fun t =>
    ⟨hshut.status, hshut.shutdown, hshut.gate, hshut.unkept⟩
  -- it goes through the turnstile, finds everything done, and leaves
  have h₁ := move?_atStop_of_go (StopPoint.request_step (hsame .free) g.next) rfl (hne 0)
    (hname 1) hlock x r
  have h₂ := move?_atStop_of_go (StopPoint.arrive_step (e := { (g.nodes i).elector with
    init := .free }) rfl g.next) rfl (hne 1) (hname 2) hlock x r
  have h₃ := move?_atStop_of_go (StopPoint.takeWaiter_step (hsame ⟨some g.next, []⟩) g.next) rfl
    (hne 2) (hname 3) hlock x r
  have h₄ := move?_atStop_of_go (StopPoint.halt_step (hsame ⟨some g.next, []⟩) g.next) rfl
    (hne 3) (hname 4) hlock x r
  have h₅ := move?_atStop_of_go (StopPoint.closeGate_step (hsame ⟨some g.next, []⟩) g.next) rfl
    (hne 4) (hname 5) hlock x r
  have h₆ := move?_atStop (p := .leave (.ok ())) (t := ⟨some g.next, []⟩) rfl (hne 5) (hname 6)
    hlock x r
  rw [Node.carryOut_atStop_leave hfree] at h₆
  generalize hn : (g.nodes i).setCourse g.next (.ended (.stopped (.ok ()))) = n at h₆ ⊢
  have hcourse : ((g.setNode i n).nodes i).course g.next = some (.ended (.stopped (.ok ()))) := by
    rw [setNode_nodes_self, ← hn]
    exact Function.update_self ..
  have hrest : Group.move? { g.setNode i n with active := some (i, g.next), next := g.next + 7 }
      .rest = some { g.setNode i n with active := none, next := g.next + 7 } :=
    move?_rest_of_ended rfl hcourse
  rw [run?_call_stop idle (hname 0), hfree]
  show Group.run? _ [.turn x r, .turn x r, .turn x r, .turn x r, .turn x r, .turn x r, .rest] = _
  rw [run?_cons h₁, run?_cons h₂, run?_cons h₃, run?_cons h₄, run?_cons h₅, run?_cons h₆,
    run?_cons hrest, ← idle]
  rfl

/-! ## Stops on a lock in memory -/

/-- At a standstill no stop is pending: it can go on itself, or somebody can for whom it waits. -/
theorem IsStuck.not_stop {g : Group ι .memory} (stuck : g.IsStuck) (hg : g.Tidy electors)
    (hfresh : (electors i).IsFresh) {p : StopPoint} {asked : Bool} :
    (g.nodes i).course id ≠ some (.going (.stop p) asked) := by
  intro here
  have hn := (hg.reachable_fresh hfresh).orderly
  have hstill := stuck.canGoOn_eq_false (stuck.idle hg.numbered ()) i
  obtain ⟨id', -, (⟨w, n, hstep⟩ | ⟨n, hask⟩) | ⟨q, hne, a, there, request⟩⟩ := hn.stop_getsOn here
  · cases Node.makes_of_move? hstep with
    | step there ready new => exact nomatch (hstill id').symm.trans (canGoOn_of_ready there ready)
  · cases Node.makes_of_move? hask with
    | ask there request =>
      exact nomatch (hstill id').symm.trans (canGoOn_of_request there request fun _ _ => rfl)
  · rcases hg.patient i id' a there with hlock | hput
    · have hgrant := (a.asksLock_iff (g.nodes i).elector).mp hlock
      exact hne (Option.some.inj (request.symm.trans hgrant))
    · -- it waits for the registry, which answers
      obtain ⟨key, value, hrequest⟩ := (a.isPut_iff (g.nodes i).elector).mp hput
      exact nomatch (hstill id').symm.trans (canGoOn_of_request there hrequest nofun)

/-- Whatever happens to electors on one lock in memory, a stop of one of them touches no other, and
frees the lock only if it is its own elector's.  A stop of an elector that was evicted while it ran
leaves the lock to its holder and the elector stopped, and one stop is told that the lock was lost.
Once a stop has ended, all others end well; they change nothing but the turnstile that they pass,
and not even that if they find it free.  At a standstill no stop is pending. -/
theorem stop_local {s : Lock.Memory} {g : Group ι .memory} (hfresh : ∀ i, (electors i).IsFresh)
    (howners : Function.Injective fun i => (electors i).owner) (hs : s.waiting = [])
    (h : Reachable Move.MayEvict (fresh electors (L := .memory) s) g) (i : ι) :
    (∀ id m g', g.OfStop i id m → g.move? m = some g' →
      (∀ j, j ≠ i → g'.nodes j = g.nodes j) ∧
      (g'.lock.holder = g.lock.holder ∨
        g.lock.holder = some (electors i).owner ∧ g'.lock.holder = none)) ∧
    ((g.nodes i).elector.status = .running → g.lock.holder ≠ some (electors i).owner →
      ∀ g', Reachable Move.MayEvict g g' →
      (∀ id m g'', g'.OfStop i id m → g'.move? m = some g'' →
        g''.lock.holder = g'.lock.holder) ∧
      ∀ id r, (g'.nodes i).course id = some (.ended (.stopped r)) →
        (g'.nodes i).elector.status = .stopped ∧
        ∃ id₀, (g'.nodes i).course id₀ =
            some (.ended (.stopped (.error (.lock (.notHeld (electors i).owner))))) ∧
          ∀ id r, id ≠ id₀ → (g'.nodes i).course id = some (.ended (.stopped r)) → r = .ok ()) ∧
    (∀ id₀ r₀, (g.nodes i).course id₀ = some (.ended (.stopped r₀)) →
      (∀ id m g', g.OfStop i id m → g.move? m = some g' →
        (g.nodes i).Around id (g'.nodes i) ∧ g'.lock = g.lock) ∧
      (∀ g' id r, Reachable Move.MayEvict g g' →
        (g'.nodes i).course id = some (.ended (.stopped r)) →
        (g.nodes i).course id = some (.ended (.stopped r)) ∨ r = .ok ()) ∧
      (g.active = none → (g.nodes i).elector.init = .free → ∀ x r,
        g.run? (.call i .stop :: .resume i g.next :: (List.replicate 6 (.turn x r) ++ [.rest])) =
          some { g.setNode i ((g.nodes i).setCourse g.next (.ended (.stopped (.ok ())))) with
            next := g.next + 7 })) ∧
    (g.IsStuck → ∀ id p asked, (g.nodes i).course id ≠ some (.going (.stop p) asked)) := by
  have hg := h.tidy hs
  refine ⟨fun id m g' hm made => ?_, fun running lost g' hafter => ?_, fun id₀ r₀ ended => ?_,
    fun stuck id p asked => stuck.not_stop hg (hfresh i)⟩
  · have hmakes := makes_of_move? made
    refine ⟨fun j hj => hm.nodes_eq hmakes hj, ?_⟩
    rw [← hg.owner i]
    exact hm.holder hmakes
  · -- the elector was evicted, and is ousted from then on
    obtain ⟨hg', hi⟩ : g'.Tidy electors ∧ g'.IsOusted electors i := by
      induction hafter with
      | refl => exact ⟨hg, hg.isOusted (hfresh i) running lost⟩
      | move before may made ih =>
        have hmakes := makes_of_move? made
        exact ⟨ih.1.makes hmakes may, ih.2.makes ih.1 (hfresh i) howners hmakes may⟩
    refine ⟨fun id m g'' hm made => ?_, fun id r hended => ?_⟩
    · rcases hm.holder (makes_of_move? made) with hsame | ⟨hown, -⟩
      · exact hsame
      · rw [hg'.owner i] at hown
        exact absurd hown hi.holder
    · rw [← hg'.owner i]
      exact hi.node.of_ended (hg'.reachable_fresh (hfresh i)) hended
  · -- a stop has ended, and the elector is shut
    have hreach := hg.reachable_fresh (hfresh i)
    refine ⟨fun id m g' hm made => hm.around (makes_of_move? made) hg (hfresh i) ended,
      fun g' id r hafter hended => ?_, fun idle hfree x r => ?_⟩
    · have hends : Node.EndsWell (electors i) (g.nodes i) (g.nodes i) :=
        ⟨hg.reachable i, ⟨id₀, r₀, ended⟩, fun _ _ h => .inl h⟩
      exact (hafter.endsWell (hfresh i) hends).ok id r hended
    · exact run?_stop idle hg.numbered (hreach.isShut ended) hfree hg.withdraw_next x r

/-- One elector runs and is evicted, and the other one, which stands by, takes the lock. -/
def evictedMoves : List (Move Bool .memory) :=
  standbyMoves ++ [.outside () (.unlock (pair true).owner), .resume false 31] ++ turns 10 ++ [.rest]

/-- A stop of the elector that was evicted. -/
def lateStopMoves : List (Move Bool .memory) :=
  [.call true .stop, .resume true 46] ++ turns 7 ++ [.rest]

/-- The stop is told that the lock was lost, and leaves it to the other one; a second stop ends
well and changes nothing. -/
theorem evicted_stop_local :
    ((pairAfter evictedMoves).nodes true).elector.status = .running ∧
    (pairAfter evictedMoves).lock.holder = some (pair false).owner ∧
    ((pairAfter (evictedMoves ++ lateStopMoves)).nodes true).elector.status = .stopped ∧
    (∃ id, ((pairAfter (evictedMoves ++ lateStopMoves)).nodes true).course id =
      some (.ended (.stopped (.error (.lock (.notHeld (pair true).owner)))))) ∧
    (pairAfter (evictedMoves ++ lateStopMoves)).lock.holder = some (pair false).owner ∧
    (pairAfter (evictedMoves ++ lateStopMoves)).run?
        (.call true .stop :: .resume true 54 ::
          (List.replicate 6 (.turn () (.ok true)) ++ [.rest])) =
      some { (pairAfter (evictedMoves ++ lateStopMoves)).setNode true
          (((pairAfter (evictedMoves ++ lateStopMoves)).nodes true).setCourse 54
            (.ended (.stopped (.ok ())))) with next := 61 } := by
  have hfresh : ∀ b, (pair b).IsFresh := fun _ => rfl
  have howners : ∀ b c, (pair b).owner = (pair c).owner → b = c := by decide
  have hevict : ∀ m ∈ evictedMoves, m.MayEvict := by
    simp [evictedMoves, standbyMoves, turns, or_imp, forall_and, Move.MayEvict]
  have hlate : ∀ m ∈ lateStopMoves, m.MayEvict := by
    simp [lateStopMoves, turns, or_imp, forall_and, Move.MayEvict]
  have hreach : Reachable Move.MayEvict (fresh pair (L := .memory) Lock.Memory.fresh)
      (pairAfter evictedMoves) := .run .refl hevict rfl
  have hafter : Reachable Move.MayEvict (pairAfter evictedMoves)
      (pairAfter (evictedMoves ++ lateStopMoves)) := .run .refl hlate rfl
  have hreach' : Reachable Move.MayEvict (fresh pair (L := .memory) Lock.Memory.fresh)
      (pairAfter (evictedMoves ++ lateStopMoves)) := .run hreach hlate rfl
  have hlost : (pairAfter evictedMoves).lock.holder ≠ some (pair true).owner := by decide
  obtain ⟨-, hevicted, -⟩ := stop_local hfresh (fun _ _ => howners _ _) rfl hreach true
  obtain ⟨hstopped, id, htold, -⟩ := (hevicted rfl hlost _ hafter).2 46 _ rfl
  obtain ⟨-, -, hagain, -⟩ := stop_local hfresh (fun _ _ => howners _ _) rfl hreach' true
  obtain ⟨-, -, hrun⟩ := hagain id _ htold
  exact ⟨rfl, rfl, hstopped, ⟨id, htold⟩, rfl, hrun rfl rfl () (.ok true)⟩

end Group

end Primacy.Election
