/-
  Primacy.Proofs.Election.Site

  Electors of many processes: groups that have one handle each, on lock files in one file tree.
  What a group does to its handle is a look at a call, so the handles share the files as any
  handles do; of the electors on handles that were first connected to one address, at most one
  runs.
-/
import Primacy.Proofs.Election.Exclusion
import Primacy.Proofs.Lock.Sharing

namespace Primacy.Election

open Files (NodeId Tree)

/-! ## The lock call of a turn -/

/-- The lock call that the next turn of an activity makes, or looks at again. -/
def Node.lockCall? (n : Node) (id : CallId) : Option Lock.Call :=
  match n.course id with
  | some (.going a _) =>
    if a.isReady n.elector id then none
    else (a.request? n.elector).bind fun q => (q.target n.elector.owner).getLeft?
  | _ => none

theorem Node.lock_of_advance? {L : Lock.Service} {n n' : Node} {s s' : L.State}
    {id waiter : CallId} {x : L.Surroundings} {r : Reply}
    (h : n.advance? L s id waiter x r = some (n', s')) :
    match n.lockCall? id with
    | some c => s' = (L.look s x id c).2
    | none => s' = s ∨ s' = L.withdraw s id := by
  unfold advance? at h
  split at h
  · next a asked here =>
    split at h
    · next hready =>
      have hcall : n.lockCall? id = none := by
        rw [lockCall?, here]
        exact if_pos hready
      obtain ⟨n₁, -, heq⟩ := Option.map_eq_some_iff.mp h
      cases heq
      rw [hcall]
      exact .inr rfl
    · next hready =>
      obtain ⟨q, request, hq⟩ := Option.bind_eq_some_iff.mp h
      have hcall : n.lockCall? id = (q.target n.elector.owner).getLeft? := by
        rw [lockCall?, here]
        exact (if_neg hready).trans (request ▸ rfl)
      rw [hcall]
      split at hq
      · next put target =>
        obtain ⟨n₁, -, heq⟩ := Option.map_eq_some_iff.mp hq
        cases heq
        rw [target]
        exact .inl rfl
      · next c target =>
        obtain ⟨n₁, -, hlook⟩ := Option.bind_eq_some_iff.mp hq
        rw [target]
        show s' = (L.look s x id c).2
        split at hlook
        · next s₁ look =>
          cases hlook
          rw [look]
        · next l s₁ look =>
          obtain ⟨n₂, -, heq⟩ := Option.map_eq_some_iff.mp hlook
          cases heq
          rw [look]
  · exact nomatch h

namespace Group

variable {ι : Type} [DecidableEq ι] {L : Lock.Service}

/-- The lock call that a move makes, or looks at again. -/
def lockCall? (g : Group ι L) : Move ι L → Option Lock.Call
  | .turn _ _ => g.active.bind fun (i, id) => (g.nodes i).lockCall? id
  | .outside _ c => some c
  | _ => none

/-- The move with other surroundings. -/
def Move.within (x : L.Surroundings) : Move ι L → Move ι L
  | turn _ r => turn x r
  | outside _ c => outside x c
  | m => m

/-- The handle of a group is where the lock call of its move leaves it. -/
theorem lock_of_move? {g g' : Group ι .file} {m : Move ι .file} {files : Tree}
    {locked : List NodeId} (h : g.move? (m.within (files, locked)) = some g') :
    g'.lock = match g.lockCall? m with
      | some c => ((g.lock : Lock.Handle).serve files locked c).2.2
      | none => g.lock := by
  cases m with
  | call i c =>
    simp only [Move.within, move?, Option.ite_none_right_eq_some] at h
    obtain ⟨n, -, heq⟩ := Option.map_eq_some_iff.mp h.2
    cases heq
    rfl
  | resume i id =>
    simp only [Move.within, move?, Option.ite_none_right_eq_some] at h
    cases h.2
    rfl
  | turn x r =>
    obtain ⟨⟨i, id⟩, hactive, hturn⟩ := Option.bind_eq_some_iff.mp h
    obtain ⟨⟨n, s⟩, hadvance, heq⟩ := Option.map_eq_some_iff.mp hturn
    cases heq
    have hlock := Node.lock_of_advance? hadvance
    simp only [lockCall?, hactive, Option.bind_some]
    generalize (g.nodes i).lockCall? id = c? at hlock ⊢
    cases c? with
    | some c => exact hlock
    | none => exact hlock.elim (fun h => h) fun h => h
  | rest =>
    obtain ⟨⟨i, id⟩, -, hrest⟩ := Option.bind_eq_some_iff.mp h
    simp only [Option.ite_none_right_eq_some] at hrest
    cases hrest.2
    rfl
  | breakOff i id =>
    simp only [Move.within, move?, Option.ite_none_right_eq_some] at h
    obtain ⟨n, -, heq⟩ := Option.map_eq_some_iff.mp h.2
    cases heq
    rfl
  | discard i =>
    simp only [Move.within, move?, Option.ite_none_right_eq_some] at h
    obtain ⟨n, -, heq⟩ := Option.map_eq_some_iff.mp h.2
    cases heq
    rfl
  | outside x c =>
    simp only [Move.within, move?, Option.ite_none_right_eq_some] at h
    cases h.2
    rfl

end Group

/-! ## Groups that share files -/

/-- Groups with one handle each, the files, those of them that anyone has locked, and the lock
calls that were answered, the earliest first. -/
structure Site (κ ι : Type) where
  files : Tree
  locked : List NodeId
  groups : κ → Group ι .file
  log : List (Lock.Answered κ)

namespace Site

variable {κ ι : Type}

def fresh (electors : κ → ι → Elector) (files : Tree) (locked : List NodeId) : Site κ ι :=
  ⟨files, locked, fun k => .fresh (electors k) Lock.Handle.fresh, []⟩

/-- The handles of the groups. -/
def sharing (s : Site κ ι) : Lock.Sharing κ :=
  ⟨s.files, s.locked, fun k => (s.groups k).lock, s.log⟩

variable [DecidableEq κ] {electors : κ → ι → Elector} {s s' : Site κ ι} {k k' : κ}

/-- The handles share their files as handles do, and every group agrees with its handle. -/
structure Sound (electors : κ → ι → Elector) (s : Site κ ι) : Prop where
  sharing : s.sharing.Sound
  group : ∀ k, (s.groups k).Sound (electors k)

/-- Of electors on handles that were first connected to one address, one runs. -/
theorem Sound.eq_of_running (hs : s.Sound electors)
    (howners : ∀ k, Function.Injective fun i => (electors k i).owner) {address : String}
    (hk : Lock.Answered.bound? s.log k = some address)
    (hk' : Lock.Answered.bound? s.log k' = some address) {i i' : ι}
    (hi : ((s.groups k).nodes i).elector.status = .running)
    (hi' : ((s.groups k').nodes i').elector.status = .running) : k = k' ∧ i = i' := by
  have hgrantee : ∀ {k : κ} {i : ι}, ((s.groups k).nodes i).elector.status = .running →
      Lock.Answered.grantee? s.log k = some (electors k i).owner := by
    intro k i h
    exact (hs.sharing.holder k).symm.trans ((hs.group k).holder_of_running h)
  obtain rfl := hs.sharing.eq_of_grantee hk hk' (hgrantee hi) (hgrantee hi')
  exact ⟨rfl, (hs.group k).eq_of_running (howners k) hi hi'⟩

variable [DecidableEq ι] {m : Group.Move ι .file}

/-- What a move of the group `k` leads to, if it can be made: the group finds the files as they
are. -/
def move? (s : Site κ ι) (k : κ) (m : Group.Move ι .file) : Option (Site κ ι) :=
  ((s.groups k).move? (m.within (s.files, s.locked))).map fun g =>
    let shared := match (s.groups k).lockCall? m with
      | some c => s.sharing.look k c
      | none => s.sharing
    { files := shared.files
      locked := shared.locked
      groups := Function.update s.groups k g
      log := shared.log }

/-- What moves of the groups lead to, made in any order, with others at work in between; whoever
else calls a handle does so in a name of his own. -/
inductive Reachable (electors : κ → ι → Elector) (s₀ : Site κ ι) : Site κ ι → Prop where
  | refl : Reachable electors s₀ s₀
  | move {s s' : Site κ ι} {k : κ} {m : Group.Move ι .file} (before : Reachable electors s₀ s)
      (aloof : m.IsAloof (electors k)) (made : s.move? k m = some s') : Reachable electors s₀ s'
  | outside {s : Site κ ι} {files : Tree} {locked : List NodeId}
      (before : Reachable electors s₀ s) (spares : s.sharing.Spares files locked) :
      Reachable electors s₀ { s with files := files, locked := locked }

/-- A move of a group is a look at a call on its handle, or leaves the handles alone. -/
theorem sharing_of_move? (h : s.move? k m = some s') :
    (∃ g, (s.groups k).move? (m.within (s.files, s.locked)) = some g ∧
      s'.groups = Function.update s.groups k g) ∧
    (s'.sharing = s.sharing ∨ ∃ c, s'.sharing = s.sharing.look k c) := by
  obtain ⟨g, hg, heq⟩ := Option.map_eq_some_iff.mp h
  have hlock := Group.lock_of_move? hg
  cases heq
  refine ⟨⟨g, hg, rfl⟩, ?_⟩
  have hhandles : (fun k' => (Function.update s.groups k g k').lock) =
      Function.update s.sharing.handles k g.lock :=
    funext (Function.apply_update (fun _ g => Group.lock g) s.groups k g)
  cases hcall : (s.groups k).lockCall? m with
  | some c =>
    rw [hcall] at hlock
    refine .inr ⟨c, ?_⟩
    rw [hlock] at hhandles
    show Lock.Sharing.mk _ _ (fun k' => (Function.update s.groups k g k').lock) _ = _
    rw [hhandles]
    rfl
  | none =>
    rw [hcall] at hlock
    refine .inl ?_
    show Lock.Sharing.mk _ _ (fun k' => (Function.update s.groups k g k').lock) _ = _
    rw [hhandles, hlock]
    show Lock.Sharing.mk _ _ (Function.update s.sharing.handles k (s.sharing.handles k)) _ = _
    rw [Function.update_eq_self]

theorem Reachable.sound {files : Tree} {locked : List NodeId}
    (h : Reachable electors (fresh electors files locked) s) (hfiles : files.IsClosed)
    (hfresh : ∀ k i, (electors k i).IsFresh)
    (howners : ∀ k, Function.Injective fun i => (electors k i).owner) : s.Sound electors := by
  induction h with
  | refl =>
    exact ⟨Lock.Sharing.sound_fresh hfiles, fun k => Group.sound_fresh (hfresh k) nofun⟩
  | @move s s' k m before aloof made ih =>
    obtain ⟨⟨g, hg, hgroups⟩, hsharing⟩ := sharing_of_move? made
    constructor
    · rcases hsharing with heq | ⟨c, heq⟩
      · exact heq ▸ ih.sharing
      · exact heq ▸ ih.sharing.look k c
    · intro k'
      rw [hgroups]
      by_cases hne : k' = k
      · subst hne
        rw [Function.update_self]
        have haloof : (m.within (s.files, s.locked)).IsAloof (electors k') := by
          cases m <;> exact aloof
        exact (ih.group k').makes (howners k') haloof (Group.makes_of_move? hg)
      · rw [Function.update_of_ne hne]
        exact ih.group k'
  | outside before spares ih => exact ⟨ih.sharing.outside spares, ih.group⟩

/-- Handles that were first connected to one address never hold two grants, in whatever order they
are called, whatever they are connected to later; and of the electors on them at most one runs. -/
theorem one_grant_of_bound {files : Tree} {locked : List NodeId} (hfiles : files.IsClosed)
    (hfresh : ∀ k i, (electors k i).IsFresh)
    (howners : ∀ k, Function.Injective fun i => (electors k i).owner) :
    (∀ s : Lock.Sharing κ, Lock.Sharing.Reachable (.fresh files locked) s →
      ∀ k k' address owner owner', Lock.Answered.bound? s.log k = some address →
        Lock.Answered.bound? s.log k' = some address →
        Lock.Answered.grantee? s.log k = some owner →
        Lock.Answered.grantee? s.log k' = some owner' → k = k') ∧
    (∀ s : Site κ ι, Reachable electors (fresh electors files locked) s →
      ∀ k k' i i' address, Lock.Answered.bound? s.log k = some address →
        Lock.Answered.bound? s.log k' = some address →
        ((s.groups k).nodes i).elector.status = .running →
        ((s.groups k').nodes i').elector.status = .running → k = k' ∧ i = i') := by
  constructor
  · intro s h k k' address owner owner' hk hk' ho ho'
    exact (h.sound hfiles).eq_of_grantee hk hk' ho ho'
  · intro s h k k' i i' address hk hk' hi hi'
    exact (h.sound hfiles hfresh howners).eq_of_running howners hk hk' hi hi'

/-- Two handles are connected to one file, and the lock is asked of both. -/
def rivals : Lock.Sharing Bool :=
  let desk := Lock.Sharing.desk
  Lock.Sharing.fresh desk []
    |>.after true (.connect "a") ((desk, []), some (.ok true), ⟨some "a", none⟩)
    |>.after false (.connect "a") ((desk, []), some (.ok true), ⟨some "a", none⟩)
    |>.after true (.tryLock "p") ((desk, [1]), some (.ok true), ⟨some "a", some ("p", 1)⟩)
    |>.after false (.tryLock "q") ((desk, [1]), some (.ok false), ⟨some "a", none⟩)

theorem rivals_one_grant : Lock.Answered.grantee? rivals.log true = some "p" ∧
    ∀ owner, Lock.Answered.grantee? rivals.log false ≠ some owner := by
  have hfresh : ∀ (_ : Bool) i, (Group.pair i).IsFresh := fun _ _ => rfl
  have howners : ∀ b c, (Group.pair b).owner = (Group.pair c).owner → b = c := by decide
  have hrun : Lock.Sharing.Reachable (.fresh Lock.Sharing.desk []) rivals :=
    Lock.Sharing.Reachable.refl.after (Lock.Sharing.serve_connect_leaf _ _ true)
      |>.after (Lock.Sharing.serve_connect_leaf _ _ true)
      |>.after (Lock.Sharing.serve_tryLock_leaf (b := true) rfl rfl _ _)
      |>.after (Lock.Sharing.serve_tryLock_leaf (b := true) rfl rfl _ _)
  refine ⟨rfl, fun owner ho => ?_⟩
  have heq := (one_grant_of_bound Lock.Sharing.isClosed_desk hfresh fun _ => howners).1
    rivals hrun true false "a" "p" owner rfl rfl rfl ho
  exact nomatch heq

end Site

end Primacy.Election
