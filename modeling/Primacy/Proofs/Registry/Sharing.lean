/-
  Primacy.Proofs.Registry.Sharing

  Any number of calls on one registry file, through any handles: a handle is no more than the path
  of the file.  The calls take their steps in any order, but only one at a time has the lock of the
  file.  What they answer is what a registry in memory answers to the same calls, made one after
  the other in the order in which they got the lock.
-/
import Mathlib.Data.DFinsupp.WellFounded
import Primacy.Proofs.Registry.FileCall

namespace Primacy.Registry

open Text.Utf8 (Bytes)

/-- Calls on one registry file; `ι` names them, and `call i` is what call `i` asks. -/
structure Sharing {ι : Type} (call : ι → Request) where
  /-- What the file holds, if it is there. -/
  file : Option Bytes
  /-- The call that has the lock of the file. -/
  holder : Option ι
  /-- The calls that got the lock, the first one first. -/
  order : List ι
  point : (i : ι) → FileCall (call i)

namespace Sharing

variable {ι : Type} [DecidableEq ι] {call : ι → Request}

/-- Nobody has opened the file yet. -/
def start (call : ι → Request) (file : Option Bytes) : Sharing call where
  file := file
  holder := none
  order := []
  point _ := .opening

def bytes (s : Sharing call) : Bytes := s.file.getD []

/-- Call `i` moves on to `p`. -/
def move (s : Sharing call) (i : ι) (p : FileCall (call i)) : Sharing call :=
  { s with point := Function.update s.point i p }

/-- The next step of call `i`.  Opening makes the file if it is not there; the lock is given to
one call at a time. -/
def step? (s : Sharing call) (i : ι) (n : Nat) : Option (Sharing call) :=
  match s.point i with
  | .opening => some { s.move i .locking with file := some s.bytes }
  | .locking =>
    if s.holder.isNone then
      some { s.move i .reading with holder := some i, order := s.order ++ [i] }
    else none
  | .unlocking r => some { s.move i (.done r) with holder := none }
  | p => (p.work? n s.bytes).map fun x => { s.move i x.1 with file := some x.2 }

/-- The states that steps of the calls lead to, in any order. -/
inductive Reachable (call : ι → Request) (file : Option Bytes) : Sharing call → Prop where
  | start : Reachable call file (.start call file)
  | step {s s' : Sharing call} (reachable : Reachable call file s) (i : ι) (n : Nat)
      (step : s.step? i n = some s') : Reachable call file s'

/-! ## What a step does -/

/-- What steps do to the calls and the file. -/
inductive Step (s : Sharing call) (i : ι) : Sharing call → Prop where
  | opens (point : s.point i = .opening) :
      Step s i { s.move i .locking with file := some s.bytes }
  | locks (point : s.point i = .locking) (free : s.holder = none) :
      Step s i { s.move i .reading with holder := some i, order := s.order ++ [i] }
  | works {p : FileCall (call i)} {n : Nat} {file : Bytes}
      (work : (s.point i).work? n s.bytes = some (p, file)) :
      Step s i { s.move i p with file := some file }
  | unlocks {r : (call i).Reply} (point : s.point i = .unlocking r) :
      Step s i { s.move i (.done r) with holder := none }

variable {s s' : Sharing call} {i j : ι} {n : Nat} {c : Content}

theorem step_of_step? (h : s.step? i n = some s') : Step s i s' := by
  simp only [step?] at h
  split at h
  · next hp =>
    cases h
    exact .opens hp
  · next hp =>
    split at h
    · next hfree =>
      cases h
      exact .locks hp (Option.isNone_iff_eq_none.mp hfree)
    · cases h
  · next r hp =>
    cases h
    exact .unlocks hp
  · obtain ⟨⟨p, file⟩, hwork, rfl⟩ := Option.map_eq_some_iff.mp h
    exact .works hwork

/-! ## The order of the calls -/

/-- Call `i` is answered `r` by a registry in memory that holds `c` when calls are made to it in
the given order. -/
def Answered (c : Content) (call : ι → Request) (order : List ι) (i : ι) (r : (call i).Reply) :
    Prop :=
  ∃ before after, order = before ++ i :: after ∧
    r = (c.replay (before.map call)).reply (call i)

/-- What a registry in memory that held `c` holds after the calls that got the lock. -/
def replayed (s : Sharing call) (c : Content) : Content := c.replay (s.order.map call)

/-- The calls that had the lock were answered as in their order, and the file holds what they left;
the call that has the lock stands where it may stand.  The file held `c` at first. -/
structure Sound (s : Sharing call) (c : Content) : Prop where
  nodup : s.order.Nodup
  entered : ∀ i, i ∈ s.order ↔ (s.point i).hasEntered = true
  inside : ∀ i, s.holder = some i ↔ (s.point i).isInside = true
  answered : ∀ i r, s.point i = .done r → Answered c call s.order i r
  free : s.holder = none → Content.ofBytes s.bytes = .ok (s.replayed c)
  held : ∀ i, s.holder = some i → ∃ before, s.order = before ++ [i] ∧
    (s.point i).Fits (c.replay (before.map call)) s.bytes

omit [DecidableEq ι] in
theorem Answered.append {order : List ι} {r : (call i).Reply} (h : Answered c call order i r)
    (later : List ι) : Answered c call (order ++ later) i r := by
  obtain ⟨before, after, rfl, hr⟩ := h
  exact ⟨before, after ++ later, List.append_assoc .., hr⟩

theorem point_move (s : Sharing call) (i : ι) (p : FileCall (call i)) :
    (s.move i p).point i = p := Function.update_self ..

theorem point_move_of_ne (hj : j ≠ i) (p : FileCall (call i)) :
    (s.move i p).point j = s.point j := Function.update_of_ne hj ..

/-- What holds of the call that moved and of the other calls holds of all. -/
theorem forall_move {P : (j : ι) → FileCall (call j) → Prop} {p : FileCall (call i)} (hi : P i p)
    (hne : ∀ j, j ≠ i → P j (s.point j)) (j : ι) : P j ((s.move i p).point j) := by
  by_cases hj : j = i
  · subst hj
    rw [point_move]
    exact hi
  · rw [point_move_of_ne hj]
    exact hne j hj

omit [DecidableEq ι] in
/-- The order of the calls determines what they are answered. -/
theorem Answered.eq_reply (before : List ι) {order after : List ι} {r : (call i).Reply}
    (h : Answered c call order i r) (hnodup : order.Nodup) (horder : order = before ++ i :: after) :
    r = (c.replay (before.map call)).reply (call i) := by
  obtain ⟨before', after', heq, hr⟩ := h
  rw [horder] at hnodup heq
  obtain ⟨-, hrest, hbefore⟩ := List.nodup_append.mp hnodup
  have hi : i ∉ before := fun h => hbefore i h i List.mem_cons_self rfl
  obtain ⟨rfl, -⟩ := (List.append_cons_inj_of_notMem hi (List.nodup_cons.mp hrest).1).mp heq
  exact hr

omit [DecidableEq ι] in
/-- The calls start out from what the file is read as. -/
theorem sound_start {file : Option Bytes} (hfile : Content.ofBytes (file.getD []) = .ok c) :
    Sound (start call file) c where
  nodup := List.nodup_nil
  entered _ := ⟨nofun, nofun⟩
  inside _ := ⟨nofun, nofun⟩
  answered _ _ h := nomatch h
  free _ := hfile
  held _ h := nomatch h

omit [DecidableEq ι] in
theorem Sound.mem_of_holder (hs : s.Sound c) (h : s.holder = some i) : i ∈ s.order :=
  (hs.entered i).mpr (FileCall.hasEntered_of_isInside ((hs.inside i).mp h))

theorem Sound.opens (hs : s.Sound c) (hp : s.point i = .opening) :
    Sound { s.move i .locking with file := some s.bytes } c where
  nodup := hs.nodup
  entered := by
    have hi := hs.entered i
    rw [hp] at hi
    exact forall_move (P := fun j p => j ∈ s.order ↔ p.hasEntered = true) hi
      fun j _ => hs.entered j
  inside := by
    have hi := hs.inside i
    rw [hp] at hi
    exact forall_move (P := fun j p => s.holder = some j ↔ p.isInside = true) hi
      fun j _ => hs.inside j
  answered := forall_move (P := fun j p => ∀ r, p = .done r → Answered c call s.order j r) nofun
    fun j _ => hs.answered j
  free := hs.free
  held j hj := by
    -- a call that opens the file is not the one that has the lock
    have hinside := (hs.inside j).mp hj
    have hne : j ≠ i := by
      rintro rfl
      rw [hp] at hinside
      cases hinside
    have hheld := hs.held j hj
    rw [← point_move_of_ne hne .locking] at hheld
    exact hheld

theorem Sound.locks (hs : s.Sound c) (hp : s.point i = .locking) (hfree : s.holder = none) :
    Sound { s.move i .reading with holder := some i, order := s.order ++ [i] } c := by
  -- a call gets the lock once
  have hi : i ∉ s.order := by
    rw [hs.entered i, hp]
    exact nofun
  exact
    { nodup := List.nodup_append.mpr ⟨hs.nodup, List.pairwise_singleton _ _, by
        rintro j hj k hk rfl
        exact hi (List.mem_singleton.mp hk ▸ hj)⟩
      entered := forall_move (P := fun j p => j ∈ s.order ++ [i] ↔ p.hasEntered = true)
        ⟨fun _ => rfl, fun _ => List.mem_append_right _ List.mem_cons_self⟩ fun j hne => by
          rw [List.mem_append, List.mem_singleton, or_iff_left hne]
          exact hs.entered j
      inside := forall_move (P := fun j p => some i = some j ↔ p.isInside = true)
        ⟨fun _ => rfl, fun _ => rfl⟩ fun j hne => by
          rw [← hs.inside j, hfree]
          exact ⟨fun h => absurd (Option.some.inj h).symm hne, nofun⟩
      answered := forall_move
        (P := fun j p => ∀ r, p = .done r → Answered c call (s.order ++ [i]) j r) nofun
        fun j _ r hr => (hs.answered j r hr).append [i]
      free := nofun
      held := fun j hj => by
        obtain rfl := Option.some.inj hj
        refine ⟨s.order, rfl, ?_⟩
        show ((s.move i .reading).point i).Fits _ _
        rw [point_move]
        exact hs.free hfree }

theorem Sound.works (hs : s.Sound c) (hc : c.WellFormed) {p : FileCall (call i)} {file : Bytes}
    (hwork : (s.point i).work? n s.bytes = some (p, file)) :
    Sound { s.move i p with file := some file } c := by
  -- only the holder of the lock works, so it finds the file as it left it
  have hinside := FileCall.isInside_of_work hwork
  have hholder := (hs.inside i).mpr hinside
  obtain ⟨before, horder, hfits⟩ := hs.held i hholder
  have hfits' := hfits.work (hc.replay _) hwork
  have hinside' := FileCall.isInside_of_fits hfits'
  exact
    { nodup := hs.nodup
      entered := forall_move (P := fun j p => j ∈ s.order ↔ p.hasEntered = true)
        ⟨fun _ => FileCall.hasEntered_of_isInside hinside', fun _ => hs.mem_of_holder hholder⟩
        fun j _ => hs.entered j
      inside := forall_move (P := fun j p => s.holder = some j ↔ p.isInside = true)
        ⟨fun _ => hinside', fun _ => hholder⟩ fun j _ => hs.inside j
      answered := forall_move (P := fun j p => ∀ r, p = .done r → Answered c call s.order j r)
        (fun r hr => by
          rw [hr] at hinside'
          exact nomatch hinside') fun j _ => hs.answered j
      free := fun hfree => nomatch hholder.symm.trans hfree
      held := fun j hj => by
        obtain rfl := Option.some.inj (hholder.symm.trans hj)
        refine ⟨before, horder, ?_⟩
        show ((s.move i p).point i).Fits _ _
        rw [point_move]
        exact hfits' }

theorem Sound.unlocks (hs : s.Sound c) {r : (call i).Reply} (hp : s.point i = .unlocking r) :
    Sound { s.move i (.done r) with holder := none } c := by
  have hholder : s.holder = some i := by
    rw [hs.inside i, hp]
    rfl
  obtain ⟨before, horder, hfits⟩ := hs.held i hholder
  rw [hp] at hfits
  obtain ⟨hreply, hfile⟩ := hfits
  -- the call is the last one of the order, and leaves what the memory holds after it
  have hreplayed : s.replayed c = (c.replay (before.map call)).after (call i) := by
    rw [replayed, horder, List.map_append]
    exact Content.replay_concat ..
  exact
    { nodup := hs.nodup
      entered := forall_move (P := fun j p => j ∈ s.order ↔ p.hasEntered = true)
        ⟨fun _ => rfl, fun _ => hs.mem_of_holder hholder⟩ fun j _ => hs.entered j
      inside := forall_move (P := fun j p => none = some j ↔ p.isInside = true)
        ⟨nofun, nofun⟩ fun j hne => by
          rw [← hs.inside j, hholder]
          exact ⟨nofun, fun h => absurd (Option.some.inj h).symm hne⟩
      answered := forall_move (P := fun j p => ∀ r, p = .done r → Answered c call s.order j r)
        (fun r' hr => by
          cases hr
          exact ⟨before, [], horder, hreply⟩) fun j _ => hs.answered j
      free := fun _ => hfile.trans (congrArg Except.ok hreplayed.symm)
      held := nofun }

/-- One step. -/
theorem Sound.step (hs : s.Sound c) (hc : c.WellFormed) (h : Step s i s') : s'.Sound c := by
  cases h with
  | opens hp => exact hs.opens hp
  | locks hp hfree => exact hs.locks hp hfree
  | works hwork => exact hs.works hc hwork
  | unlocks hp => exact hs.unlocks hp

/-- Any number of steps of any calls. -/
theorem Reachable.sound {file : Option Bytes}
    (hfile : Content.ofBytes (file.getD []) = .ok c) (h : Reachable call file s) :
    s.Sound c := by
  induction h with
  | start => exact sound_start hfile
  | step reachable i n step ih =>
    exact ih.step (Content.wellFormed_of_ofBytes hfile) (step_of_step? step)

/-! ## No call is stuck -/

/-- A call that has the lock can go on. -/
theorem exists_step_of_isInside (h : (s.point i).isInside = true) (n : Nat) :
    ∃ s', s.step? i n = some s' := by
  simp only [step?]
  cases hp : s.point i with
  | opening => rw [hp] at h; cases h
  | locking => rw [hp] at h; cases h
  | done r => rw [hp] at h; cases h
  | writing a rest offset => cases rest <;> exact ⟨_, rfl⟩
  | _ => exact ⟨_, rfl⟩

/-- As long as a call is not done, some call can take a step. -/
theorem Sound.exists_step (hs : s.Sound c) (hi : ∀ r, s.point i ≠ .done r) (n : Nat) :
    ∃ j s', s.step? j n = some s' := by
  -- whoever has the lock can go on; if nobody has it, call `i` can get it
  cases hholder : s.holder with
  | some j => exact ⟨j, exists_step_of_isInside ((hs.inside j).mp hholder) n⟩
  | none =>
    refine ⟨i, ?_⟩
    by_cases hinside : (s.point i).isInside = true
    · exact exists_step_of_isInside hinside n
    · simp only [step?]
      cases hp : s.point i with
      | opening => exact ⟨_, rfl⟩
      | locking => exact ⟨_, if_pos (by rw [hholder]; rfl)⟩
      | done r => exact absurd hp (hi r)
      | _ => rw [hp] at hinside; exact absurd rfl hinside

/-! ## No call goes on forever -/

/-- A step brings its call nearer to its end, and no other call further away from it. -/
theorem Step.distance_lt (h : Step s i s') :
    (fun j => (s'.point j).distance) < fun j => (s.point j).distance := by
  have hmove : ∀ p : FileCall (call i), p.distance < (s.point i).distance →
      (fun j => ((s.move i p).point j).distance) < fun j => (s.point j).distance := by
    intro p hp
    refine Pi.lt_def.mpr ⟨forall_move (P := fun j p => p.distance ≤ (s.point j).distance) hp.le
      fun _ _ => le_rfl, i, ?_⟩
    rw [point_move]
    exact hp
  cases h with
  | opens point => exact hmove _ (point ▸ FileCall.distance_lt_of_stage (Nat.lt_add_one _))
  | locks point _ => exact hmove _ (point ▸ FileCall.distance_lt_of_stage (Nat.lt_add_one _))
  | works work => exact hmove _ (FileCall.distance_lt_of_work work)
  | unlocks point => exact hmove _ (point ▸ FileCall.distance_lt_of_stage (Nat.lt_add_one _))

/-- Finitely many calls do not go on forever. -/
theorem acc_step [Finite ι] (s : Sharing call) :
    Acc (fun s' s : Sharing call => ∃ i n, s.step? i n = some s') s := by
  have hlt : ∀ {s' s : Sharing call}, (∃ i n, s.step? i n = some s') →
      (fun j => (s'.point j).distance) < fun j => (s.point j).distance := by
    rintro s' s ⟨i, n, h⟩
    exact (step_of_step? h).distance_lt
  exact Subrelation.accessible hlt
    (InvImage.accessible (fun s : Sharing call => fun j => (s.point j).distance)
      (wellFounded_lt.apply _))

theorem Step.exists_order_eq (h : Step s i s') : ∃ later, s'.order = s.order ++ later := by
  cases h with
  | locks => exact ⟨[i], rfl⟩
  | _ => exact ⟨[], (List.append_nil _).symm⟩

/-- Every run can be carried on until all calls are done. -/
theorem Reachable.exists_done [Finite ι] {file : Option Bytes}
    (hfile : Content.ofBytes (file.getD []) = .ok c) (h : Reachable call file s) :
    ∃ s' later, Reachable call file s' ∧ s'.order = s.order ++ later ∧
      ∀ i, ∃ r, s'.point i = .done r := by
  -- on the steps that are left
  induction acc_step s with
  | intro s _ ih =>
    by_cases hdone : ∀ i, ∃ r, s.point i = .done r
    · exact ⟨s, [], h, (List.append_nil _).symm, hdone⟩
    · obtain ⟨i, hi⟩ := not_forall.mp hdone
      obtain ⟨j, s₁, hstep⟩ := (h.sound hfile).exists_step (fun r hr => hi ⟨r, hr⟩) 0
      obtain ⟨first, hfirst⟩ := (step_of_step? hstep).exists_order_eq
      obtain ⟨s', later, hs', horder, hall⟩ := ih s₁ ⟨j, 0, hstep⟩ (h.step j 0 hstep)
      refine ⟨s', first ++ later, hs', ?_, hall⟩
      rw [horder, hfirst, List.append_assoc]

/-! ## Calls on an empty registry -/

/-- A registry file that is not there, or holds nothing but blanks, is shared by finitely many
calls.  Each call is answered what a registry in memory answers that the calls are made to one
after the other, in the order in which they got the lock of the file (a counter at its greatest
value fails in both); whenever nobody has the lock, the file is read as what that registry holds,
and so is the document written for it.  The calls do not go on forever, and they do not come to
rest before all are done.  The registry in memory serves each call from what the calls before it
left: the key or counter that the call names is set, and nothing else. -/
theorem serialized [Finite ι] {file : Option Bytes} {text : String}
    (htext : Text.Utf8.decode? (file.getD []) = some text) (hblank : Text.isBlankText text = true)
    (h : Reachable call file s) :
    s.order.Nodup ∧
    (∀ i r, s.point i = .done r → ∃ before after, s.order = before ++ i :: after ∧
      r = (Content.empty.replay (before.map call)).reply (call i)) ∧
    (s.holder = none →
      Content.ofBytes s.bytes = .ok (Content.empty.replay (s.order.map call))) ∧
    Content.ofBytes (Content.empty.replay (s.order.map call)).bytes =
      .ok (Content.empty.replay (s.order.map call)) ∧
    ((∀ i n, s.step? i n = none) →
      s.holder = none ∧ ∀ i, i ∈ s.order ∧ ∃ r, s.point i = .done r) ∧
    Acc (fun s' s : Sharing call => ∃ i n, s.step? i n = some s') s ∧
    ∀ before i after, s.order = before ++ i :: after →
      (Content.empty.replay (before.map call)).Serves (call i)
        ((Content.empty.replay (before.map call)).reply (call i))
        (Content.empty.replay ((before ++ [i]).map call)) := by
  have hs := h.sound (Content.ofBytes_of_blank htext hblank)
  have hwell : ∀ qs, (Content.empty.replay qs).WellFormed := Content.wellFormed_empty.replay
  have hserves : ∀ (before : List ι) (i : ι),
      (Content.empty.replay (before.map call)).Serves (call i)
        ((Content.empty.replay (before.map call)).reply (call i))
        (Content.empty.replay ((before ++ [i]).map call)) := by
    intro before i
    rw [List.map_append, List.map_singleton, Content.replay_concat]
    exact (hwell _).serves (call i)
  refine ⟨hs.nodup, hs.answered, hs.free, Content.ofBytes_bytes (hwell _), fun hrest => ?_,
    acc_step s, fun before i _ _ => hserves before i⟩
  have hdone : ∀ i, ∃ r, s.point i = .done r := by
    intro i
    by_contra hi
    obtain ⟨j, s', hstep⟩ := hs.exists_step (fun r hr => hi ⟨r, hr⟩) 0
    exact nomatch (hrest j 0).symm.trans hstep
  refine ⟨?_, fun i => ⟨?_, hdone i⟩⟩
  · cases hholder : s.holder with
    | none => rfl
    | some i =>
      obtain ⟨r, hr⟩ := hdone i
      have hinside := (hs.inside i).mp hholder
      rw [hr] at hinside
      cases hinside
  · obtain ⟨r, hr⟩ := hdone i
    rw [hs.entered, hr]
    rfl

/-- Two calls that increment one counter. -/
def race : Fin 2 → Request := fun _ => .increment "turns"

/-- With the first call in front, the second one is all that is left. -/
theorem order_race {s : Sharing race} {later : List (Fin 2)} (horder : s.order = 0 :: later)
    (hnodup : s.order.Nodup) (hmem : ∀ i, i ∈ s.order) : s.order = [0, 1] := by
  rw [horder] at hnodup hmem
  obtain ⟨hfresh, hlater⟩ := List.nodup_cons.mp hnodup
  have hone : ∀ i ∈ later, i = 1 := by
    intro i hi
    have hne : i ≠ 0 := fun h => hfresh (h ▸ hi)
    omega
  have hin : 1 ∈ later := (List.mem_cons.mp (hmem 1)).resolve_left (by decide)
  have hlength : later.length ≤ 1 := by
    rw [List.eq_replicate_of_mem hone] at hlater
    exact List.nodup_replicate.mp hlater
  obtain ⟨i, rfl⟩ := List.length_eq_one_iff.mp
    (Nat.le_antisymm hlength (List.length_pos_of_mem hin))
  rw [horder, hone i List.mem_cons_self]

/-- The file holds a blank and a line break, and both calls have opened it before one of them gets
the lock. -/
theorem race_serialized :
    Text.Utf8.decode? ((some [0x20, 0x0A] : Option Bytes).getD []) = some " \n" ∧
    Text.isBlankText " \n" = true ∧
    ∃ s : Sharing race, Reachable race (some [0x20, 0x0A]) s ∧ s.order = [0, 1] ∧
      s.point 0 = .done (.ok (1 : Int)) ∧ s.point 1 = .done (.ok (2 : Int)) ∧
      Content.ofBytes s.bytes = .ok ⟨[], [("turns", 2)]⟩ := by
  have htext : Text.Utf8.decode? ((some [0x20, 0x0A] : Option Bytes).getD []) = some " \n" := by
    have hread := Text.Utf8.decode?_encode [' ', '\n']
    rw [Text.Utf8.encode_ofList] at hread
    exact hread
  have hblank : Text.isBlankText " \n" = true := rfl
  have h₁ : Reachable race (some [0x20, 0x0A]) _ := .step .start 0 0 rfl
  have h₂ : Reachable race (some [0x20, 0x0A]) _ := .step h₁ 1 0 rfl
  have h₃ : Reachable race (some [0x20, 0x0A]) _ := .step h₂ 0 0 rfl
  obtain ⟨s, later, hs, horder, hdone⟩ := h₃.exists_done (Content.ofBytes_of_blank htext hblank)
  obtain ⟨hnodup, hreplies, hfree, -, hrest, -⟩ := serialized htext hblank hs
  have hstop : ∀ i n, s.step? i n = none := by
    intro i n
    obtain ⟨r, hr⟩ := hdone i
    simp only [step?, hr]
    rfl
  obtain ⟨hholder, hmem⟩ := hrest hstop
  have hboth := order_race horder hnodup fun i => (hmem i).1
  obtain ⟨r₀, hr₀⟩ := (hmem 0).2
  obtain ⟨r₁, hr₁⟩ := (hmem 1).2
  have hfirst : r₀ = .ok (1 : Int) := Answered.eq_reply [] (hreplies 0 r₀ hr₀) hnodup hboth
  have hsecond : r₁ = .ok (2 : Int) := Answered.eq_reply [0] (hreplies 1 r₁ hr₁) hnodup hboth
  have hfile := hfree hholder
  rw [hboth] at hfile
  exact ⟨htext, hblank, s, hs, hboth, hfirst ▸ hr₀, hsecond ▸ hr₁, hfile⟩

end Sharing

end Primacy.Registry
