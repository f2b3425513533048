/-
  Primacy.Proofs.Json.Typed

  What a typed reader gives is of its type: an integer is within its bounds, the members of an
  object are what the reader of its members gives, and a record keeps what each of its fields
  keeps.
-/
import Primacy.Json.Shape

namespace Primacy.Json

open Text (Reader)

variable {α β σ : Type} {r : Reader Fault α} {P : α → Prop} {Q : β → Prop}

/-- Whatever `r` reads satisfies `P`. -/
def Yields (r : Reader Fault α) (P : α → Prop) : Prop :=
  ∀ cs a rest, r cs = .ok (a, rest) → P a

/-! ## Readers one after the other -/

theorem yields_fail (e : Fault) (P : α → Prop) : Yields (Reader.fail e) P := by
  intro cs a rest h
  cases h

theorem yields_pure {a : α} (h : P a) : Yields (pure a) P := by
  intro cs b rest hb
  cases hb
  exact h

theorem Yields.bind {f : α → Reader Fault β} (hr : Yields r P) (hf : ∀ a, P a → Yields (f a) Q) :
    Yields (r >>= f) Q := by
  intro cs b rest h
  cases hread : r cs with
  | error e => cases (Reader.bind_of_error hread f).symm.trans h
  | ok x =>
    obtain ⟨a, mid⟩ := x
    exact hf a (hr cs a mid hread) mid b rest ((Reader.bind_of_ok hread f).symm.trans h)

/-- Whatever was read before. -/
theorem yields_bind {f : α → Reader Fault β} (hf : ∀ a, Yields (f a) Q) : Yields (r >>= f) Q :=
  Yields.bind (P := fun _ => True) (fun _ _ _ _ => trivial) fun a _ => hf a

/-- What every round of a repetition keeps holds at its end. -/
theorem yields_iterate {round : σ → Reader Fault (σ ⊕ α)} (Inv : σ → Prop)
    (hround : ∀ s, Inv s → Yields (round s) (Sum.elim Inv P)) {s : σ} (hs : Inv s)
    (stuck : Fault) : Yields (Reader.iterate stuck round s) P := by
  intro cs a rest h
  -- on the rounds
  fun_induction Reader.iterate stuck round s cs with
  | case1 s cs e hread => cases h
  | case2 s cs b rest' hread =>
    cases h
    exact hround s hs cs _ _ hread
  | case3 s cs s' rest' hread hlt ih => exact ih (hround s hs cs _ _ hread) h
  | case4 s cs s' rest' hread hlt => cases h

/-! ## Values -/

/-- A value of the wrong kind is a fault in any case. -/
theorem yields_wrongKind (P : α → Prop) : Yields wrongKind P := by
  refine yields_bind fun c => ?_
  split
  · exact yields_fail _ P
  · exact yields_bind fun _ => yields_bind fun _ => yields_fail _ P
  · exact yields_bind fun _ => yields_bind fun _ => yields_fail _ P
  · exact yields_bind fun _ => yields_bind fun _ => yields_fail _ P
  · exact yields_bind fun _ => yields_bind fun _ => yields_fail _ P
  · exact yields_fail _ P
  · exact yields_fail _ P
  · split
    · exact yields_bind fun _ => yields_fail _ P
    · exact yields_fail _ P

theorem yields_integer (low high : Int) : Yields (integer low high) fun n => low ≤ n ∧ n ≤ high := by
  refine yields_bind fun c => ?_
  split
  · split
    · refine yields_bind fun m => ?_
      split
      · split
        · next h => exact yields_pure h
        · exact yields_fail _ _
      · exact yields_fail _ _
    · exact yields_wrongKind _
  · exact yields_wrongKind _

theorem yields_members (hr : Yields r P) : Yields (members r) fun ms => ∀ m ∈ ms, P m.2 := by
  refine yields_bind fun c => ?_
  split
  · refine yields_bind fun _ => ?_
    refine yields_iterate (fun before => ∀ m ∈ before, P m.2) (fun before hbefore => ?_)
      (List.forall_mem_nil _) .malformed
    refine yields_bind fun name => ?_
    split
    · refine yields_pure ?_
      intro m hm
      exact hbefore m (List.mem_reverse.mp hm)
    · refine yields_bind fun _ => hr.bind fun a ha => yields_pure ?_
      exact List.forall_mem_cons.mpr ⟨ha, hbefore⟩
  · exact yields_wrongKind _

/-! ## Records -/

namespace Record

variable {fields : List (Field σ)} {P : σ → Prop}
  (hfields : ∀ field ∈ fields, Yields field.read fun set => ∀ s, P s → P (set s))
include hfields

theorem yields_memberRound (first : Bool) {p : Partial σ} (hp : P p.value) :
    Yields (memberRound fields first p)
      (Sum.elim (fun p => P p.value) fun p => P p.value) := by
  refine yields_bind fun name => ?_
  split
  · exact yields_pure hp
  · split
    · exact yields_bind fun _ => yields_bind fun _ => yields_pure hp
    · next field hfield =>
      split
      · exact yields_fail _ _
      · refine yields_bind fun _ => ?_
        refine (hfields field (List.mem_of_find?_eq_some hfield)).bind fun set hset => ?_
        exact yields_pure (hset p.value hp)

theorem yields_fromObject {init : σ} (hinit : P init) :
    Yields (fromObject fields init) fun p => P p.value := by
  refine yields_iterate (fun s => P s.2.value) (fun s hs => ?_) hinit .malformed
  refine (yields_memberRound hfields s.1 hs).bind fun x hx => ?_
  cases x with
  | inl p => exact yields_pure hx
  | inr p => exact yields_pure hx

theorem yields_fromArray (first : Bool) {p : Partial σ} (hp : P p.value) :
    Yields (fromArray first p fields) fun p => P p.value := by
  -- on the fields that are left
  induction fields generalizing first p with
  | nil =>
    refine yields_bind fun c => ?_
    split
    · exact yields_fail _ _
    · exact yields_bind fun _ => yields_pure hp
    · exact yields_fail _ _
  | cons field fields ih =>
    have hread := hfields field List.mem_cons_self
    have hrest : Yields (do
        let set ← field.read
        fromArray false ⟨field.name :: p.seen, set p.value⟩ fields) fun p => P p.value :=
      hread.bind fun set hset =>
        ih (fun field hfield => hfields field (List.mem_cons_of_mem _ hfield)) false (hset _ hp)
    refine yields_bind fun c => ?_
    split
    · exact yields_fail _ _
    · exact yields_bind fun _ => yields_pure hp
    · -- behind the comma that elements other than the first one have in front of them
      dsimp only
      split
      · split
        · refine yields_bind fun _ => yields_bind fun d => ?_
          split
          · exact yields_bind fun _ => hrest
          · exact yields_bind fun _ => hrest
          · exact hrest
        · exact yields_bind fun _ => hrest
      · exact hrest

end Record

/-- What all fields of a record keep holds of the record. -/
theorem yields_record {fields : List (Field σ)} {P : σ → Prop}
    (hfields : ∀ field ∈ fields, Yields field.read fun set => ∀ s, P s → P (set s)) {init : σ}
    (hinit : P init) : Yields (record fields init) P := by
  have hend : ∀ p : Record.Partial σ, P p.value →
      Yields (if fields.all fun f => !f.required || p.seen.contains f.name then pure p.value
        else Reader.fail .data) P := by
    intro p hp
    split
    · exact yields_pure hp
    · exact yields_fail _ P
  refine yields_bind fun c => ?_
  split
  · exact yields_bind fun _ => (Record.yields_fromArray hfields true hinit).bind hend
  · exact yields_bind fun _ => (Record.yields_fromObject hfields hinit).bind hend
  · exact (yields_wrongKind fun p : Record.Partial σ => P p.value).bind hend

/-! ## Whole texts -/

theorem bind_eq_ok {x : Except Fault α} {f : α → Except Fault β} {b : β}
    (h : x >>= f = .ok b) : ∃ a, x = .ok a ∧ f a = .ok b := by
  cases x with
  | error e => cases h
  | ok a => exact ⟨a, rfl, h⟩

theorem Yields.read (hr : Yields r P) {s : String} {a : α} (h : Json.read r s = .ok a) : P a := by
  rw [Json.read] at h
  obtain ⟨⟨b, rest⟩, hread, hend⟩ := bind_eq_ok h
  obtain ⟨⟨_ | d, rest'⟩, htoken, hend⟩ := bind_eq_ok hend
  · cases hend
    exact hr _ _ _ hread
  · cases hend

end Primacy.Json
