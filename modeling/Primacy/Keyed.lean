/-
  Primacy.Keyed

  Finite maps from texts, held as lists in increasing order of their keys, so that equal maps are
  equal lists and listing one needs no sorting.
-/

namespace Primacy

/-- Pairs in strictly increasing order of their keys. -/
abbrev Keyed (α : Type) : Type := List (String × α)

namespace Keyed

variable {α : Type}

def get? (m : Keyed α) (key : String) : Option α := (m.find? (·.1 == key)).map (·.2)

/-- Sets `key` to `a`. -/
def insert (m : Keyed α) (key : String) (a : α) : Keyed α :=
  match m with
  | [] => [(key, a)]
  | (k, b) :: m =>
    if key < k then (key, a) :: (k, b) :: m
    else if key = k then (key, a) :: m
    else (k, b) :: insert m key a

def erase (m : Keyed α) (key : String) : Keyed α := m.filter (·.1 != key)

/-- The map of a list of settings, of which a later one for the same key wins. -/
def ofPairs (pairs : List (String × α)) : Keyed α :=
  pairs.foldl (fun m p => insert m p.1 p.2) []

/-! ## Laws -/

@[simp] theorem get?_nil (key : String) : get? ([] : Keyed α) key = none := rfl

theorem get?_cons (k : String) (b : α) (m : Keyed α) (key : String) :
    get? ((k, b) :: m) key = if k = key then some b else get? m key := by
  by_cases h : k = key <;> simp [get?, h]

/-- Setting a key changes that key and no other. -/
theorem get?_insert (m : Keyed α) (key other : String) (a : α) :
    get? (insert m key a) other = if other = key then some a else get? m other := by
  induction m with
  | nil => by_cases h : key = other <;> simp [insert, get?_cons, h, eq_comm]
  | cons p m ih =>
    obtain ⟨k, b⟩ := p
    simp only [insert]
    split
    · rw [get?_cons]
      by_cases h : key = other <;> simp [h, eq_comm]
    · split
      · next h =>
        subst h
        rw [get?_cons, get?_cons]
        by_cases h : key = other <;> simp [h, eq_comm]
      · next h =>
        rw [get?_cons, get?_cons, ih]
        by_cases h1 : k = other
        · have : other ≠ key := fun e => h (e.symm.trans h1.symm)
          simp [h1, this]
        · simp [h1]

/-! ## Order -/

/-- The keys are in strictly increasing order. -/
def Ordered (m : Keyed α) : Prop := m.Pairwise (·.1 < ·.1)

theorem mem_of_get? {m : Keyed α} {key : String} {a : α} (h : get? m key = some a) :
    (key, a) ∈ m := by
  obtain ⟨⟨k, b⟩, hfind, rfl⟩ := Option.map_eq_some_iff.mp h
  have hkey : k = key := by simpa using List.find?_some hfind
  exact hkey ▸ List.mem_of_find?_eq_some hfind

theorem mem_insert {m : Keyed α} {key : String} {a : α} {p : String × α}
    (h : p ∈ insert m key a) : p = (key, a) ∨ p ∈ m := by
  induction m with
  | nil => exact .inl (List.mem_singleton.mp h)
  | cons q m ih =>
    obtain ⟨k, b⟩ := q
    simp only [insert] at h
    split at h
    · exact List.mem_cons.mp h
    · split at h
      · exact (List.mem_cons.mp h).imp_right (List.mem_cons_of_mem _)
      · rcases List.mem_cons.mp h with rfl | h
        · exact .inr List.mem_cons_self
        · exact (ih h).imp_right (List.mem_cons_of_mem _)

/-- Setting a key leaves the keys in order. -/
theorem Ordered.insert {m : Keyed α} (hm : Ordered m) (key : String) (a : α) :
    Ordered (insert m key a) := by
  induction m with
  | nil => exact List.pairwise_singleton _ _
  | cons q m ih =>
    obtain ⟨k, b⟩ := q
    obtain ⟨hk, hrest⟩ := List.pairwise_cons.mp hm
    simp only [Keyed.insert]
    split
    · next hlt =>
      refine List.pairwise_cons.mpr ⟨fun p hp => ?_, List.pairwise_cons.mpr ⟨hk, hrest⟩⟩
      rcases List.mem_cons.mp hp with rfl | hp
      · exact hlt
      · exact String.lt_trans hlt (hk p hp)
    · next hlt =>
      split
      · next heq =>
        subst heq
        exact List.pairwise_cons.mpr ⟨hk, hrest⟩
      · next hne =>
        have hgt : k < key := Decidable.byContradiction fun h =>
          hne (String.le_antisymm (String.not_lt.mp h) (String.not_lt.mp hlt))
        refine List.pairwise_cons.mpr ⟨fun p hp => ?_, ih hrest⟩
        rcases mem_insert hp with rfl | hp
        · exact hgt
        · exact hk p hp

theorem insert_of_gt {m : Keyed α} {key : String} (a : α) (h : ∀ p ∈ m, p.1 < key) :
    insert m key a = m ++ [(key, a)] := by
  induction m with
  | nil => rfl
  | cons q m ih =>
    obtain ⟨k, b⟩ := q
    have hlt : k < key := h _ List.mem_cons_self
    have hne : key ≠ k := by
      rintro rfl
      exact String.lt_irrefl _ hlt
    rw [insert, if_neg (String.lt_asymm hlt), if_neg hne,
      ih fun p hp => h p (List.mem_cons_of_mem _ hp)]
    rfl

/-- Pairs in the order of their keys are a map already. -/
theorem ofPairs_of_ordered {m : Keyed α} (hm : Ordered m) : ofPairs m = m := by
  have hfold : ∀ before : Keyed α, Ordered (before ++ m) →
      m.foldl (fun m p => Keyed.insert m p.1 p.2) before = before ++ m := by
    -- on the pairs that are left, all of them past those set before
    clear hm
    induction m with
    | nil => exact fun before _ => (List.append_nil before).symm
    | cons q m ih =>
      intro before h
      have hlast : Keyed.insert before q.1 q.2 = before ++ [q] :=
        insert_of_gt q.2 fun p hp => (List.pairwise_append.mp h).2.2 p hp q List.mem_cons_self
      have happend : before ++ q :: m = before ++ [q] ++ m := by
        rw [List.append_assoc, List.singleton_append]
      rw [List.foldl_cons, hlast, happend]
      exact ih _ (happend ▸ h)
  exact hfold [] hm

/-- The map of a list of settings is in the order of its keys. -/
theorem ordered_ofPairs (pairs : List (String × α)) : Ordered (ofPairs pairs) := by
  have hfold : ∀ m : Keyed α, Ordered m →
      Ordered (pairs.foldl (fun m p => Keyed.insert m p.1 p.2) m) := by
    induction pairs with
    | nil => exact fun m hm => hm
    | cons p pairs ih => exact fun m hm => ih _ (hm.insert p.1 p.2)
  exact hfold [] List.Pairwise.nil

/-- The map of a list of settings holds nothing else. -/
theorem mem_ofPairs {pairs : List (String × α)} {p : String × α} (h : p ∈ ofPairs pairs) :
    p ∈ pairs := by
  have hfold : ∀ m : Keyed α, p ∈ pairs.foldl (fun m p => Keyed.insert m p.1 p.2) m →
      p ∈ m ∨ p ∈ pairs := by
    clear h
    induction pairs with
    | nil => exact fun m hm => .inl hm
    | cons q pairs ih =>
      intro m hm
      rcases ih _ hm with hm | hm
      · rcases mem_insert hm with rfl | hm
        · exact .inr List.mem_cons_self
        · exact .inl hm
      · exact .inr (List.mem_cons_of_mem _ hm)
  exact (hfold [] h).resolve_left List.not_mem_nil

end Keyed

end Primacy
