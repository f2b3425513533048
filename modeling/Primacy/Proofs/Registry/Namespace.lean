/-
  Primacy.Proofs.Registry.Namespace

  Whose entry a key is for.  A key that a node has for itself begins with a stem, which is its role
  and a word for what is kept, and ends with the suffix of the node.  Nothing marks where the stem
  ends, so the label of one node may begin with what another node has at the end of its role.  This
  is the only way in which nodes of different suffixes come to share a key.
-/
import Primacy.Proofs.Text.Numeral
import Primacy.Registry.Key

namespace Primacy

namespace Text

theorem underscore_not_mem_toDigits (n : Nat) : '_' ∉ Nat.toDigits 10 n :=
  fun h => nomatch isDigit_toDigits h

theorem toDigits_inj {n m : Nat} (h : Nat.toDigits 10 n = Nat.toDigits 10 m) : n = m := by
  have hread := natural?_toDigits n
  rw [h, natural?_toDigits] at hread
  exact (Option.some.inj hread).symm

/-- A character that does not occur again has nothing in front of it. -/
theorem eq_nil_of_cons_eq {α : Type} {x : α} {gap back back' : List α} (h : x ∉ back)
    (heq : x :: back = gap ++ x :: back') : gap = [] ∧ back = back' := by
  cases gap with
  | nil => exact ⟨rfl, (List.cons.inj heq).2⟩
  | cons y gap =>
    have hmem : x ∈ back := (List.cons.inj heq).2 ▸ List.mem_append_right gap List.mem_cons_self
    exact absurd hmem h

/-- Where a character occurs last, a text is cut in one way. -/
theorem append_cons_eq_iff {α : Type} {x : α} {front front' back back' : List α} (h : x ∉ back)
    (h' : x ∉ back') :
    front ++ x :: back = front' ++ x :: back' ↔ front = front' ∧ back = back' := by
  constructor
  · intro heq
    rcases List.append_eq_append_iff.mp heq with ⟨gap, rfl, hback⟩ | ⟨gap, rfl, hback⟩
    · obtain ⟨rfl, hsame⟩ := eq_nil_of_cons_eq h hback
      exact ⟨(List.append_nil _).symm, hsame⟩
    · obtain ⟨rfl, hsame⟩ := eq_nil_of_cons_eq h' hback
      exact ⟨List.append_nil _, hsame.symm⟩
  · rintro ⟨rfl, rfl⟩
    rfl

end Text

open Text

/-! ## Suffixes -/

namespace Identity

variable {i j : Identity}

theorem toList_suffix (i : Identity) :
    i.suffix.toList = i.label.toList ++ '_' :: Nat.toDigits 10 i.processId := by
  show (i.label ++ "_" ++ Nat.repr i.processId).toList = _
  rw [String.toList_append, String.toList_append, Nat.toList_repr, List.append_assoc]
  rfl

/-- The process id of a suffix stands behind its last underscore, whatever stands in front. -/
theorem append_suffix_eq_iff (front front' : List Char) :
    front ++ i.suffix.toList = front' ++ j.suffix.toList ↔
      front ++ i.label.toList = front' ++ j.label.toList ∧ i.processId = j.processId := by
  rw [toList_suffix, toList_suffix, ← List.append_assoc, ← List.append_assoc,
    append_cons_eq_iff (underscore_not_mem_toDigits _) (underscore_not_mem_toDigits _)]
  exact and_congr_right fun _ => ⟨toDigits_inj, congrArg _⟩

theorem suffix_eq_iff : i.suffix = j.suffix ↔ i.label = j.label ∧ i.processId = j.processId := by
  rw [← String.toList_inj, ← String.toList_inj]
  exact append_suffix_eq_iff [] []

end Identity

namespace Registry

/-! ## Keys -/

/-- What a node keeps in the registry about itself. -/
inductive NodeEntry where
  | host
  | port
  | logDir
  deriving DecidableEq

/-- Keys that belong to no node: the primary record, and when and whether nodes were brought
down. -/
def reservedKeys : List String :=
  [primaryHostKey, primaryPortKey, storeCycledTimeKey, leadCycledTimeKey, storeCycledKey,
    leadCycledKey]

namespace NodeEntry

variable {k l : NodeEntry} {i j : Identity}

def key : NodeEntry → Identity → String
  | host => hostKey
  | port => portKey
  | logDir => logDirKey

/-- What the key begins with, which is the role where the entry is for one. -/
def lead : NodeEntry → Identity → String
  | host, i => i.role
  | port, i => i.role
  | logDir, _ => ""

/-- What the entry holds, in a word. -/
def word : NodeEntry → String
  | host => "Host"
  | port => "Port"
  | logDir => "logDir"

/-- What stands in front of the suffix. -/
def stem (k : NodeEntry) (i : Identity) : String := k.lead i ++ k.word ++ "_"

theorem key_eq (k : NodeEntry) (i : Identity) : k.key i = k.stem i ++ i.suffix := by
  cases k with
  | host =>
    have hword : "Host_" = "Host" ++ "_" := rfl
    show i.role ++ "Host_" ++ i.suffix = i.role ++ "Host" ++ "_" ++ i.suffix
    rw [hword, ← String.append_assoc]
  | port =>
    have hword : "Port_" = "Port" ++ "_" := rfl
    show i.role ++ "Port_" ++ i.suffix = i.role ++ "Port" ++ "_" ++ i.suffix
    rw [hword, ← String.append_assoc]
  | logDir => rfl

theorem toList_stem (k : NodeEntry) (i : Identity) :
    (k.stem i).toList = (k.lead i).toList ++ k.word.toList ++ ['_'] := by
  rw [stem, String.toList_append, String.toList_append]
  rfl

theorem underscore_not_mem_word (k : NodeEntry) : '_' ∉ k.word.toList := by
  cases k <;> decide

theorem underscore_mem_stem (k : NodeEntry) (i : Identity) : '_' ∈ (k.stem i).toList := by
  rw [toList_stem]
  exact List.mem_append_right _ List.mem_cons_self

theorem underscore_mem_key (k : NodeEntry) (i : Identity) : '_' ∈ (k.key i).toList := by
  rw [key_eq, String.toList_append]
  exact List.mem_append_left _ (underscore_mem_stem k i)

/-- Keys are the same if they are so up to the label, for one process id. -/
theorem key_eq_key_iff : k.key i = l.key j ↔
    (k.stem i).toList ++ i.label.toList = (l.stem j).toList ++ j.label.toList ∧
      i.processId = j.processId := by
  rw [key_eq, key_eq, ← String.toList_inj, String.toList_append, String.toList_append,
    Identity.append_suffix_eq_iff]

/-! ## One node -/

theorem getLast?_append_word (front : List Char) (k : NodeEntry) :
    (front ++ k.word.toList).getLast? = if k = .logDir then some 'r' else some 't' := by
  cases k <;> simp [word]

theorem stem_inj (h : k.stem i = l.stem i) : k = l := by
  rw [← String.toList_inj, toList_stem, toList_stem, List.append_left_inj] at h
  -- the last letter of the word tells the entries of a role from the one that is for all roles
  have hlast := congrArg List.getLast? h
  rw [getLast?_append_word, getLast?_append_word] at hlast
  cases k <;> cases l <;> simp [lead, word] at h hlast ⊢

/-- A node has a key of its own for each entry. -/
theorem key_inj (h : k.key i = l.key i) : k = l := by
  obtain ⟨hfront, -⟩ := key_eq_key_iff.mp h
  exact stem_inj (String.toList_inj.mp (List.append_cancel_right hfront))

theorem key_not_mem_reservedKeys (k : NodeEntry) (i : Identity) : k.key i ∉ reservedKeys := by
  have hplain : ∀ key ∈ reservedKeys, '_' ∉ key.toList := by decide
  exact fun h => hplain _ h (underscore_mem_key k i)

/-! ## Two nodes -/

/-- The label of `i` runs into the stem of `j`: where the stem of `i` is over, the role of `j` goes
on with what the label of `i` begins with, and the rest of that label is what the key of `j` has
behind the role, up to the process id. -/
def RunsInto (k l : NodeEntry) (i j : Identity) : Prop :=
  i.processId = j.processId ∧
    ∃ gap, l.lead j = k.stem i ++ gap ∧ i.label = gap ++ l.word ++ "_" ++ j.label

/-- Where one stem begins with another one, they are the same, or the longer one has the other in
its role. -/
theorem of_stem_append {gap : List Char} (h : (l.stem j).toList = (k.stem i).toList ++ gap) :
    gap = [] ∨ ∃ rest, gap = rest ++ l.word.toList ++ ['_'] ∧
      (l.lead j).toList = (k.stem i).toList ++ rest := by
  rcases List.eq_nil_or_concat gap with hnil | ⟨front, c, rfl⟩
  · exact .inl hnil
  · rw [toList_stem l, List.concat_eq_append, ← List.append_assoc] at h
    obtain ⟨hbefore, hlast⟩ := List.append_inj' h rfl
    rw [toList_stem k, List.append_assoc, List.singleton_append] at hbefore
    -- the underscore behind the shorter stem cannot stand in the word of the longer one
    have hword := underscore_not_mem_word l
    refine .inr ?_
    rcases List.append_eq_append_iff.mp hbefore with ⟨rest, -, hrest⟩ | ⟨rest, hlead, hrest⟩
    · exact absurd (hrest ▸ List.mem_append_right _ List.mem_cons_self) hword
    · cases rest with
      | nil =>
        rw [List.nil_append] at hrest
        exact absurd (hrest ▸ List.mem_cons_self) hword
      | cons x rest =>
        obtain ⟨rfl, rfl⟩ := List.cons.inj hrest
        refine ⟨rest, ?_, ?_⟩
        · rw [List.concat_eq_append, ← hlast]
          rfl
        · rw [hlead, toList_stem k, List.append_assoc _ ['_']]
          rfl

theorem runsInto_or_of_append {gap : List Char} (same : i.processId = j.processId)
    (hstem : (l.stem j).toList = (k.stem i).toList ++ gap)
    (hlabel : i.label.toList = gap ++ j.label.toList) :
    i.suffix = j.suffix ∨ RunsInto k l i j := by
  rcases of_stem_append hstem with rfl | ⟨rest, rfl, hlead⟩
  · exact .inl (Identity.suffix_eq_iff.mpr ⟨String.toList_inj.mp hlabel, same⟩)
  · refine .inr ⟨same, String.ofList rest, ?_, ?_⟩
    · rw [← String.toList_inj, hlead, String.toList_append, String.toList_ofList]
    · rw [← String.toList_inj, hlabel]
      simp only [String.toList_append, String.toList_ofList]
      rfl

theorem RunsInto.key_eq (h : RunsInto k l i j) : k.key i = l.key j := by
  obtain ⟨same, gap, hlead, hlabel⟩ := h
  refine key_eq_key_iff.mpr ⟨?_, same⟩
  rw [toList_stem l, hlead, hlabel]
  simp only [String.toList_append, List.append_assoc]
  rfl

/-- An underscore has to be in the role of one node and in the label of the other. -/
theorem RunsInto.underscore_mem (h : RunsInto k l i j) :
    '_' ∈ j.role.toList ∧ '_' ∈ i.label.toList := by
  obtain ⟨-, gap, hlead, hlabel⟩ := h
  have hmem : '_' ∈ (l.lead j).toList := by
    rw [hlead, String.toList_append]
    exact List.mem_append_left _ (underscore_mem_stem k i)
  refine ⟨?_, ?_⟩
  · cases l with
    | host => exact hmem
    | port => exact hmem
    | logDir => exact nomatch hmem
  · rw [hlabel]
    simp only [String.toList_append, List.mem_append]
    exact .inl (.inr (List.mem_singleton.mpr rfl))

theorem not_runsInto
    (plain : '_' ∉ j.role.toList ∨ '_' ∉ i.label.toList ∨ i.processId ≠ j.processId) :
    ¬ RunsInto k l i j := by
  intro h
  obtain ⟨hrole, hlabel⟩ := h.underscore_mem
  rcases plain with hplain | hplain | hplain
  · exact hplain hrole
  · exact hplain hlabel
  · exact hplain h.1

/-- Nodes of different suffixes share a key exactly if the label of one runs into the stem of the
other. -/
theorem key_eq_iff_runsInto (apart : i.suffix ≠ j.suffix) :
    k.key i = l.key j ↔ RunsInto k l i j ∨ RunsInto l k j i := by
  constructor
  · intro h
    obtain ⟨hfront, same⟩ := key_eq_key_iff.mp h
    rcases List.append_eq_append_iff.mp hfront with ⟨gap, hstem, hlabel⟩ | ⟨gap, hstem, hlabel⟩
    · exact .inl ((runsInto_or_of_append same hstem hlabel).resolve_left apart)
    · exact .inr ((runsInto_or_of_append same.symm hstem hlabel).resolve_left apart.symm)
  · rintro (h | h)
    · exact h.key_eq
    · exact h.key_eq.symm

/-- Nodes of different suffixes share a key exactly if they have one process id and the label of one
runs into the stem of the other, which takes an underscore in a role and in a label.  Each node has
three keys that differ, and none of them is reserved. -/
theorem shared_key_iff (apart : i.suffix ≠ j.suffix) :
    (∀ k l : NodeEntry, k.key i = l.key j ↔ RunsInto k l i j ∨ RunsInto l k j i) ∧
    ((∀ n ∈ [i, j], '_' ∉ n.role.toList) ∨ (∀ n ∈ [i, j], '_' ∉ n.label.toList) ∨
        i.processId ≠ j.processId → ∀ k l : NodeEntry, k.key i ≠ l.key j) ∧
    ∀ n : Identity, (∀ k l : NodeEntry, k.key n = l.key n → k = l) ∧
      ∀ k : NodeEntry, k.key n ∉ reservedKeys := by
  refine ⟨fun k l => key_eq_iff_runsInto apart, fun plain k l h => ?_,
    fun n => ⟨fun k l => key_inj, fun k => key_not_mem_reservedKeys k n⟩⟩
  simp only [List.forall_mem_cons, List.not_mem_nil, false_imp_iff, implies_true, and_true] at plain
  rcases (key_eq_iff_runsInto apart).mp h with hruns | hruns
  · exact not_runsInto (plain.imp (·.2) (Or.imp_left (·.1))) hruns
  · exact not_runsInto (plain.imp (·.1) (Or.imp (·.2) Ne.symm)) hruns

/-! ## A key of two nodes -/

/-- A lead whose label goes on as the role of `nestedLead` does. -/
def longLabelled : Identity := ⟨"10.0.0.1", 1001, "lead", "euHost_1"⟩

def nestedLead : Identity := ⟨"10.0.0.2", 1001, "leadHost_eu", "1"⟩

/-- A lead of the same process id whose role and label are plain. -/
def plainLead : Identity := ⟨"10.0.0.3", 1001, "lead", "lead1"⟩

theorem runsInto_nestedLead : RunsInto .host .host longLabelled nestedLead :=
  ⟨rfl, "eu", by decide, by decide⟩

theorem longLabelled_shared_key :
    longLabelled.suffix ≠ nestedLead.suffix ∧ hostKey longLabelled = hostKey nestedLead ∧
    longLabelled.suffix ≠ plainLead.suffix ∧
      ∀ k l : NodeEntry, k.key longLabelled ≠ l.key plainLead := by
  have hnested : longLabelled.suffix ≠ nestedLead.suffix := by decide
  have hplain : longLabelled.suffix ≠ plainLead.suffix := by decide
  obtain ⟨hshared, -, -⟩ := shared_key_iff hnested
  obtain ⟨-, hapart, -⟩ := shared_key_iff hplain
  exact ⟨hnested, (hshared .host .host).mpr (.inl runsInto_nestedLead), hplain,
    hapart (.inl (by decide))⟩

/-- Different suffixes do not keep the keys of two nodes apart. -/
theorem not_keys_apart : ¬ ∀ i j : Identity, i.processId ≤ Identity.maxProcessId →
    j.processId ≤ Identity.maxProcessId → i.suffix ≠ j.suffix →
    ∀ k l : NodeEntry, k.key i ≠ l.key j := by
  intro hall
  exact hall longLabelled nestedLead (by decide) (by decide) (by decide) .host .host
    runsInto_nestedLead.key_eq

end NodeEntry

end Registry

end Primacy
