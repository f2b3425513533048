/-
  Primacy.Proofs.Files.Written

  A file that was written reads as it was written, whatever stood at its path before.
-/
import Primacy.Proofs.Files.Growth

namespace Primacy.Files.Tree

open Text.Utf8 (Bytes)

variable {t t' : Tree} {id : NodeId} {path : String} {bytes : Bytes}

theorem withoutSlash_eq (hslash : ¬ (path.toList.getLast? == some '/') = true) :
    withoutSlash path = path := by
  have hbare : (path.toList.reverse.dropWhile (· == '/')).reverse = path.toList := by
    rw [List.getLast?_eq_head?_reverse] at hslash
    cases hreverse : path.toList.reverse with
    | nil => rw [List.dropWhile_nil, List.reverse_nil, ← List.reverse_eq_nil_iff.mp hreverse]
    | cons c cs =>
      rw [hreverse] at hslash
      have hc : ¬ (c == '/') = true := by simpa using hslash
      have hdrop : (c :: cs).dropWhile (· == '/') = c :: cs := List.dropWhile_cons_of_neg hc
      rw [hdrop, ← hreverse, List.reverse_reverse]
  simp only [withoutSlash, hbare, String.ofList_toList, ite_self]

theorem node_overwrite (hid : id < t.nodes.size) (bytes : Bytes) (id' : NodeId) :
    (t.overwrite id bytes).node id' = if id' = id then .file bytes t.clock else t.node id' := by
  simp only [overwrite, tick, setNode, node, Array.getD_eq_getD_getElem?,
    Array.getElem?_setIfInBounds]
  by_cases h : id' = id
  · subst h
    simp [hid]
  · simp [h, Ne.symm h]

theorem grows_overwrite {old : Bytes} {written : Int} (hid : id < t.nodes.size)
    (hfile : t.node id = .file old written) (bytes : Bytes) : t.Grows (t.overwrite id bytes) where
  size := by simp [overwrite, tick, setNode]
  home := rfl
  node id' hid' := by
    rw [node_overwrite hid]
    split
    · next h =>
      subst h
      rw [hfile]
      exact .file
    · exact .refl _

/-- What was written is read. -/
theorem read_of_write (ht : t.IsClosed) (h : t.write path bytes = (t', .ok id)) :
    ∃ written, t'.read path = .ok (bytes, written) := by
  unfold write at h
  split at h
  · next t₁ id₁ hopen =>
    cases h
    obtain ⟨-, ht₁, hopens⟩ := openFile_spec ht hopen
    obtain ⟨hslash, hl, old, written, hfile⟩ := hopens.exists_file ht₁
    rw [withoutSlash_eq hslash] at hl
    have hid : id < t₁.nodes.size := isIn_of_lookup ht₁ hl
    have hl' := (grows_overwrite hid hfile bytes).lookup ht₁ hl rfl
    have hnode : (t₁.overwrite id bytes).node id = .file bytes t₁.clock :=
      (node_overwrite hid bytes id).trans (if_pos rfl)
    refine ⟨t₁.clock, ?_⟩
    simp only [read, find, hl', bind, Except.bind, hnode]
  · cases h

end Primacy.Files.Tree
