/-
  Primacy.Proofs.Dialogue.Conversation

  Dialogues held with somebody who answers.  What he answers hangs on his state, which every answer
  may change; a request that he has no answer to leaves the dialogue without an end.
-/
import Primacy.Proofs.Dialogue.Exchange

namespace Primacy.Dialogue

variable {Q : Type} {A : Q → Type} {σ α β : Type} {answer? : σ → (q : Q) → Option (A q × σ)}

/-- What a dialogue goes through with somebody in state `s`, the earliest exchange first, what it
comes to, and the state that it leaves. -/
def converse? (answer? : σ → (q : Q) → Option (A q × σ)) :
    Dialogue Q A α → σ → Option (List (Exchange Q A) × α × σ)
  | .done a, s => some ([], a, s)
  | .ask q next, s =>
    match answer? s q with
    | none => none
    | some (r, s) => (converse? answer? (next r) s).map fun x => (⟨q, r⟩ :: x.1, x.2)

variable {d : Dialogue Q A α} {s s' s'' : σ} {past later : List (Exchange Q A)}

theorem converse?_ask {q : Q} {next : A q → Dialogue Q A α} {r : A q} {a : α}
    (answer : answer? s q = some (r, s'))
    (rest : (next r).converse? answer? s' = some (past, a, s'')) :
    (ask q next).converse? answer? s = some (⟨q, r⟩ :: past, a, s'') := by
  rw [converse?, answer]
  simp only [rest, Option.map_some]

/-- The second part of a dialogue begins with the state that the first one left. -/
theorem converse?_bind {f : α → Dialogue Q A β} {a : α} {b : β}
    (first : d.converse? answer? s = some (past, a, s'))
    (second : (f a).converse? answer? s' = some (later, b, s'')) :
    (d >>= f).converse? answer? s = some (past ++ later, b, s'') := by
  induction d generalizing s past with
  | done a' =>
    cases first
    exact second
  | ask q next ih =>
    rw [converse?] at first
    split at first
    · cases first
    · next r s₁ answer =>
      obtain ⟨⟨rest, a', s₂⟩, hrest, heq⟩ := Option.map_eq_some_iff.mp first
      cases heq
      exact converse?_ask answer (ih r hrest)

/-- What a dialogue goes through with somebody leads to its end. -/
theorem leads_of_converse? {a : α} (h : d.converse? answer? s = some (past, a, s')) :
    d.Leads past (.done a) := by
  induction d generalizing s past with
  | done a' =>
    cases h
    exact .here _
  | ask q next ih =>
    rw [converse?] at h
    split at h
    · cases h
    · next r s₁ answer =>
      obtain ⟨⟨rest, a', s₂⟩, hrest, heq⟩ := Option.map_eq_some_iff.mp h
      cases heq
      exact .on (ih r hrest)

end Primacy.Dialogue
