/-
  Primacy.Proofs.Registry.Answer

  What the answer to a request tells of a registry: an increment adds one to its counter and answers
  what it came to, a zero sets its counter, and nothing else touches it; only a put touches an
  entry.
-/
import Primacy.Registry.Content

namespace Primacy.Registry

/-- The counter that a request changes. -/
def Request.counter? : Request → Option String
  | increment name => some name
  | zero name => some name
  | _ => none

namespace Content

variable {c c' : Content} {name : String}

theorem counter_of_get? {n : Int} (h : c.counters.get? name = some n) : c.counter name = n := by
  rw [counter, h]
  rfl

theorem answer_increment {n : Int} (h : c.answer (.increment name) = .ok (n, c')) :
    n = c.counter name + 1 ∧ c'.counter name = n := by
  obtain ⟨hn, -, hcounters⟩ := does_of_answer h
  exact ⟨hn, counter_of_get? ((hcounters name).trans (if_pos rfl))⟩

theorem answer_zero {a : Unit} (h : c.answer (.zero name) = .ok (a, c')) :
    c'.counter name = 0 := by
  obtain ⟨-, hcounters⟩ := does_of_answer h
  exact counter_of_get? ((hcounters name).trans (if_pos rfl))

/-- A request leaves the counters alone that it is not about. -/
theorem counter_of_answer {q : Request} {a : q.Answer} (h : c.answer q = .ok (a, c'))
    (hq : q.counter? ≠ some name) : c'.counter name = c.counter name := by
  have hdoes := does_of_answer h
  have hkept : c'.counters.get? name = c.counters.get? name := by
    cases q with
    | put key value => rw [hdoes.1]
    | get key => rw [hdoes.2]
    | increment other => rw [hdoes.2.2 name, if_neg fun he => hq (congrArg some he.symm)]
    | zero other => rw [hdoes.2 name, if_neg fun he => hq (congrArg some he.symm)]
  rw [counter, counter, hkept]

/-- A request that sets no entry leaves them all alone. -/
theorem entries_of_answer {q : Request} {a : q.Answer} (h : c.answer q = .ok (a, c'))
    (hq : ∀ key value, q ≠ .put key value) : c'.entries = c.entries := by
  have hdoes := does_of_answer h
  cases q with
  | put key value => exact absurd rfl (hq key value)
  | get key => rw [hdoes.2]
  | increment name => exact hdoes.2.1
  | zero name => exact hdoes.1

end Content

end Primacy.Registry
