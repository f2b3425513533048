/-
  Primacy.Proofs.Registry.Record

  The primary record as a reader finds it.  A reader makes its requests one after the other, and
  others may change the registry in between, so each request is answered from what the registry
  holds at that moment.
-/
import Primacy.Proofs.Registry.Answer
import Primacy.Proofs.Registry.FileCall
import Primacy.Proofs.Text.Numeral

namespace Primacy

namespace Text

/-- A number that is small enough is read back from its text. -/
theorem natUpTo?_toString {n max : Nat} (h : n ≤ max) :
    natUpTo? max (trimmed (toString n)) = some n := by
  have hdigits : (toString (n : Int)).toList = Nat.toDigits 10 n := by
    rw [toList_toString, if_neg (Int.not_lt.mpr (Int.natCast_nonneg n))]
    rfl
  have hunsigned : unsigned? (Nat.toDigits 10 n) = some n := by
    have hread := natural?_toDigits n
    unfold unsigned?
    split
    · next heq =>
      -- a digit is no sign
      have hsign : isDigit '+' = true := isDigit_toDigits (n := n) (heq ▸ List.mem_cons_self)
      exact nomatch hsign
    · exact hread
  show natUpTo? max (trimmed (toString (n : Int))) = some n
  rw [natUpTo?, trimmed_toString, hdigits, hunsigned, Option.filter_some, if_pos]
  exact decide_eq_true h

end Text

namespace Registry

/-! ## Requests at successive moments -/

/-- What a procedure ends with whose requests are answered from what a registry in memory holds at
successive moments, if these are enough. -/
def answeredAt {α : Type} : List Content → Dialogue Request Request.Reply α → Option α
  | _, .done a => some a
  | c :: cs, .ask q next => answeredAt cs (next (c.reply q))
  | [], .ask .. => none

variable {c c' : Content} {host : String} {port : Nat}

/-- A reader that finds both halves, each at its own moment, reads the record they make up. -/
theorem load_answeredAt (first : c.entries.get? primaryHostKey = some host)
    (second : c'.entries.get? primaryPortKey = some (toString port))
    (small : port ≤ Text.nat16Max) :
    answeredAt [c, c'] PrimaryRecord.load.run = some (.ok (some ⟨host, port⟩)) := by
  have hhost : c.reply (.get primaryHostKey) = .ok (some host) := congrArg Except.ok first
  have hport : c'.reply (.get primaryPortKey) = .ok (some (toString port)) :=
    congrArg Except.ok second
  show answeredAt [c'] _ = _
  rw [hhost]
  show answeredAt [] _ = _
  rw [hport]
  show some (PrimaryRecord.ofEntries (some host) (some (toString port))) = _
  rw [PrimaryRecord.ofEntries, Text.natUpTo?_toString small]

/-! ## Other requests -/

/-- A request leaves the entries alone that it does not set. -/
theorem Content.get?_after (q : Request) (key : String) (h : ∀ value, q ≠ .put key value) :
    (c.after q).entries.get? key = c.entries.get? key := by
  cases hanswer : c.answer q with
  | error e => rw [(reply_after_of_error hanswer).2]
  | ok x =>
    rw [(reply_after_of_ok hanswer).2]
    cases q with
    | put other value =>
      have hne : key ≠ other := by
        rintro rfl
        exact h value rfl
      cases hanswer
      exact (Keyed.get?_insert ..).trans (if_neg hne)
    | _ => rw [entries_of_answer hanswer nofun]

theorem Content.get?_after_put (key value : String) :
    (c.after (.put key value)).entries.get? key = some value := by
  show (c.entries.insert key value).get? key = _
  rw [Keyed.get?_insert, if_pos rfl]

end Registry

end Primacy
