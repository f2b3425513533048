/-
  Primacy.Text.Reader

  Readers: functions that take a value off the front of a text and leave the rest.  Repetition is
  total because a round that consumes nothing ends it.
-/

namespace Primacy.Text

/-- Reads an `α` off the front of a text, or stops with a fault. -/
def Reader (ε α : Type) : Type := List Char → Except ε (α × List Char)

namespace Reader

variable {ε α β σ : Type}

def fail (e : ε) : Reader ε α := fun _ => .error e

/-- The rest of the text, left in place. -/
def rest : Reader ε (List Char) := fun cs => .ok (cs, cs)

/-- The next character, left in place. -/
def peek : Reader ε (Option Char) := fun cs => .ok (cs.head?, cs)

/-- Drops `n` characters. -/
def skip (n : Nat) : Reader ε Unit := fun cs => .ok ((), cs.drop n)

instance : Monad (Reader ε) where
  pure a := fun cs => .ok (a, cs)
  bind r f := fun cs =>
    match r cs with
    | .error e => .error e
    | .ok (a, cs) => f a cs

/-- Takes characters while `p` holds. -/
def takeWhile (p : Char → Bool) : Reader ε (List Char) := fun cs =>
  .ok (cs.takeWhile p, cs.dropWhile p)

/-- Takes the next character, if there is one. -/
def next : Reader ε (Option Char) := fun cs =>
  match cs with
  | [] => .ok (none, [])
  | c :: cs => .ok (some c, cs)

/-- Drops `c` if it comes next and says whether it did. -/
def accept (c : Char) : Reader ε Bool := fun cs =>
  match cs with
  | [] => .ok (false, [])
  | d :: rest => if d = c then .ok (true, rest) else .ok (false, cs)

/-- Drops `word` if it comes next and says whether it did. -/
def acceptWord (word : String) : Reader ε Bool := fun cs =>
  if word.toList.isPrefixOf cs then .ok (true, cs.drop word.toList.length) else .ok (false, cs)

/-- Runs `round` until it gives an answer.  A round that asks for another one without having
consumed anything is a fault. -/
def iterate (stuck : ε) (round : σ → Reader ε (σ ⊕ α)) (s : σ) (cs : List Char) :
    Except ε (α × List Char) :=
  match round s cs with
  | .error e => .error e
  | .ok (.inr a, rest) => .ok (a, rest)
  | .ok (.inl s, rest) =>
    if rest.length < cs.length then iterate stuck round s rest else .error stuck
termination_by cs.length

/-! ## Laws -/

variable {cs rest : List Char} {e : ε}

/-- What follows a reader goes on with what it has left. -/
theorem bind_of_ok {r : Reader ε α} {a : α} (h : r cs = .ok (a, rest)) (f : α → Reader ε β) :
    (r >>= f) cs = f a rest := by
  show (match r cs with
    | Except.error e => Except.error e
    | Except.ok (a, cs) => f a cs) = _
  rw [h]

theorem bind_of_error {r : Reader ε α} (h : r cs = .error e) (f : α → Reader ε β) :
    (r >>= f) cs = .error e := by
  show (match r cs with
    | Except.error e => Except.error e
    | Except.ok (a, cs) => f a cs) = _
  rw [h]

variable {stuck : ε} {round : σ → Reader ε (σ ⊕ α)} {s s' : σ} {a : α}

theorem iterate_of_inl (h : round s cs = .ok (.inl s', rest)) (hlt : rest.length < cs.length) :
    iterate stuck round s cs = iterate stuck round s' rest := by
  rw [iterate, h]
  simp only [if_pos hlt]

theorem iterate_of_error (h : round s cs = .error e) : iterate stuck round s cs = .error e := by
  rw [iterate, h]

theorem iterate_of_inr (h : round s cs = .ok (.inr a, rest)) :
    iterate stuck round s cs = .ok (a, rest) := by
  rw [iterate, h]

end Reader

end Primacy.Text
