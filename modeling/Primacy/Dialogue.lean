/-
  Primacy.Dialogue

  A dialogue is a procedure that works through requests to others: it is done, or it waits for the
  answer to one request and goes on from there.  What others do in between is not its business, so
  a dialogue can be run against any surroundings and broken off at any request.
-/

namespace Primacy

/-- A procedure that makes requests `q : Q`, each answered by an `A q`, and ends with an `α`. -/
inductive Dialogue (Q : Type) (A : Q → Type) (α : Type) where
  | done (a : α)
  | ask (q : Q) (next : A q → Dialogue Q A α)

namespace Dialogue

variable {Q R : Type} {A : Q → Type} {B : R → Type} {α β : Type}

protected def bind : Dialogue Q A α → (α → Dialogue Q A β) → Dialogue Q A β
  | .done a, f => f a
  | .ask q next, f => .ask q fun a => (next a).bind f

instance : Monad (Dialogue Q A) where
  pure := .done
  bind := .bind

/-- The dialogue of one request. -/
def request (q : Q) : Dialogue Q A (A q) := .ask q .done

/-- The same dialogue with requests of another kind. -/
def embed (f : Q → R) (back : ∀ q, B (f q) → A q) : Dialogue Q A α → Dialogue R B α
  | .done a => .done a
  | .ask q next => .ask (f q) fun b => (next (back q b)).embed f back

/-! ## Laws -/

@[simp] theorem done_bind (a : α) (f : α → Dialogue Q A β) : (done a >>= f) = f a := rfl

@[simp] theorem ask_bind (q : Q) (next : A q → Dialogue Q A α) (f : α → Dialogue Q A β) :
    (ask q next >>= f) = ask q fun a => next a >>= f := rfl

instance : LawfulMonad (Dialogue Q A) := LawfulMonad.mk' _
  (fun d => by
    show d.bind _ = d
    induction d with
    | done a => rfl
    | ask q next ih => simp only [Dialogue.bind, ih])
  (fun _ _ => rfl)
  (fun d f g => by
    show (d.bind f).bind g = d.bind fun a => (f a).bind g
    induction d with
    | done a => rfl
    | ask q next ih => simp only [Dialogue.bind, ih])

end Dialogue

end Primacy
