/-
  Primacy.Proofs.Dialogue.Exchange

  What a dialogue has been through.  An exchange is a request with the answer to it; a dialogue
  that was answered leads on, past exchange after exchange, to what is left of it.  A dialogue made
  of two parts is in the first one, or has left it behind.
-/
import Primacy.Dialogue

namespace Primacy

/-- A request and the answer to it. -/
structure Exchange (Q : Type) (A : Q → Type) where
  request : Q
  reply : A request

namespace Dialogue

variable {Q R : Type} {A : Q → Type} {B : R → Type} {α β : Type}

/-! ## Where a dialogue leads -/

/-- `d.Leads past e`: after the exchanges `past`, the earliest first, `e` is left of `d`. -/
inductive Leads : Dialogue Q A α → List (Exchange Q A) → Dialogue Q A α → Prop where
  | here (d : Dialogue Q A α) : Leads d [] d
  | on {q : Q} {next : A q → Dialogue Q A α} {a : A q} {past : List (Exchange Q A)}
      {e : Dialogue Q A α} (rest : Leads (next a) past e) :
      Leads (.ask q next) (⟨q, a⟩ :: past) e

variable {d e : Dialogue Q A α} {past : List (Exchange Q A)}

/-- One more request is answered. -/
theorem Leads.answer {q : Q} {next : A q → Dialogue Q A α} (h : d.Leads past (.ask q next))
    (a : A q) : d.Leads (past ++ [⟨q, a⟩]) (next a) := by
  -- on the exchanges made so far
  generalize he : Dialogue.ask q next = e at h
  induction h with
  | here d =>
    subst he
    exact .on (.here _)
  | on rest ih => exact .on (ih he)

theorem Leads.of_done {a : α} (h : (done a : Dialogue Q A α).Leads past e) :
    past = [] ∧ e = done a := by
  cases h
  exact ⟨rfl, rfl⟩

/-- Past its first request, a dialogue goes on with the answer to it. -/
theorem Leads.of_ask {q : Q} {next : A q → Dialogue Q A α} (h : (ask q next).Leads past e) :
    (past = [] ∧ e = .ask q next) ∨
    ∃ a rest, past = ⟨q, a⟩ :: rest ∧ (next a).Leads rest e := by
  cases h with
  | here => exact .inl ⟨rfl, rfl⟩
  | on rest => exact .inr ⟨_, _, rfl, rest⟩

/-- A dialogue made of two parts is in the first one, or has left it behind. -/
theorem Leads.of_bind {f : α → Dialogue Q A β} {e : Dialogue Q A β}
    (h : (d >>= f).Leads past e) :
    (∃ d', d.Leads past d' ∧ e = d' >>= f) ∨
    ∃ before after a, past = before ++ after ∧ d.Leads before (.done a) ∧ (f a).Leads after e := by
  induction d generalizing past with
  | done a => exact .inr ⟨[], past, a, rfl, .here _, h⟩
  | ask q next ih =>
    rcases h.of_ask with ⟨rfl, rfl⟩ | ⟨a, rest, rfl, hrest⟩
    · exact .inl ⟨.ask q next, .here _, rfl⟩
    · rcases ih a hrest with ⟨d', hd', rfl⟩ | ⟨before, after, b, rfl, hbefore, hafter⟩
      · exact .inl ⟨d', .on hd', rfl⟩
      · exact .inr ⟨⟨q, a⟩ :: before, after, b, rfl, .on hbefore, hafter⟩

/-- Where the first part of a dialogue leads, it leads with the second part to follow. -/
theorem Leads.bind {f : α → Dialogue Q A β} (h : d.Leads past e) :
    (d >>= f).Leads past (e >>= f) := by
  induction h with
  | here d => exact .here _
  | on rest ih => exact .on ih

theorem Leads.append {after : List (Exchange Q A)} {f : Dialogue Q A α} (h : d.Leads past e)
    (hf : e.Leads after f) : d.Leads (past ++ after) f := by
  induction h with
  | here d => exact hf
  | on rest ih => exact .on (ih hf)

/-- A dialogue that has led somewhere goes on from there. -/
theorem Leads.of_append {before after : List (Exchange Q A)} {f : Dialogue Q A α}
    (h : d.Leads before e) (hf : d.Leads (before ++ after) f) : e.Leads after f := by
  induction h with
  | here d => exact hf
  | on rest ih =>
    cases hf with
    | on rest' => exact ih rest'

/-- What a dialogue has been through tells what is left of it. -/
theorem Leads.unique {f : Dialogue Q A α} (h : d.Leads past e) (hf : d.Leads past f) : e = f := by
  rw [← List.append_nil past] at hf
  cases h.of_append hf
  rfl

/-- A dialogue made of two parts that is done has been through both. -/
theorem Leads.of_bind_done {f : α → Dialogue Q A β} {b : β} (h : (d >>= f).Leads past (.done b)) :
    ∃ before after a, past = before ++ after ∧ d.Leads before (.done a) ∧
      (f a).Leads after (.done b) := by
  rcases h.of_bind with ⟨d', hd', hdone⟩ | hboth
  · cases d' with
    | done a =>
      refine ⟨past, [], a, (List.append_nil _).symm, hd', ?_⟩
      rw [hdone]
      exact .here _
    | ask q next => exact nomatch hdone
  · exact hboth

/-! ## What a dialogue may ask -/

/-- Whatever it is answered, the dialogue makes no requests but such as `P` holds of. -/
def Asks (P : Q → Prop) : Dialogue Q A α → Prop
  | .done _ => True
  | .ask q next => P q ∧ ∀ a, (next a).Asks P

variable {P : Q → Prop}

theorem asks_request {q : Q} (h : P q) : (request q : Dialogue Q A (A q)).Asks P :=
  ⟨h, fun _ => trivial⟩

theorem Asks.mono {P' : Q → Prop} (hd : d.Asks P) (h : ∀ q, P q → P' q) : d.Asks P' := by
  induction d with
  | done a => trivial
  | ask q next ih => exact ⟨h q hd.1, fun a => ih a (hd.2 a)⟩

theorem Asks.bind {f : α → Dialogue Q A β} (hd : d.Asks P) (hf : ∀ a, (f a).Asks P) :
    (d >>= f).Asks P := by
  induction d with
  | done a => exact hf a
  | ask q next ih => exact ⟨hd.1, fun a => ih a (hd.2 a)⟩

theorem Asks.embed {f : Q → R} {back : ∀ q, B (f q) → A q} {P : R → Prop}
    (hd : d.Asks fun q => P (f q)) : (d.embed f back).Asks P := by
  induction d with
  | done a => trivial
  | ask q next ih => exact ⟨hd.1, fun b => ih (back q b) (hd.2 (back q b))⟩

/-- What was asked on the way was asked by the dialogue, and so will be what is left to ask. -/
theorem Asks.leads (hd : d.Asks P) (h : d.Leads past e) :
    (∀ x ∈ past, P x.request) ∧ e.Asks P := by
  induction h with
  | here d => exact ⟨nofun, hd⟩
  | on rest ih =>
    obtain ⟨hpast, he⟩ := ih (hd.2 _)
    refine ⟨fun x hx => ?_, he⟩
    rcases List.mem_cons.mp hx with rfl | hx
    · exact hd.1
    · exact hpast x hx

/-! ## Dialogues that come to an end -/

/-- Wherever the dialogue is, it can be answered, and whatever it is answered, it is done in the
end. -/
inductive Finishes : Dialogue Q A α → Prop where
  | done (a : α) : Finishes (.done a)
  | ask {q : Q} {next : A q → Dialogue Q A α} (answerable : Nonempty (A q))
      (later : ∀ a, Finishes (next a)) : Finishes (.ask q next)

theorem Asks.finishes (hd : d.Asks P) (h : ∀ q, P q → Nonempty (A q)) : d.Finishes := by
  induction d with
  | done a => exact .done a
  | ask q next ih => exact .ask (h q hd.1) fun a => ih a (hd.2 a)

/-! ## What a dialogue may ask by then -/

/-- After the exchanges `past`, the dialogue makes no requests but such as `P` allows after what has
been exchanged by then, and `post` holds of all that it was through and of what it ends with. -/
def Follows (P : List (Exchange Q A) → Q → Prop) (post : List (Exchange Q A) → α → Prop) :
    Dialogue Q A α → List (Exchange Q A) → Prop
  | .done a, past => post past a
  | .ask q next, past => P past q ∧ ∀ a, (next a).Follows P post (past ++ [⟨q, a⟩])

variable {P : List (Exchange Q A) → Q → Prop} {mid post : List (Exchange Q A) → α → Prop}

theorem Follows.bind {f : α → Dialogue Q A β} {post : List (Exchange Q A) → β → Prop}
    (hd : d.Follows P mid past) (hf : ∀ past a, mid past a → (f a).Follows P post past) :
    (d >>= f).Follows P post past := by
  induction d generalizing past with
  | done a => exact hf past a hd
  | ask q next ih => exact ⟨hd.1, fun a => ih a (hd.2 a)⟩

theorem Follows.mono {post' : List (Exchange Q A) → α → Prop} (hd : d.Follows P post past)
    (h : ∀ past a, post past a → post' past a) : d.Follows P post' past := by
  induction d generalizing past with
  | done a => exact h past a hd
  | ask q next ih => exact ⟨hd.1, fun a => ih a (hd.2 a)⟩

/-- Wherever the dialogue leads, it goes on as it may. -/
theorem Follows.leads {before : List (Exchange Q A)} (hd : d.Follows P post before)
    (h : d.Leads past e) : e.Follows P post (before ++ past) := by
  induction h generalizing before with
  | here d =>
    rw [List.append_nil]
    exact hd
  | on rest ih =>
    rw [List.append_cons]
    exact ih (hd.2 _)

/-- Requests of one kind keep up what each of them keeps up. -/
theorem Asks.follows {I : List (Exchange Q A) → Prop} {K : Q → Prop} (hd : d.Asks K)
    (may : ∀ past q, I past → K q → P past q)
    (keeps : ∀ past x, I past → K x.request → I (past ++ [x])) (hpast : I past) :
    d.Follows P (fun past _ => I past) past := by
  induction d generalizing past with
  | done a => exact hpast
  | ask q next ih =>
    exact ⟨may past q hpast hd.1, fun a => ih a (hd.2 a) (keeps past ⟨q, a⟩ hpast hd.1)⟩

end Dialogue

/-! ## Procedures that may fail -/

section Procedure

variable {Q : Type} {A : Q → Type} {ε α β : Type} {P : Q → Prop}

/-- A procedure that ends at its first failure asks what its parts ask. -/
theorem asks_run_bind {x : ExceptT ε (Dialogue Q A) α} {f : α → ExceptT ε (Dialogue Q A) β}
    (hx : x.run.Asks P) (hf : ∀ a, (f a).run.Asks P) : (x >>= f).run.Asks P := by
  rw [ExceptT.run_bind]
  refine hx.bind fun r => ?_
  cases r with
  | ok a => exact hf a
  | error e => trivial

theorem asks_run_lift {d : Dialogue Q A α} (hd : d.Asks P) :
    (ExceptT.lift d : ExceptT ε (Dialogue Q A) α).run.Asks P := by
  rw [ExceptT.run_lift]
  exact hd.bind fun _ => trivial

variable {P : List (Exchange Q A) → Q → Prop} {mid : List (Exchange Q A) → α → Prop}
  {post : List (Exchange Q A) → β → Prop} {past : List (Exchange Q A)}

/-- The procedure makes no requests but such as `P` allows by then, and `post` holds if it does not
fail. -/
def Proceeds (P : List (Exchange Q A) → Q → Prop) (post : List (Exchange Q A) → α → Prop)
    (x : ExceptT ε (Dialogue Q A) α) (past : List (Exchange Q A)) : Prop :=
  x.run.Follows P (fun past r => ∀ a, r = .ok a → post past a) past

theorem proceeds_pure {a : α} (h : mid past a) :
    Proceeds P mid (pure a : ExceptT ε (Dialogue Q A) α) past := by
  rintro b hb
  obtain rfl := Except.ok.inj hb
  exact h

theorem Proceeds.bind {x : ExceptT ε (Dialogue Q A) α} {f : α → ExceptT ε (Dialogue Q A) β}
    (hx : Proceeds P mid x past) (hf : ∀ past a, mid past a → Proceeds P post (f a) past) :
    Proceeds P post (x >>= f) past := by
  rw [Proceeds, ExceptT.run_bind]
  refine Dialogue.Follows.bind hx fun past r hr => ?_
  cases r with
  | ok a => exact hf past a (hr a rfl)
  | error e => exact nofun

theorem proceeds_request {q : Q} (may : P past q) :
    Proceeds P (fun past' a => past' = past ++ [⟨q, a⟩])
      (ExceptT.lift (Dialogue.request q) : ExceptT ε (Dialogue Q A) (A q)) past := by
  rw [Proceeds, ExceptT.run_lift]
  refine ⟨may, fun a b hb => ?_⟩
  obtain rfl := Except.ok.inj hb
  rfl

end Procedure

end Primacy
