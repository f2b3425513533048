/-
  Primacy.Proofs.Election.History

  Runs seen from their end: what one more incident adds to a run, what a run has met with so far,
  and what holds after a run in which nobody moves unless all others may be suspended.  The books of
  the lock balance after every run, also when a waiter breaks down under its request, and no two
  activities promote.
-/
import Mathlib.Data.List.Induction
import Primacy.Proofs.Election.Lifecycle

namespace Primacy.Election

namespace Chronicle

theorem append_empty (c : Chronicle) : c ++ empty = c := by
  show Chronicle.mk (c.events ++ []) (c.registered ++ []) (c.discarded ++ []) = c
  rw [List.append_nil, List.append_nil, List.append_nil]

theorem append_assoc (c d e : Chronicle) : c ++ d ++ e = c ++ (d ++ e) := by
  obtain ⟨events, registered, discarded⟩ := c
  show Chronicle.mk (events ++ d.events ++ e.events) (registered ++ d.registered ++ e.registered)
    (discarded ++ d.discarded ++ e.discarded) = _
  rw [List.append_assoc, List.append_assoc, List.append_assoc]
  rfl

end Chronicle

namespace Node

variable {n n' n₁ : Node} {i : Incident} {is js : List Incident} {id id' : CallId}
  {a b : Activity} {asked asked' : Bool} {c c₁ : Chronicle} {P : Node → Incident → Prop}

/-! ## One more incident -/

theorem live?_append (h : n.live? is = some (n₁, c₁)) (hjs : n₁.live? js = some (n', c)) :
    n.live? (is ++ js) = some (n', c₁ ++ c) := by
  induction is generalizing n c₁ with
  | nil =>
    obtain ⟨rfl, rfl⟩ := of_live?_nil h
    exact hjs
  | cons i is ih =>
    obtain ⟨n₂, c₂, hi, hlive, rfl⟩ := of_live?_cons h
    rw [List.cons_append, Chronicle.append_assoc]
    exact live?_cons hi (ih hlive)

theorem of_live?_append (h : n.live? (is ++ js) = some (n', c)) :
    ∃ n₁ c₁ c₂, n.live? is = some (n₁, c₁) ∧ n₁.live? js = some (n', c₂) ∧ c = c₁ ++ c₂ := by
  induction is generalizing n c with
  | nil => exact ⟨n, .empty, c, rfl, h, rfl⟩
  | cons i is ih =>
    obtain ⟨n₂, c₂, hi, hlive, rfl⟩ := of_live?_cons h
    obtain ⟨n₁, c₃, c₄, hfirst, hlast, rfl⟩ := ih hlive
    exact ⟨n₁, _, c₄, live?_cons hi hfirst, hlast, (Chronicle.append_assoc ..).symm⟩

theorem live?_concat (h : n.live? is = some (n₁, c₁)) (hi : n₁.undergo? i = some n') :
    n.live? (is ++ [i]) = some (n', c₁ ++ n₁.chronicle i) := by
  refine live?_append h ((live?_cons hi rfl).trans ?_)
  rw [Chronicle.append_empty]

theorem of_live?_concat (h : n.live? (is ++ [i]) = some (n', c)) :
    ∃ n₁ c₁, n.live? is = some (n₁, c₁) ∧ n₁.undergo? i = some n' ∧ c = c₁ ++ n₁.chronicle i := by
  obtain ⟨n₁, c₁, c₂, hfirst, hlast, rfl⟩ := of_live?_append h
  obtain ⟨n₂, c₃, hi, hnil, rfl⟩ := of_live?_cons hlast
  obtain ⟨rfl, rfl⟩ := of_live?_nil hnil
  exact ⟨n₁, c₁, hfirst, hi, by rw [Chronicle.append_empty]⟩

theorem Makes.exists_live {m : Move} (made : n.Makes m n') :
    ∃ c, n.live? [.move m] = some (n', c) :=
  ⟨_, live?_cons (move?_of_makes made) rfl⟩

/-! ## What a run has met with -/

/-- At some point of the run an incident of the given kind happens. -/
def Meets (P : Node → Incident → Prop) (n : Node) : List Incident → Prop
  | [] => False
  | i :: is => P n i ∨ ∃ n', n.undergo? i = some n' ∧ n'.Meets P is

theorem meets_concat (h : n.live? is = some (n', c)) :
    n.Meets P (is ++ [i]) ↔ n.Meets P is ∨ P n' i := by
  induction is generalizing n c with
  | nil =>
    obtain ⟨rfl, -⟩ := of_live?_nil h
    refine ⟨fun hmeets => ?_, fun hmeets => hmeets.elim nofun .inl⟩
    rcases hmeets with hp | ⟨_, -, hnil⟩
    · exact .inr hp
    · exact hnil.elim
  | cons i is ih =>
    obtain ⟨n₁, c₁, hi₁, hlive, -⟩ := of_live?_cons h
    have hlater := ih hlive
    constructor
    · rintro (hp | ⟨m, hm, hmeets⟩)
      · exact .inl (.inl hp)
      · obtain rfl := Option.some.inj (hi₁.symm.trans hm)
        exact (hlater.mp hmeets).imp_left fun h => .inr ⟨n₁, hm, h⟩
    · rintro ((hp | ⟨m, hm, hmeets⟩) | hp)
      · exact .inl hp
      · obtain rfl := Option.some.inj (hi₁.symm.trans hm)
        exact .inr ⟨n₁, hm, hlater.mpr (.inl hmeets)⟩
      · exact .inr ⟨n₁, hi₁, hlater.mpr (.inr hp)⟩

theorem Meets.imp {Q : Node → Incident → Prop} (hmeets : n.Meets P is)
    (h : ∀ n i, P n i → Q n i) : n.Meets Q is := by
  induction is generalizing n with
  | nil => exact hmeets
  | cons i is ih =>
    rcases hmeets with hnow | ⟨n', hi, hlater⟩
    · exact .inl (h n i hnow)
    · exact .inr ⟨n', hi, ih hlater⟩

theorem Meets.append (hmeets : n.Meets P is) (js : List Incident) :
    n.Meets P (is ++ js) := by
  induction is generalizing n with
  | nil => exact hmeets.elim
  | cons i is ih =>
    rcases hmeets with hnow | ⟨n', hi, hlater⟩
    · exact .inl hnow
    · exact .inr ⟨n', hi, ih hlater⟩

/-! ## Where an activity comes from -/

/-- How an activity gets to where it is after an incident. -/
inductive Origin (n : Node) (id : CallId) : Incident → Activity → Bool → Prop where
  | aside {i : Incident} {a : Activity} {asked : Bool} (other : i.actor? ≠ some id)
      (here : n.course id = some (.going a asked)) : n.Origin id i a asked
  | call {c : Entry} : n.Origin id (.move (.call id c)) c.activity false
  | spawn {i : Incident} : n.Origin id i (.waiter .await) false
  | step {w : CallId} {a b : Activity} {asked : Bool}
      (here : n.course id = some (.going a asked)) (ready : a.isReady n.elector id = true)
      (next : (a.step n.elector id).next = .inl b) : n.Origin id (.move (.step id w)) b false
  | ask {a : Activity} {q : Request} (here : n.course id = some (.going a false))
      (request : a.request? n.elector = some q) : n.Origin id (.move (.ask id)) a true
  | answer {a b : Activity} {q : Request} {r : Reply} (here : n.course id = some (.going a true))
      (request : a.request? n.elector = some q) (next : (a.reply n.elector r).next = .inl b) :
      n.Origin id (.move (.answer id r)) b false

theorem Undergoes.origin (h : n.Undergoes i n') (here : n'.course id = some (.going a asked)) :
    n.Origin id i a asked := by
  cases h with
  | move made =>
    cases made with
    | @call id' entry new =>
      rcases course_setCourse here with ⟨rfl, hc⟩ | ⟨-, here⟩
      · cases hc
        exact .call
      · exact .aside nofun here
    | @step id' w b asked' here' ready new =>
      rcases course_spawn here with ⟨-, -, -, hc⟩ | here
      · cases hc
        exact .spawn
      · rcases going_carryOut here with ⟨rfl, hnext, rfl⟩ | ⟨hne, here⟩
        · exact .step here' ready hnext
        · exact .aside (fun h => hne (Option.some.inj h).symm) here
    | @ask id' b q here' request =>
      rcases course_setCourse here with ⟨rfl, hc⟩ | ⟨hne, here⟩
      · cases hc
        exact .ask here' request
      · exact .aside (fun h => hne (Option.some.inj h).symm) here
    | @answer id' r b q here' request =>
      rcases going_carryOut here with ⟨rfl, hnext, rfl⟩ | ⟨hne, here⟩
      · exact .answer here' request hnext
      · exact .aside (fun h => hne (Option.some.inj h).symm) here
    | breakOff here' may =>
      rcases course_setCourse here with ⟨-, hc⟩ | ⟨-, here⟩
      · exact nomatch hc
      · exact .aside nofun here
    | discard => exact .aside nofun here
  | @collapse id' p here' =>
    rcases course_setCourse here with ⟨-, hc⟩ | ⟨hne, here⟩
    · exact nomatch hc
    · exact .aside (fun h => hne (Option.some.inj h).symm) here

/-- What ends an activity is a step of it, or the answer to its request. -/
theorem Undergoes.ends (h : n.Undergoes i n') (here : n.course id = some (.going a asked))
    {r : Ending} (ended : n'.course id = some (.ended r)) :
    (∃ w, i = .move (.step id w) ∧ a.isReady n.elector id = true ∧
      (a.step n.elector id).next = .inr r) ∨
    ∃ x q, i = .move (.answer id x) ∧ a.request? n.elector = some q ∧
      (a.reply n.elector x).next = .inr r := by
  obtain ⟨y, hy, hfate⟩ := h.fate here
  obtain rfl := Option.some.inj (hy.symm.trans ended)
  generalize hc : Course.ended r = y at hfate
  cases hfate with
  | aside => exact nomatch hc
  | @step w _ _ ready =>
    refine .inl ⟨w, rfl, ready, ?_⟩
    cases hn : (a.step n.elector id).next with
    | inl b =>
      rw [hn] at hc
      exact nomatch hc
    | inr r' =>
      rw [hn] at hc
      cases hc
      rfl
  | ask => exact nomatch hc
  | @answer _ q x request =>
    refine .inr ⟨x, q, rfl, request, ?_⟩
    cases hn : (a.reply n.elector x).next with
    | inl b =>
      rw [hn] at hc
      exact nomatch hc
    | inr r' =>
      rw [hn] at hc
      cases hc
      rfl
  | breakOff => exact nomatch hc
  | collapse => exact nomatch hc

/-! ## Interleavings at suspension points, seen from their end -/

theorem Cooperative.of_concat (h : n.Cooperative (is ++ [i])) (hlive : n.live? is = some (n', c)) :
    n.Cooperative is ∧ ∀ id, i.actor? ≠ some id → n'.mayRest id = true := by
  induction is generalizing n c with
  | nil =>
    obtain ⟨rfl, -⟩ := of_live?_nil hlive
    exact ⟨trivial, h.1⟩
  | cons i is ih =>
    obtain ⟨n₁, c₁, hi, hlive₁, -⟩ := of_live?_cons hlive
    refine ⟨⟨h.1, fun m hm => ?_⟩, (ih (h.2 n₁ hi) hlive₁).2⟩
    obtain rfl := Option.some.inj (hi.symm.trans hm)
    exact (ih (h.2 n₁ hi) hlive₁).1

/-- What every incident keeps at which all others may be suspended is kept by such a run. -/
theorem Cooperative.keeps {P : Node → Prop}
    (keep : ∀ {n i n'}, n.Undergoes i n' →
      (∀ id, i.actor? ≠ some id → n.mayRest id = true) → P n → P n')
    (hcoop : n.Cooperative is) (h : n.live? is = some (n', c)) (hn : P n) : P n' := by
  induction is generalizing n c with
  | nil =>
    obtain ⟨rfl, -⟩ := of_live?_nil h
    exact hn
  | cons i is ih =>
    obtain ⟨n₁, c₁, hi, hlive, -⟩ := of_live?_cons h
    exact ih (hcoop.2 n₁ hi) hlive (keep (undergoes_of_undergo? hi) hcoop.1 hn)

/-! ## Custody throughout a run -/

theorem Custody.collapse (hn : n.Custody) {p : WaiterPoint}
    (here : n.course id = some (.going (.waiter p) true)) :
    { n.setCourse id .brokenOff with elector := WaiterPoint.abandon n.elector : Node }.Custody := by
  refine hn.setCourse rfl (List.Subset.refl _) nofun nofun (fun _ _ h => h) ?_
  rw [ledger_breakOff]
  exact hn.balanced.breakOff rfl rfl (fun _ => asked_of_going here) hn.lone

theorem Custody.undergoes (hn : n.Custody) (h : n.Undergoes i n') : n'.Custody := by
  cases h with
  | move made => exact hn.makes made
  | collapse here => exact hn.collapse here

theorem custody_of_live? {i : Identity} {owner : String} {port : Nat} {dir : Option String}
    (h : (fresh (.fresh i owner port dir)).live? is = some (n, c)) : n.Custody :=
  live?_keeps (fun hu hn => hn.undergoes hu) h (custody_fresh nofun)

/-! ## The only promotion -/

theorem Undergoes.promoting_before (h : n.Undergoes i n')
    (hid : n'.ledger.stage id = .promoting) : n.ledger.stage id = .promoting ∨
      i.actor? = some id ∧ n.elector.status.canBecome .running = true := by
  obtain ⟨a, asked, here⟩ := going_of_stage (by rw [hid]; exact nofun)
  have hstage : a.stage = .promoting := (stage_of_going here).symm.trans hid
  cases h.origin here with
  | aside other before => exact .inl ((stage_of_going before).trans hstage)
  | @call entry => cases entry <;> exact nomatch hstage
  | spawn => exact nomatch hstage
  | @step w b _ asked₁ before ready next =>
    have hpassage := Activity.step_passage ready
    rw [next, show stageAfter (.inl a) = .promoting from hstage] at hpassage
    rw [stage_of_going before]
    exact (Passage.promoting_from hpassage).imp_right fun hcan => ⟨rfl, hcan⟩
  | ask before request => exact .inl ((stage_of_going before).trans hstage)
  | @answer b _ q r before request next =>
    have hpassage := Activity.reply_passage (r := r) request
    rw [next, show stageAfter (.inl a) = .promoting from hstage] at hpassage
    rw [stage_of_going before]
    exact (Passage.promoting_from hpassage).imp_right fun hcan => ⟨rfl, hcan⟩

/-- Where the elector may yet run, nobody promotes. -/
theorem Coherent.not_promoting (hn : n.Coherent)
    (hcan : n.elector.status.canBecome .running = true) : n.ledger.stage id ≠ .promoting := by
  intro hid
  obtain ⟨a, asked, here⟩ := going_of_stage (by rw [hid]; exact nofun)
  have hstage : a.stage = .promoting := (stage_of_going here).symm.trans hid
  have hran : n.elector.status = .running ∨ n.elector.status = .stopped :=
    (hn.fits id a asked here).promoting hstage
  rcases hran with hs | hs <;> rw [hs] at hcan <;> exact nomatch hcan

/-- At most one activity promotes. -/
theorem eq_of_promoting {ident : Identity} {owner : String} {port : Nat} {dir : Option String}
    (reached : (fresh (.fresh ident owner port dir)).live? is = some (n, c))
    (hid : n.ledger.stage id = .promoting) (hid' : n.ledger.stage id' = .promoting) : id = id' := by
  induction is using List.reverseRecOn generalizing n c with
  | nil =>
    obtain ⟨rfl, -⟩ := of_live?_nil reached
    exact nomatch hid
  | append_singleton is i ih =>
    obtain ⟨n₁, c₁, hlive, hi, -⟩ := of_live?_concat reached
    have hu := undergoes_of_undergo? hi
    have hn := coherent_of_live? hlive
    rcases hu.promoting_before hid with hbefore | ⟨hactor, hcan⟩
    · rcases hu.promoting_before hid' with hbefore' | ⟨-, hcan⟩
      · exact ih hlive hbefore hbefore'
      · exact absurd hbefore (hn.not_promoting hcan)
    · rcases hu.promoting_before hid' with hbefore' | ⟨hactor', -⟩
      · exact absurd hbefore' (hn.not_promoting hcan)
      · exact Option.some.inj (hactor.symm.trans hactor')

end Node

end Primacy.Election
