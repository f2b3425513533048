/-
  Primacy.Proofs.Election.Attempt

  Starts that are called with settings.  The address of the lock service is looked up first of all,
  and a start that finds none is over before it touches anything: whatever happens at an elector
  happens just the same without the starts that found no address.
-/
import Primacy.Proofs.Election.Chronicle
import Primacy.Settings.Election

namespace Primacy

namespace Settings.Election

/-- No address is found exactly where none is given, or one of blanks only. -/
theorem coordinator_eq_error_iff {s : Settings.Election} :
    (∃ reason, s.coordinator = .error (.invalidSettings reason)) ↔
      ∀ address, s.coordinatorAddress = some address → Text.isBlankText address = true := by
  have htrimmed : ∀ address : String, Text.trimmed address = "" ↔
      Text.isBlankText address = true := by
    intro address
    rw [Text.isBlankText, ← Text.trim_eq_nil_iff, Text.trimmed, ← String.toList_inj,
      String.toList_ofList]
    rfl
  rw [coordinator]
  cases s.coordinatorAddress with
  | none => exact iff_of_true ⟨_, rfl⟩ nofun
  | some address =>
    by_cases hblank : Text.trimmed address = ""
    · have hnone : ((some address).map Text.trimmed).filter (· ≠ "") = none := by
        rw [Option.map_some, hblank]
        rfl
      rw [hnone]
      refine iff_of_true ⟨_, rfl⟩ fun _ h => ?_
      cases h
      exact (htrimmed address).mp hblank
    · have hsome : ((some address).map Text.trimmed).filter (· ≠ "") =
          some (Text.trimmed address) := by
        rw [Option.map_some]
        exact Option.filter_some_pos (by simpa using hblank)
      rw [hsome]
      exact iff_of_false nofun fun h => hblank ((htrimmed address).mpr (h address rfl))

end Settings.Election

namespace Election

namespace Node

variable {n n' m : Node} {i : Incident} {id : CallId} {a : Activity} {asked : Bool} {x : Course}

/-! ## Calls with settings -/

/-- What can happen at a node, the calls of starts with the settings that they are given. -/
inductive Occurrence where
  | attempt (id : CallId) (settings : Settings.Election) (blocking : Bool)
  | incident (i : Incident)

/-- The incident that an occurrence comes to.  A start without an address is none. -/
def Occurrence.incident? : Occurrence → Option Incident
  | attempt id settings blocking =>
    settings.coordinator.toOption.map fun address => .move (.call id (.start address blocking))
  | incident i => some i

/-- What comes of the occurrences in a run. -/
def incidents (os : List Occurrence) : List Incident := os.filterMap Occurrence.incident?

/-- Where a start begins, given its settings. -/
def entrance (settings : Settings.Election) (blocking : Bool) : Course :=
  match StartPoint.enter settings.coordinator blocking with
  | .ok p => .going (.start p) false
  | .error err => .ended (.started (.error err))

def occur? (n : Node) : Occurrence → Option Node
  | .attempt id settings blocking =>
    if (n.course id).isNone then some (n.setCourse id (entrance settings blocking)) else none
  | .incident i => n.undergo? i

/-- The node after occurrences, the first one first. -/
def pass? (n : Node) : List Occurrence → Option Node
  | [] => some n
  | o :: os => (n.occur? o).bind (·.pass? os)

/-- `n` is `m`, but for starts that found no address. -/
structure Echoes (n m : Node) : Prop where
  elector : n.elector = m.elector
  requests : n.requests = m.requests
  grants : n.grants = m.grants
  course : ∀ id, n.course id = m.course id ∨
    m.course id = none ∧ ∃ err, n.course id = some (.ended (.started (.error err)))

namespace Echoes

theorem refl (n : Node) : n.Echoes n := ⟨rfl, rfl, rfl, fun _ => .inl rfl⟩

theorem of_new (h : n.Echoes m) (new : n.course id = none) : m.course id = none := by
  rcases h.course id with hsame | ⟨hnone, -⟩
  · exact hsame.symm.trans new
  · exact hnone

theorem of_course (h : n.Echoes m) (here : m.course id = some x) : n.course id = some x := by
  rcases h.course id with hsame | ⟨hnone, -⟩
  · exact hsame.trans here
  · exact nomatch hnone.symm.trans here

theorem of_going (h : n.Echoes m) (here : n.course id = some (.going a asked)) :
    m.course id = some (.going a asked) := by
  rcases h.course id with hsame | ⟨-, err, hended⟩
  · exact hsame.symm.trans here
  · exact nomatch hended.symm.trans here

theorem setCourse (h : n.Echoes m) (id : CallId) (x : Course) :
    (n.setCourse id x).Echoes (m.setCourse id x) := by
  refine ⟨h.elector, h.requests, h.grants, fun id' => ?_⟩
  by_cases hid : id' = id
  · have hown : ∀ k : Node, (k.setCourse id x).course id' = some x := fun _ => by
      rw [hid]
      exact Function.update_self ..
    exact .inl ((hown n).trans (hown m).symm)
  · have hother : ∀ k : Node, (k.setCourse id x).course id' = k.course id' := fun _ =>
      Function.update_of_ne hid ..
    rw [hother n, hother m]
    exact h.course id'

theorem carryOut (h : n.Echoes m) (id : CallId) (t : Turn Activity Ending) :
    (n.carryOut id t).Echoes (m.carryOut id t) :=
  { h.setCourse id (t.next.elim (.going · false) .ended) with elector := rfl }

theorem spawn (h : n.Echoes m) (before : Elector) (w : CallId) :
    (n.spawn before w).Echoes (m.spawn before w) := by
  rw [Node.spawn, Node.spawn, h.elector]
  split
  · exact h.setCourse w _
  · exact h

/-- What happens at a node happens without the starts that found no address as well. -/
theorem undergo (h : n.Echoes m) (hi : n.undergo? i = some n') :
    ∃ m', m.undergo? i = some m' ∧ n'.Echoes m' := by
  have helector := h.elector
  cases undergoes_of_undergo? hi with
  | move made =>
    cases made with
    | @call id entry new =>
      exact ⟨_, move?_of_makes (.call (h.of_new new)), h.setCourse id _⟩
    | @step id w a asked here ready new =>
      rw [helector] at ready ⊢
      exact ⟨_, move?_of_makes (.step (h.of_going here) ready (h.of_new new)),
        (h.carryOut id _).spawn _ w⟩
    | @ask id a q here request =>
      rw [helector] at request
      refine ⟨_, move?_of_makes (.ask (h.of_going here) request), ?_⟩
      exact { h.setCourse id (.going a true) with requests := congrArg (· ++ [q]) h.requests }
    | @answer id r a q here request =>
      rw [helector] at request ⊢
      refine ⟨_, move?_of_makes (.answer (h.of_going here) request), ?_⟩
      exact { h.carryOut id (a.reply m.elector r) with grants := congrArg (· + _) h.grants }
    | @breakOff id a asked here may =>
      refine ⟨_, move?_of_makes (.breakOff (h.of_going here) may), ?_⟩
      exact { h.setCourse id .brokenOff with
        elector := congrArg (fun e => a.abandon e id) helector }
    | discard => exact ⟨_, rfl, { h with elector := congrArg Elector.drop helector }⟩
  | @collapse id p here =>
    refine ⟨{ m.setCourse id .brokenOff with elector := WaiterPoint.abandon m.elector }, ?_,
      { h.setCourse id .brokenOff with elector := congrArg WaiterPoint.abandon helector }⟩
    rw [undergo?, h.of_going here]

/-- A start that finds no address is over at once, and nobody notices. -/
theorem attempt (h : n.Echoes m) {settings : Settings.Election} (blocking : Bool) (err : Error)
    (hsettings : settings.coordinator = .error err) (new : n.course id = none) :
    (n.setCourse id (entrance settings blocking)).Echoes m := by
  have hentrance : entrance settings blocking = .ended (.started (.error err)) := by
    rw [entrance, hsettings]
    rfl
  rw [hentrance]
  refine ⟨h.elector, h.requests, h.grants, fun id' => ?_⟩
  by_cases hid : id' = id
  · subst hid
    exact .inr ⟨h.of_new new, err, Function.update_self ..⟩
  · rw [show (n.setCourse id _).course id' = n.course id' from Function.update_of_ne hid ..]
    exact h.course id'

/-- A run goes on as it would without the starts that found no address. -/
theorem pass (h : n.Echoes m) {os : List Occurrence} (hos : n.pass? os = some n') :
    ∃ m' c, m.live? (incidents os) = some (m', c) ∧ n'.Echoes m' := by
  induction os generalizing n m with
  | nil =>
    obtain rfl := Option.some.inj hos
    exact ⟨m, .empty, rfl, h⟩
  | cons o os ih =>
    obtain ⟨n₁, ho, hrest⟩ := Option.bind_eq_some_iff.mp hos
    have hincident : ∀ {i}, o.incident? = some i → n.undergo? i = some n₁ →
        ∃ m' c, m.live? (incidents (o :: os)) = some (m', c) ∧ n'.Echoes m' := by
      intro i hoi hi
      obtain ⟨m₁, hm, h₁⟩ := h.undergo hi
      obtain ⟨m', c, hlive, h'⟩ := ih h₁ hrest
      refine ⟨m', m.chronicle i ++ c, ?_, h'⟩
      rw [incidents, List.filterMap_cons_some hoi]
      exact live?_cons hm hlive
    cases o with
    | incident i => exact hincident rfl ho
    | attempt id settings blocking =>
      rw [occur?, Option.ite_none_right_eq_some, Option.isNone_iff_eq_none] at ho
      obtain ⟨new, heq⟩ := ho
      cases hsettings : settings.coordinator with
      | error err =>
        have h₁ : n₁.Echoes m := Option.some.inj heq ▸ h.attempt blocking err hsettings new
        obtain ⟨m', c, hlive, h'⟩ := ih h₁ hrest
        have hnone : (Occurrence.attempt id settings blocking).incident? = none := by
          rw [Occurrence.incident?, hsettings]
          rfl
        refine ⟨m', c, ?_, h'⟩
        rw [incidents, List.filterMap_cons_none hnone]
        exact hlive
      | ok address =>
        refine hincident (i := .move (.call id (.start address blocking))) ?_ ?_
        · rw [Occurrence.incident?, hsettings]
          rfl
        · rw [entrance, hsettings] at heq
          exact (move?_of_makes (.call new)).trans heq

end Echoes

end Node

end Election

end Primacy
