/-
  Primacy.Proofs.Election.Publication

  An elector together with the registry that it writes to.  A write is underway from the request
  until the registry carries it out, which it may do after the call that asked was dropped; a call
  is told of success only when its write was carried out.  A promotion asks for the two halves of
  the primary record one after the other and opens the gate behind both, so whoever the gate lets
  through reads a complete record.
-/
import Primacy.Proofs.Election.Awakening
import Primacy.Proofs.Election.Record
import Primacy.Proofs.Registry.Record

namespace Primacy.Election

/-! ## The two halves of the record -/

/-- The primary record of an elector, as entries. -/
def Elector.record (e : Elector) : List (String × String) :=
  [(Registry.primaryHostKey, e.identity.host), (Registry.primaryPortKey, toString e.port)]

theorem Elector.isRecordKey_of_mem {e : Elector} {x : String × String} (hx : x ∈ e.record) :
    IsRecordKey x.1 := by
  rcases List.mem_cons.mp hx with rfl | hx
  · exact .inl rfl
  · obtain rfl := List.mem_singleton.mp hx
    exact .inr rfl

/-- The record has one entry for each of its keys. -/
theorem Elector.eq_of_mem_record {e : Elector} {x y : String × String} (hx : x ∈ e.record)
    (hy : y ∈ e.record) (h : x.1 = y.1) : x = y := by
  have hne : Registry.primaryHostKey ≠ Registry.primaryPortKey := by decide
  rcases List.mem_cons.mp hx with rfl | hx
  · rcases List.mem_cons.mp hy with rfl | hy
    · rfl
    · obtain rfl := List.mem_singleton.mp hy
      exact absurd h hne
  · obtain rfl := List.mem_singleton.mp hx
    rcases List.mem_cons.mp hy with rfl | hy
    · exact absurd h.symm hne
    · exact (List.mem_singleton.mp hy).symm

/-- The entries of the record that a promotion has written when it is at the point. -/
def PromotionPoint.published (e : Elector) : PromotionPoint → List (String × String)
  | putPort => [(Registry.primaryHostKey, e.identity.host)]
  | openGate => e.record
  | _ => []

theorem PromotionPoint.published_of_step {route : Route} {e e' : Elector} {p p' : PromotionPoint}
    (ready : p.request? e = none) (h : (p.step route e).next = .inl p') :
    p'.published e' = [] := by
  cases p with
  | run =>
    simp only [step] at h
    split at h <;> cases h
    rfl
  | checkShutdown =>
    simp only [step] at h
    split at h <;> cases h
    rfl
  | putHost => cases ready
  | putPort => cases ready
  | openGate =>
    simp only [step] at h
    split at h <;> cases h
    rfl
  | callBack => cases h

/-- A promotion asks for nothing but writes of the record. -/
theorem PromotionPoint.exists_put {e : Elector} {p : PromotionPoint} {q : Request}
    (h : p.request? e = some q) : ∃ x ∈ e.record, q = .put x.1 x.2 := by
  cases p with
  | putHost => exact ⟨_, List.mem_cons_self, (Option.some.inj h).symm⟩
  | putPort => exact ⟨_, List.mem_cons_of_mem _ List.mem_cons_self, (Option.some.inj h).symm⟩
  | _ => cases h

/-- A promotion that is told of success goes on with one more entry written. -/
theorem PromotionPoint.published_of_reply {e : Elector} {r : Reply} {p p' : PromotionPoint}
    {key value : String} (request : p.request? e = some (.put key value)) (ok : r.isOk = true)
    (h : (p.reply e r).next = .inl p') :
    p'.published e ⊆ p.published e ++ [(key, value)] := by
  cases r with
  | error err => exact nomatch ok
  | ok granted =>
    cases p with
    | putHost =>
      cases request
      cases h
      exact List.Subset.refl _
    | putPort =>
      cases request
      cases h
      exact List.Subset.refl _
    | _ => exact nomatch request

namespace Activity

variable {e e' : Elector} {me : CallId} {a : Activity} {q : Request} {route : Route}
  {p : PromotionPoint} {key value : String}

/-- What an activity asks for depends on what the elector was given. -/
theorem request?_of_card (h : e'.card = e.card) (a : Activity) : a.request? e' = a.request? e := by
  have hidentity : e'.identity = e.identity := congrArg (·.1) h
  have hport : e'.port = e.port := congrArg (·.2.2.1) h
  have hpromotion : ∀ p : PromotionPoint, p.request? e' = p.request? e := by
    intro p
    cases p with
    | putHost => rw [PromotionPoint.request?, PromotionPoint.request?, hidentity]
    | putPort => rw [PromotionPoint.request?, PromotionPoint.request?, hport]
    | _ => rfl
  cases a with
  | start p =>
    cases p with
    | promote blocking p => exact hpromotion p
    | publish writes blocking => cases writes <;> rfl
    | _ => rfl
  | waiter p =>
    cases p with
    | promote p => exact hpromotion p
    | _ => rfl
  | _ => rfl

theorem isReady_of_promotion (h : a.promotion? = some (route, p)) :
    a.isReady e me = (p.request? e).isNone := by
  cases a with
  | start s =>
    obtain ⟨blocking, rfl, -⟩ := promotion?_start h
    rfl
  | waiter s =>
    obtain ⟨rfl, -⟩ := promotion?_waiter h
    rfl
  | _ => exact nomatch h

theorem promotion?_of_opening (h : a.deed? = some (.openGate route)) :
    a.promotion? = some (route, .openGate) := by
  have hpoint : ∀ {route' : Route} {p : PromotionPoint},
      p.deed? route' = some (.openGate route) → p = .openGate ∧ route' = route := by
    intro route' p hp
    cases p <;> cases hp
    exact ⟨rfl, rfl⟩
  cases a with
  | start p =>
    cases p with
    | promote blocking p =>
      obtain ⟨rfl, rfl⟩ := hpoint h
      rfl
    | _ => exact nomatch h
  | waiter p =>
    cases p with
    | promote p =>
      obtain ⟨rfl, rfl⟩ := hpoint h
      rfl
    | _ => exact nomatch h
  | stop p => cases p <;> exact nomatch h
  | await p => exact nomatch h
  | notify p => cases p <;> exact nomatch h

/-- What is written under a key of the record is the half that belongs there. -/
theorem mem_record_of_put (hplain : ∀ w ∈ a.writes, '_' ∈ w.1.toList)
    (request : a.request? e = some (.put key value)) (hkey : IsRecordKey key) :
    (key, value) ∈ e.record := by
  have hpromotion : ∀ p : PromotionPoint, p.request? e = some (.put key value) →
      (key, value) ∈ e.record := by
    intro p hp
    obtain ⟨x, hx, hput⟩ := PromotionPoint.exists_put hp
    cases hput
    exact hx
  cases a with
  | start p =>
    cases p with
    | publish writes blocking =>
      cases writes with
      | nil => exact nomatch request
      | cons w writes =>
        cases request
        exact absurd hkey (not_isRecordKey_of_underscore (hplain _ List.mem_cons_self))
    | promote blocking p => exact hpromotion p request
    | _ => exact nomatch request
  | waiter p =>
    cases p with
    | promote p => exact hpromotion p request
    | _ => exact nomatch request
  | stop p => cases p <;> exact nomatch request
  | await p => exact nomatch request
  | notify p => exact nomatch request

end Activity

/-- The entry that a request writes. -/
def Request.put? : Request → Option (String × String)
  | put key value => some (key, value)
  | _ => none

theorem Request.eq_put_of_put? {q : Request} {x : String × String} (h : q.put? = some x) :
    q = .put x.1 x.2 := by
  cases q with
  | put key value =>
    cases h
    rfl
  | _ => exact nomatch h

namespace Node

variable {n n' : Node} {i : Incident} {is : List Incident} {id : CallId} {a : Activity}
  {asked : Bool} {c : Chronicle}

/-- The entry that an activity is to write. -/
def put? (n : Node) (id : CallId) : Option (String × String) :=
  ((n.activity? id).bind (·.request? n.elector)).bind Request.put?

theorem put?_of_going (here : n.course id = some (.going a asked)) :
    n.put? id = (a.request? n.elector).bind Request.put? := by
  rw [put?, activity?_of_going here, Option.bind_some]

theorem put?_of_put {key value : String} (here : n.course id = some (.going a asked))
    (request : a.request? n.elector = some (.put key value)) : n.put? id = some (key, value) := by
  rw [put?_of_going here, request]
  rfl

theorem Undergoes.card (h : n.Undergoes i n') : n'.elector.card = n.elector.card := by
  cases h with
  | move made => exact made.card
  | collapse here => rfl

theorem Undergoes.record (h : n.Undergoes i n') : n'.elector.record = n.elector.record := by
  have hidentity : n'.elector.identity = n.elector.identity := congrArg (·.1) h.card
  have hport : n'.elector.port = n.elector.port := congrArg (·.2.2.1) h.card
  rw [Elector.record, Elector.record, hidentity, hport]

theorem Undergoes.published (h : n.Undergoes i n') (p : PromotionPoint) :
    p.published n'.elector = p.published n.elector := by
  have hidentity : n'.elector.identity = n.elector.identity := congrArg (·.1) h.card
  cases p with
  | putPort => rw [PromotionPoint.published, PromotionPoint.published, hidentity]
  | openGate => exact h.record
  | _ => rfl

theorem Undergoes.plain (h : n.Undergoes i n') (hn : n.Plain) : n'.Plain := by
  cases h with
  | move made => exact made.plain hn
  | collapse here₀ =>
    intro id' a' asked' here w hw
    rcases course_setCourse here with ⟨-, hc⟩ | ⟨-, here⟩
    · exact nomatch hc
    · exact hn id' a' asked' here w hw

/-- The writes that an incident asks for. -/
def asks (n : Node) : Incident → List (CallId × String × String)
  | .move (.ask id) => (n.put? id).toList.map (id, ·)
  | _ => []

end Node

/-! ## Electors and their registry -/

/-- An elector and the registry that it writes to. -/
structure Publisher where
  node : Node
  registry : Registry.Content
  /-- The writes that the registry was asked for and has yet to carry out, with the calls that
  asked. -/
  underway : List (CallId × String × String)
  /-- The writes of the elector that were carried out, the earliest first. -/
  written : List (String × String)

namespace Publisher

/-- Nothing has happened at the elector; the registry may hold anything. -/
def fresh (e : Elector) (c : Registry.Content) : Publisher := ⟨.fresh e, c, [], []⟩

inductive Happening where
  /-- Something happens at the elector. -/
  | incident (i : Node.Incident)
  /-- The registry carries out one of the writes that it was asked for. -/
  | carryOut (k : Nat)
  /-- Somebody else makes a request to the registry. -/
  | other (q : Registry.Request)

/-- The registry is reliable: who asked for a write is answered when it was carried out, and told of
success. -/
def accepts (d : Publisher) : Node.Incident → Bool
  | .move (.answer id r) =>
    (d.node.put? id).isNone || (r.isOk && d.underway.all (·.1 != id))
  | _ => true

def happen? (d : Publisher) : Happening → Option Publisher
  | .incident i =>
    if d.accepts i then
      (d.node.undergo? i).map fun n =>
        { d with node := n, underway := d.underway ++ d.node.asks i }
    else none
  | .carryOut k =>
    d.underway[k]?.map fun x =>
      { d with
        registry := d.registry.after (.put x.2.1 x.2.2)
        underway := d.underway.eraseIdx k
        written := d.written ++ [x.2] }
  | .other q => some { d with registry := d.registry.after q }

/-- What happenings lead to, the first one first. -/
def run? (d : Publisher) : List Happening → Option Publisher
  | [] => some d
  | h :: hs => (d.happen? h).bind (·.run? hs)

/-- What happens at the elector itself. -/
def incidents (hs : List Happening) : List Node.Incident :=
  hs.filterMap fun
    | .incident i => some i
    | _ => none

/-- Nobody else writes the record. -/
def Happening.Spares : Happening → Prop
  | other (.put key _) => ¬ IsRecordKey key
  | _ => True

instance : DecidablePred Happening.Spares := fun h =>
  match h with
  | .other (.put key _) =>
    inferInstanceAs (Decidable ¬ (key = Registry.primaryHostKey ∨ key = Registry.primaryPortKey))
  | .other (.get _) => .isTrue trivial
  | .other (.increment _) => .isTrue trivial
  | .other (.zero _) => .isTrue trivial
  | .incident _ => .isTrue trivial
  | .carryOut _ => .isTrue trivial

/-- `d.Happens h d'` spells out how the happening `h` leads from `d` to `d'`. -/
inductive Happens (d : Publisher) : Happening → Publisher → Prop where
  | incident {i : Node.Incident} {n : Node} (accepted : d.accepts i = true)
      (hi : d.node.undergo? i = some n) :
      d.Happens (.incident i) { d with node := n, underway := d.underway ++ d.node.asks i }
  | carryOut {k : Nat} {x : CallId × String × String} (found : d.underway[k]? = some x) :
      d.Happens (.carryOut k)
        { d with
          registry := d.registry.after (.put x.2.1 x.2.2)
          underway := d.underway.eraseIdx k
          written := d.written ++ [x.2] }
  | other {q : Registry.Request} : d.Happens (.other q) { d with registry := d.registry.after q }

variable {d d' d₁ : Publisher} {h : Happening} {hs fs : List Happening} {id : CallId}

theorem happens_of_happen? (made : d.happen? h = some d') : d.Happens h d' := by
  cases h with
  | incident i =>
    obtain ⟨hi, hmap⟩ := Option.ite_none_right_eq_some.mp made
    obtain ⟨n, hn, rfl⟩ := Option.map_eq_some_iff.mp hmap
    exact .incident hi hn
  | carryOut k =>
    obtain ⟨x, hx, rfl⟩ := Option.map_eq_some_iff.mp made
    exact .carryOut hx
  | other q =>
    cases made
    exact .other

/-- What every happening keeps is kept by a run. -/
theorem run?_keeps {P : Publisher → Prop} {Q : Happening → Prop}
    (keep : ∀ {d h d'}, d.Happens h d' → Q h → P d → P d') (run : d.run? hs = some d')
    (may : ∀ h ∈ hs, Q h) (hd : P d) : P d' := by
  induction hs generalizing d with
  | nil =>
    cases run
    exact hd
  | cons h hs ih =>
    obtain ⟨d₁, made, rest⟩ := Option.bind_eq_some_iff.mp run
    refine ih rest (fun g hg => may g (List.mem_cons_of_mem _ hg)) ?_
    exact keep (happens_of_happen? made) (may h List.mem_cons_self) hd

theorem run?_append (first : d.run? hs = some d₁) (then_ : d₁.run? fs = some d') :
    d.run? (hs ++ fs) = some d' := by
  induction hs generalizing d with
  | nil =>
    cases first
    exact then_
  | cons h hs ih =>
    obtain ⟨d₂, made, rest⟩ := Option.bind_eq_some_iff.mp first
    exact Option.bind_eq_some_iff.mpr ⟨d₂, made, ih rest⟩

/-- The elector runs as if there were no registry. -/
theorem live?_of_run? (run : d.run? hs = some d') :
    ∃ c, d.node.live? (incidents hs) = some (d'.node, c) := by
  induction hs generalizing d with
  | nil =>
    cases run
    exact ⟨_, rfl⟩
  | cons h hs ih =>
    obtain ⟨d₁, made, rest⟩ := Option.bind_eq_some_iff.mp run
    obtain ⟨c, hlive⟩ := ih rest
    cases happens_of_happen? made with
    | incident accepted hi => exact ⟨_, Node.live?_cons hi hlive⟩
    | carryOut found => exact ⟨c, hlive⟩
    | other => exact ⟨c, hlive⟩

/-! ## What was written by then -/

/-- What holds of the writes of an elector throughout a run. -/
structure Sound (d : Publisher) : Prop where
  plain : d.node.Plain
  /-- Under the keys of the record only the record is on its way. -/
  own : ∀ x ∈ d.underway, IsRecordKey x.2.1 → x.2 ∈ d.node.elector.record
  /-- A write that was asked for is underway or carried out. -/
  asked : ∀ id a x, d.node.course id = some (.going a true) → d.node.put? id = some x →
    (id, x) ∈ d.underway ∨ x ∈ d.written
  published : ∀ id a asked route p, d.node.course id = some (.going a asked) →
    a.promotion? = some (route, p) → p.published d.node.elector ⊆ d.written
  opened : d.node.elector.gate = .released → d.node.elector.record ⊆ d.written

theorem sound_fresh (i : Identity) (owner : String) (port : Nat) (dir : Option String)
    (c : Registry.Content) : (fresh (.fresh i owner port dir) c).Sound where
  plain _ _ _ here := nomatch here
  own _ hx := absurd hx List.not_mem_nil
  asked _ _ _ here := nomatch here
  published _ _ _ _ _ here := nomatch here
  opened hgate := nomatch hgate

variable {n : Node} {i : Node.Incident} {a : Activity} {asked : Bool}

/-- An incident leaves whoever waits for a write where it was, or it is what asks. -/
theorem Sound.asked_of_undergoes (hd : d.Sound) (hu : d.node.Undergoes i n) {x : String × String}
    (here : n.course id = some (.going a true)) (hx : n.put? id = some x) :
    (id, x) ∈ d.underway ++ d.node.asks i ∨ x ∈ d.written := by
  have hrequest : ∀ {m : Node} {asked : Bool}, m.course id = some (.going a asked) →
      m.elector.card = n.elector.card → m.put? id = some x := by
    intro m asked hm hcard
    rw [Node.put?_of_going hm, Activity.request?_of_card hcard, ← Node.put?_of_going here, hx]
  generalize hasked : true = asked' at here
  cases hu.origin here with
  | aside other before =>
    subst hasked
    rcases hd.asked id a x before (hrequest before hu.card.symm) with hmem | hmem
    · exact .inl (List.mem_append_left _ hmem)
    · exact .inr hmem
  | ask before request =>
    refine .inl (List.mem_append_right _ ?_)
    rw [Node.asks, hrequest before hu.card.symm]
    exact List.mem_singleton.mpr rfl
  | call => exact nomatch hasked
  | spawn => exact nomatch hasked
  | step => exact nomatch hasked
  | answer => exact nomatch hasked

/-- Where a promotion is after an incident, what belongs there was written. -/
theorem Sound.published_of_undergoes (hd : d.Sound) (accepted : d.accepts i = true)
    (hu : d.node.Undergoes i n) {route : Route} {p : PromotionPoint}
    (here : n.course id = some (.going a asked)) (hp : a.promotion? = some (route, p)) :
    p.published n.elector ⊆ d.written := by
  rw [hu.published]
  cases hu.origin here with
  | aside other before => exact hd.published id a asked route p before hp
  | @call entry => cases entry <;> exact nomatch hp
  | spawn => exact nomatch hp
  | ask before request => exact hd.published id a false route p before hp
  | step before ready next =>
    rcases Activity.promotion?_of_step next hp with rfl | ⟨p', hp', hnext⟩
    · exact List.nil_subset _
    · have hrequest : p'.request? d.node.elector = none :=
        Option.isNone_iff_eq_none.mp ((Activity.isReady_of_promotion hp').symm.trans ready)
      rw [PromotionPoint.published_of_step hrequest hnext]
      exact List.nil_subset _
  | @answer b _ q r before request next =>
    rcases Activity.promotion?_of_reply next hp with rfl | ⟨p', hp', hnext⟩
    · exact List.nil_subset _
    · have hrequest := (Activity.request?_of_promotion hp').symm.trans request
      obtain ⟨⟨key, value⟩, -, rfl⟩ := PromotionPoint.exists_put hrequest
      -- it is answered, so its write is no longer underway
      have hentry := Node.put?_of_put before request
      rw [accepts, hentry, Option.isNone_some, Bool.false_or, Bool.and_eq_true] at accepted
      have hwritten : (key, value) ∈ d.written := by
        refine (hd.asked id b (key, value) before hentry).resolve_left fun hmem => ?_
        exact bne_iff_ne.mp (List.all_eq_true.mp accepted.2 _ hmem) rfl
      intro x hx
      rcases List.mem_append.mp
        (PromotionPoint.published_of_reply hrequest accepted.1 hnext hx) with hx | hx
      · exact hd.published id b true route p' before hp' hx
      · exact List.mem_singleton.mp hx ▸ hwritten

/-- Whoever opens the gate has written the record. -/
theorem Sound.opened_of_undergoes (hd : d.Sound) (hu : d.node.Undergoes i n)
    (hgate : n.elector.gate = .released) : n.elector.record ⊆ d.written := by
  rw [hu.record]
  by_cases hbefore : d.node.elector.gate = .released
  · exact hd.opened hbefore
  · obtain ⟨id, w, a, asked, -, route, -, here, ha, -⟩ := hu.opening hbefore hgate
    exact hd.published id a asked route .openGate here (Activity.promotion?_of_opening ha)

theorem Sound.own_of_asks (hd : d.Sound) (hu : d.node.Undergoes i n)
    {x : CallId × String × String} (hx : x ∈ d.node.asks i) (hkey : IsRecordKey x.2.1) :
    x.2 ∈ d.node.elector.record := by
  cases i with
  | move m =>
    cases m with
    | ask id =>
      obtain ⟨y, hy, rfl⟩ := List.mem_map.mp hx
      cases hu with
      | move made =>
        cases made with
        | ask here request =>
          rw [Option.mem_toList, Node.put?_of_going here, request] at hy
          exact Activity.mem_record_of_put (hd.plain _ _ _ here)
            (request.trans (congrArg some (Request.eq_put_of_put? hy))) hkey
    | _ => exact nomatch hx
  | collapse id => exact nomatch hx

/-- What is left underway when a write was carried out. -/
theorem mem_eraseIdx_or {α : Type} {l : List α} {k : Nat} {x y : α} (found : l[k]? = some x)
    (h : y ∈ l) : y = x ∨ y ∈ l.eraseIdx k := by
  obtain ⟨j, hj, rfl⟩ := List.getElem_of_mem h
  by_cases hjk : j = k
  · subst hjk
    exact .inl (Option.some.inj ((List.getElem?_eq_getElem hj).symm.trans found))
  · exact .inr (List.mem_eraseIdx_iff_getElem.mpr ⟨j, hj, hjk, rfl⟩)

theorem Sound.happens (hd : d.Sound) (made : d.Happens h d') : d'.Sound := by
  cases made with
  | @incident i n accepted hi =>
    have hu := Node.undergoes_of_undergo? hi
    exact
      { plain := hu.plain hd.plain
        own := fun x hx hkey => by
          rw [hu.record]
          rcases List.mem_append.mp hx with hx | hx
          · exact hd.own x hx hkey
          · exact hd.own_of_asks hu hx hkey
        asked := fun id a x here hx => hd.asked_of_undergoes hu here hx
        published := fun id a asked route p here hp =>
          hd.published_of_undergoes accepted hu here hp
        opened := fun hgate => hd.opened_of_undergoes hu hgate }
  | @carryOut k x found =>
    exact
      { plain := hd.plain
        own := fun y hy hkey => hd.own y (List.mem_of_mem_eraseIdx hy) hkey
        asked := fun id a y here hy => by
          rcases hd.asked id a y here hy with hmem | hmem
          · rcases mem_eraseIdx_or found hmem with rfl | hleft
            · exact .inr (List.mem_append_right _ (List.mem_singleton.mpr rfl))
            · exact .inl hleft
          · exact .inr (List.mem_append_left _ hmem)
        published := fun id a asked route p here hp y hy =>
          List.mem_append_left _ (hd.published id a asked route p here hp hy)
        opened := fun hgate y hy => List.mem_append_left _ (hd.opened hgate hy) }
  | other => exact ⟨hd.plain, hd.own, hd.asked, hd.published, hd.opened⟩

/-! ## What a reader finds -/

/-- What was written of the record stands in the registry. -/
def Shows (d : Publisher) : Prop :=
  ∀ x ∈ d.node.elector.record, x ∈ d.written → d.registry.entries.get? x.1 = some x.2

theorem Shows.happens (hshows : d.Shows) (hd : d.Sound) (made : d.Happens h d')
    (spares : h.Spares) : d'.Shows := by
  intro y hy hwritten
  have hkey := Elector.isRecordKey_of_mem hy
  cases made with
  | incident accepted hi =>
    have hrecord := (Node.undergoes_of_undergo? hi).record
    exact hshows y (hrecord ▸ hy) hwritten
  | @carryOut k x found =>
    by_cases heq : y.1 = x.2.1
    · -- what was underway under this key is this entry of the record
      have hown := hd.own x (List.mem_of_getElem? found) (heq ▸ hkey)
      obtain rfl := Elector.eq_of_mem_record hown hy heq.symm
      exact Registry.Content.get?_after_put ..
    · have hbefore : y ∈ d.written := by
        refine (List.mem_append.mp hwritten).resolve_right fun hlast => ?_
        exact heq (congrArg (·.1) (List.mem_singleton.mp hlast))
      refine (Registry.Content.get?_after _ _ fun value hput => ?_).trans (hshows y hy hbefore)
      exact heq (Registry.Request.put.inj hput).1.symm
  | @other q =>
    refine (Registry.Content.get?_after _ _ fun value hput => ?_).trans (hshows y hy hwritten)
    subst hput
    exact spares hkey

section Reached

variable {i : Identity} {owner : String} {port : Nat} {dir : Option String} {c : Registry.Content}

theorem sound_of_run? (run : (fresh (.fresh i owner port dir) c).run? hs = some d) : d.Sound :=
  run?_keeps (Q := fun _ => True) (fun made _ hm => hm.happens made) run (fun _ _ => trivial)
    (sound_fresh i owner port dir c)

theorem shows_of_run? (run : (fresh (.fresh i owner port dir) c).run? hs = some d)
    (spares : ∀ h ∈ hs, h.Spares) : d.Shows :=
  (run?_keeps (P := fun m => m.Sound ∧ m.Shows)
    (fun made hspares hm => ⟨hm.1.happens made, hm.2.happens hm.1 made hspares⟩) run spares
    ⟨sound_fresh i owner port dir c, fun _ _ hx => absurd hx List.not_mem_nil⟩).2

/-- The record is that of the elector as it was made. -/
theorem record_of_run? (run : (fresh (.fresh i owner port dir) c).run? hs = some d) :
    d.node.elector.record =
      [(Registry.primaryHostKey, i.host), (Registry.primaryPortKey, toString port)] := by
  have hcard : d.node.elector.card = (Elector.fresh i owner port dir).card := by
    refine run?_keeps (P := fun m => m.node.elector.card = (Elector.fresh i owner port dir).card)
      (Q := fun _ => True) (fun made _ hm => ?_) run (fun _ _ => trivial) rfl
    cases made with
    | incident accepted hi => exact (Node.undergoes_of_undergo? hi).card.trans hm
    | carryOut found => exact hm
    | other => exact hm
  have hidentity : d.node.elector.identity = i := congrArg (·.1) hcard
  have hport : d.node.elector.port = port := congrArg (·.2.2.1) hcard
  rw [Elector.record, hidentity, hport]

/-- Behind an open gate both halves of the record were written. -/
theorem written_of_released (run : (fresh (.fresh i owner port dir) c).run? hs = some d)
    (hgate : d.node.elector.gate = .released) :
    (Registry.primaryHostKey, i.host) ∈ d.written ∧
    (Registry.primaryPortKey, toString port) ∈ d.written := by
  have hsubset := (sound_of_run? run).opened hgate
  rw [record_of_run? run] at hsubset
  exact ⟨hsubset List.mem_cons_self, hsubset (List.mem_cons_of_mem _ List.mem_cons_self)⟩

/-- If nobody else writes the record, both halves stand in the registry. -/
theorem shown_of_released (run : (fresh (.fresh i owner port dir) c).run? hs = some d)
    (hgate : d.node.elector.gate = .released) (spares : ∀ h ∈ hs, h.Spares) :
    d.registry.entries.get? Registry.primaryHostKey = some i.host ∧
    d.registry.entries.get? Registry.primaryPortKey = some (toString port) := by
  have hshows := shows_of_run? run spares
  rw [Shows, record_of_run? run] at hshows
  obtain ⟨hhost, hport⟩ := written_of_released run hgate
  exact ⟨hshows _ List.mem_cons_self hhost,
    hshows _ (List.mem_cons_of_mem _ List.mem_cons_self) hport⟩

end Reached

theorem released_of_run? (run : d.run? hs = some d') (hgate : d.node.elector.gate = .released) :
    d'.node.elector.gate = .released := by
  obtain ⟨_, hlive⟩ := live?_of_run? run
  exact (Node.live?_precedes hlive).released hgate

/-- A call that finds the elector standing by waits from then on. -/
theorem waiting_of_run? {i : Identity} {owner : String} {port : Nat} {dir : Option String}
    {c : Registry.Content} {w : CallId} {asked : Bool}
    (reached : (fresh (.fresh i owner port dir) c).run? hs = some d)
    (here : d.node.course id = some (.going (.await .check) asked))
    (standby : d.node.elector.status = .standby)
    (made : d.happen? (.incident (.move (.step id w))) = some d₁) (run : d₁.run? fs = some d') :
    d'.node.Waiting id ((incidents fs).countP (·.isStepOf id)) := by
  obtain ⟨_, hlive⟩ := live?_of_run? reached
  obtain ⟨_, hlive'⟩ := live?_of_run? run
  cases happens_of_happen? made with
  | incident accepted hi =>
    have hu := Node.undergoes_of_undergo? hi
    have hwaiting := (hu.waiting here standby).live
      ((Node.coherent_of_live? hlive).undergoes hu) hlive'
    rwa [Nat.zero_add] at hwaiting

/-- Against a reliable registry and any lock service, and however calls interleave: a call that
finds the elector standing by is suspended as long as the gate is pending, and once the gate is
settled it returns within two steps of its own, which it can take at any time; it returns stopped
if the gate was closed, and otherwise running, or stopped if the elector has been stopped since.
When the gate is open, both halves of the record were written; if nobody else writes the record,
whoever reads it from then on reads where the elector is reached. -/
theorem waiters_resolve {i : Identity} {owner : String} {port : Nat} {dir : Option String}
    {c : Registry.Content} (reached : (fresh (.fresh i owner port dir) c).run? hs = some d) :
    (∀ id w asked d₁ fs d', d.node.course id = some (.going (.await .check) asked) →
      d.node.elector.status = .standby →
      d.happen? (.incident (.move (.step id w))) = some d₁ → d₁.run? fs = some d' →
      d'.node.course id = some .brokenOff ∨
      (d'.node.elector.gate = .pending →
        d'.node.course id = some (.going (.await .gate) false) ∧
        (Activity.await .gate).isReady d'.node.elector id = false) ∧
      (d'.node.elector.gate ≠ .pending →
        (∃ s, d'.node.course id = some (.ended (.awaited s)) ∧ d'.node.Reports s) ∨
        ∃ p, d'.node.course id = some (.going (.await p) false) ∧
          (Activity.await p).isReady d'.node.elector id = true ∧
          (incidents fs).countP (·.isStepOf id) < 2)) ∧
    (d.node.elector.gate = .released →
      (Registry.primaryHostKey, i.host) ∈ d.written ∧
      (Registry.primaryPortKey, toString port) ∈ d.written ∧
      ∀ fs d₁ gs d₂, d.run? fs = some d₁ → d₁.run? gs = some d₂ →
        (∀ h ∈ hs ++ fs ++ gs, h.Spares) → port ≤ Text.nat16Max →
        Registry.answeredAt [d₁.registry, d₂.registry] Registry.PrimaryRecord.load.run =
          some (.ok (some ⟨i.host, port⟩))) := by
  refine ⟨fun id w asked d₁ fs d' here standby made run => ?_, fun hgate => ?_⟩
  · have hwaiting := waiting_of_run? reached here standby made run
    by_cases hpending : d'.node.elector.gate = .pending
    · rcases hwaiting.of_pending hpending with hdropped | hsuspended
      · exact .inl hdropped
      · exact .inr ⟨fun _ => hsuspended, fun hsettled => absurd hpending hsettled⟩
    · rcases hwaiting.of_settled hpending with hdropped | hresolves
      · exact .inl hdropped
      · exact .inr ⟨fun h => absurd h hpending, fun _ => hresolves⟩
  · obtain ⟨hhost, hport⟩ := written_of_released reached hgate
    refine ⟨hhost, hport, fun fs d₁ gs d₂ run₁ run₂ spares small => ?_⟩
    -- an open gate stays open, so each half is found at its own moment
    have hgate₁ := released_of_run? run₁ hgate
    have reached₁ := run?_append reached run₁
    have reached₂ := run?_append reached₁ run₂
    have hfirst := (shown_of_released reached₁ hgate₁ fun h hh =>
      spares h (List.mem_append_left _ hh)).1
    have hsecond := (shown_of_released reached₂ (released_of_run? run₂ hgate₁) spares).2
    exact Registry.load_answeredAt hfirst hsecond small

/-! ## Runs of an elector and its registry -/

def clean : Publisher := fresh (.fresh ⟨"host", 7, "lead", "a"⟩ "a#1" 4000 none) .empty

/-- What happenings lead to, if all of them can happen. -/
def after (d : Publisher) (hs : List Happening) : Publisher := (d.run? hs).getD d

/-- An activity makes a request that is answered. -/
def exchange (id : CallId) (granted : Bool) : List Happening :=
  [.incident (.move (.ask id)), .incident (.move (.answer id (.ok granted)))]

/-- An activity asks for a write, and it is carried out. -/
def write (id : CallId) : List Happening :=
  [.incident (.move (.ask id)), .carryOut 0, .incident (.move (.answer id (.ok true)))]

def steps (id waiter : CallId) (k : Nat) : List Happening :=
  List.replicate k (.incident (.move (.step id waiter)))

/-- A start stands by, and then two calls wait for the elector to become primary. -/
def standingBy : List Happening :=
  .incident (.move (.call 0 (.start "memory" false))) :: steps 0 9 2 ++ exchange 0 true ++
  write 0 ++ write 0 ++ steps 0 9 1 ++ exchange 0 false ++ steps 0 9 1 ++ steps 0 8 1 ++
  steps 0 9 2 ++
  [.incident (.move (.call 1 .await)), .incident (.move (.call 2 .await))] ++ steps 2 9 1

/-- The waiter is granted the lock and has written the record. -/
def granted : List Happening :=
  exchange 8 true ++ steps 8 9 3 ++ write 8 ++ write 8

/-- It opens the gate, and the first of the calls returns. -/
def woken : List Happening := steps 8 9 1 ++ steps 1 9 2

theorem woken_waiters_resolve :
    (clean.after (standingBy ++ steps 1 9 1 ++ granted)).node.course 1 =
      some (.going (.await .gate) false) ∧
    (∃ s, (clean.after (standingBy ++ steps 1 9 1 ++ granted ++ woken)).node.course 1 =
      some (.ended (.awaited s)) ∧ (s = .running ∨ s = .stopped)) ∧
    Registry.answeredAt
      [(clean.after (standingBy ++ steps 1 9 1 ++ granted ++ woken)).registry,
        (clean.after (standingBy ++ steps 1 9 1 ++ granted ++ woken)).registry]
      Registry.PrimaryRecord.load.run = some (.ok (some ⟨"host", 4000⟩)) := by
  have hstanding : clean.run? standingBy = some (clean.after standingBy) := rfl
  have hmade : (clean.after standingBy).happen? (.incident (.move (.step 1 9))) =
      some (clean.after (standingBy ++ steps 1 9 1)) := rfl
  have hgranted : (clean.after (standingBy ++ steps 1 9 1)).run? granted =
      some (clean.after (standingBy ++ steps 1 9 1 ++ granted)) := rfl
  have hwoken : (clean.after (standingBy ++ steps 1 9 1)).run? (granted ++ woken) =
      some (clean.after (standingBy ++ steps 1 9 1 ++ granted ++ woken)) := rfl
  have hreached : clean.run? (standingBy ++ steps 1 9 1 ++ granted ++ woken) =
      some (clean.after (standingBy ++ steps 1 9 1 ++ granted ++ woken)) := rfl
  have hcalls := (waiters_resolve hstanding).1 1 9 false
  obtain ⟨-, -, hload⟩ := (waiters_resolve hreached).2 rfl
  refine ⟨?_, ?_, hload [] _ [] _ rfl rfl (by decide) (by decide)⟩
  · rcases hcalls _ granted _ rfl rfl hmade hgranted with hdropped | ⟨hpending, -⟩
    · exact nomatch hdropped
    · exact (hpending rfl).1
  · rcases hcalls _ (granted ++ woken) _ rfl rfl hmade hwoken with hdropped | ⟨-, hsettled⟩
    · exact nomatch hdropped
    · rcases hsettled nofun with ⟨s, hended, hreports⟩ | ⟨p, -, -, hcount⟩
      · exact ⟨s, hended, hreports.status.imp_right And.left⟩
      · -- it has taken two steps
        exact absurd hcount (by decide)

end Publisher

end Primacy.Election
