/-
  Primacy.Proofs.Election.Record

  Who writes the primary record.  The first half is always written by the holder of the lock, and
  so is the second half, with one exception: a start that blocks keeps no stop out, so a stop can
  come in while the first half is being written, and the start writes the second half without the
  lock.
-/
import Primacy.Proofs.Election.Exclusion
import Primacy.Proofs.Election.Tending
import Primacy.Proofs.Registry.Namespace

namespace Primacy.Election

/-! ## Entries of a node -/

/-- The key of one half of the primary record. -/
def IsRecordKey (key : String) : Prop :=
  key = Registry.primaryHostKey ∨ key = Registry.primaryPortKey

/-- An underscore tells the keys of a node from those of the record. -/
theorem not_isRecordKey_of_underscore {key : String} (h : '_' ∈ key.toList) :
    ¬ IsRecordKey key := by
  rintro (rfl | rfl)
  · revert h
    decide
  · revert h
    decide

/-- What an elector writes about itself are entries of its node. -/
theorem Elector.exists_entry_of_mem_endpoints (e : Elector) {w : String × String}
    (hw : w ∈ e.endpoints) : ∃ k : Registry.NodeEntry, w.1 = k.key e.identity := by
  unfold endpoints at hw
  rcases List.mem_append.mp hw with hw | hw
  · simp only [List.mem_cons, List.not_mem_nil, or_false] at hw
    rcases hw with rfl | rfl
    · exact ⟨.host, rfl⟩
    · exact ⟨.port, rfl⟩
  · split at hw
    · exact ⟨.logDir, congrArg Prod.fst (List.mem_singleton.mp hw)⟩
    · exact nomatch hw

theorem Elector.underscore_mem_endpoints (e : Elector) {w : String × String}
    (hw : w ∈ e.endpoints) : '_' ∈ w.1.toList := by
  obtain ⟨k, hk⟩ := e.exists_entry_of_mem_endpoints hw
  rw [hk]
  exact Registry.NodeEntry.underscore_mem_key k e.identity

namespace Activity

variable {e : Elector} {me : CallId} {a a' : Activity} {r : Reply}

/-- The writes that are left to an activity that publishes where its elector is reached. -/
def writes : Activity → List (String × String)
  | start (.publish writes _) => writes
  | _ => []

/-- The writes that are left after a turn. -/
def writesAfter : Activity ⊕ Ending → List (String × String) := Sum.elim writes fun _ => []

theorem writes_afterPromotion (blocking : Bool) (r : Promotion) :
    ((StartPoint.afterPromotion blocking r).elim (fun p => (start p).writes) fun _ => []) = [] := by
  cases r <;> cases blocking <;> rfl

/-- Only an answer leaves writes to do. -/
theorem writesAfter_step (a : Activity) (e : Elector) (me : CallId) :
    writesAfter (a.step e me).next = [] := by
  cases a with
  | start p =>
    rw [step, writesAfter, Turn.elim_within]
    cases p with
    | arrive address blocking =>
      by_cases hi : (e.init.arrive me).isInside me = true <;>
        simp [StartPoint.step, hi, Turn.go, writes]
    | check address blocking =>
      by_cases hs : (e.started || e.status != .uninitialized) = true <;>
        simp [StartPoint.step, hs, Turn.go, writes]
    | publish writes blocking => cases blocking <;> rfl
    | standBy =>
      by_cases hs : e.status.canBecome .standby = true <;>
        simp [StartPoint.step, hs, Turn.go, writes]
    | checkShutdown =>
      by_cases hs : e.shutdown = true <;> simp [StartPoint.step, hs, Turn.go, writes]
    | promote blocking p =>
      exact Turn.elim_within_const (fun _ => rfl) (writes_afterPromotion blocking)
    | readStatus blocking => cases blocking <;> rfl
    | _ => rfl
  | _ => exact Turn.elim_within_const (fun _ => rfl) fun _ => rfl

theorem writesAfter_reply (a : Activity) (e : Elector) (r : Reply) :
    writesAfter (a.reply e r).next ⊆ a.writes ++ e.endpoints := by
  cases a with
  | start p =>
    rw [reply, writesAfter, Turn.elim_within]
    cases p with
    | connect address blocking =>
      cases r with
      | ok granted => exact List.subset_append_right _ _
      | error err => exact List.nil_subset _
    | publish writes blocking =>
      cases writes with
      | nil => exact List.nil_subset _
      | cons w writes =>
        have hrest := List.Subset.trans (List.subset_cons_self w writes)
          (List.subset_append_left _ e.endpoints)
        cases r with
        | ok granted => exact hrest
        | error err => exact hrest
    | promote blocking p =>
      have hnone : ((StartPoint.promote blocking p).reply e r).next.elim (fun p => (start p).writes)
          (fun _ => []) = [] :=
        Turn.elim_within_const (fun _ => rfl) (writes_afterPromotion blocking)
      show Sum.elim (fun p => (start p).writes) (fun _ => []) _ ⊆ _
      rw [hnone]
      exact List.nil_subset _
    | tryLock =>
      cases r with
      | ok granted => cases granted <;> exact List.nil_subset _
      | error err => exact List.nil_subset _
    | _ => cases r <;> exact List.nil_subset _
  | stop p =>
    have hnone : writesAfter ((stop p).reply e r).next = [] :=
      Turn.elim_within_const (fun _ => rfl) fun _ => rfl
    rw [hnone]
    exact List.nil_subset _
  | waiter p =>
    have hnone : writesAfter ((waiter p).reply e r).next = [] :=
      Turn.elim_within_const (fun _ => rfl) fun _ => rfl
    rw [hnone]
    exact List.nil_subset _
  | _ => exact List.nil_subset _

/-- The activity made the elector run, and writes the record without waiting for anything. -/
def isOpening : Activity → Bool
  | start (.promote _ .checkShutdown) => true
  | start (.promote _ .putHost) => true
  | waiter (.promote .checkShutdown) => true
  | waiter (.promote .putHost) => true
  | _ => false

end Activity

theorem PromotionPoint.opening_of_step {route : Route} {e : Elector} {p p' : PromotionPoint}
    (h : (p.step route e).next = .inl p') (hp' : p' = .checkShutdown ∨ p' = .putHost)
    (hask : p ≠ .putHost) :
    (p.step route e).elector.status = .running ∨
    p = .checkShutdown ∧ (p.step route e).elector.status = e.status := by
  cases p with
  | run =>
    by_cases hs : e.status.canBecome .running = true
    · exact .inl (by simp [step, hs, Turn.go])
    · simp [step, hs, Turn.finish] at h
  | checkShutdown =>
    refine .inr ⟨rfl, ?_⟩
    simp only [step]
    split <;> rfl
  | putHost => exact absurd rfl hask
  | putPort =>
    cases h
    rcases hp' with hp' | hp'
    · cases hp'
    · cases hp'
  | openGate =>
    cases hg : e.gate.release with
    | mk opened gate =>
      cases opened <;> simp [step, hg, Turn.go, Turn.finish] at h
      rw [← h] at hp'
      rcases hp' with hp' | hp'
      · cases hp'
      · cases hp'
  | callBack => cases h

theorem WaiterPoint.next_of_settlePromotion {t : Turn PromotionPoint Promotion}
    {p : PromotionPoint} (h : (settlePromotion t).next = .inl (promote p)) :
    t.next = .inl p ∧ (settlePromotion t).elector = t.elector := by
  rcases settlePromotion_elector_next t with ⟨p', hn, ht⟩ | ⟨hn, ht⟩ | ⟨hn, ht⟩
  · rw [ht] at h ⊢
    cases h
    exact ⟨hn, rfl⟩
  · rw [ht] at h
    exact nomatch h
  · rw [ht] at h
    exact nomatch h

namespace Activity

variable {e : Elector} {me : CallId} {a a' : Activity} {r : Reply}

theorem stage_of_opening (h : a.isOpening = true) : a.stage = .promoting := by
  cases a with
  | start p =>
    cases p with
    | promote blocking p => cases p <;> first | rfl | exact nomatch h
    | _ => exact nomatch h
  | waiter p =>
    cases p with
    | promote p => cases p <;> first | rfl | exact nomatch h
    | _ => exact nomatch h
  | _ => exact nomatch h

/-- Whoever opens and can take a step makes no request there. -/
theorem request?_of_opening (hready : a.isReady e me = true) (h : a.isOpening = true) :
    a.request? e = none := by
  cases a with
  | start p =>
    cases p with
    | promote blocking p => exact Option.isNone_iff_eq_none.mp hready
    | _ => exact nomatch h
  | waiter p =>
    cases p with
    | promote p => exact Option.isNone_iff_eq_none.mp hready
    | _ => exact nomatch h
  | _ => exact nomatch h

/-- Only starts and waiters promote. -/
theorem promote_of_promoting (h : a.stage = .promoting) :
    (∃ blocking p, a = .start (.promote blocking p)) ∨ ∃ p, a = .waiter (.promote p) := by
  cases a with
  | start p =>
    cases p with
    | promote blocking p => exact .inl ⟨blocking, p, rfl⟩
    | _ => exact nomatch h
  | waiter p =>
    cases p with
    | promote p => exact .inr ⟨p, rfl⟩
    | _ => exact nomatch h
  | stop p =>
    cases p with
    | closeGate before => cases before <;> exact nomatch h
    | _ => exact nomatch h
  | await p => exact nomatch h
  | notify p => exact nomatch h

/-- Whoever opens made the elector run in the same breath. -/
theorem opening_of_step (hready : a.isReady e me = true) (h : (a.step e me).next = .inl a')
    (ha' : a'.isOpening = true) : (a.step e me).elector.status = .running ∨
      a.isOpening = true ∧ (a.step e me).elector.status = e.status := by
  have hp := step_passage hready
  rw [h] at hp
  have hafter : stageAfter (.inl a') = .promoting := stage_of_opening ha'
  rw [hafter] at hp
  rcases hp.promoting_before with hstage | hrunning
  · rcases promote_of_promoting hstage with ⟨blocking, p, rfl⟩ | ⟨p, rfl⟩
    · have hask : p ≠ .putHost := by
        rintro rfl
        cases hready
      rcases Turn.of_within h with ⟨p₁, hn₁, rfl⟩ | ⟨_, -, hr⟩
      · rcases Turn.of_within hn₁ with ⟨p', hn, rfl⟩ | ⟨r, -, hr⟩
        · have hp' : p' = .checkShutdown ∨ p' = .putHost := by
            cases p' <;> first | exact .inl rfl | exact .inr rfl | cases ha'
          rcases PromotionPoint.opening_of_step hn hp' hask with hrunning | ⟨rfl, hsame⟩
          · exact .inl hrunning
          · exact .inr ⟨rfl, hsame⟩
        · cases r <;> cases blocking <;> cases hr <;> cases ha'
      · cases hr
    · have hask : p ≠ .putHost := by
        rintro rfl
        cases hready
      rcases Turn.of_within h with ⟨w, hn, rfl⟩ | ⟨_, -, hr⟩
      · cases w with
        | promote p' =>
          obtain ⟨hn', helector⟩ := WaiterPoint.next_of_settlePromotion hn
          have hp' : p' = .checkShutdown ∨ p' = .putHost := by
            cases p' <;> first | exact .inl rfl | exact .inr rfl | cases ha'
          have hstatus := congrArg Elector.status helector
          rcases PromotionPoint.opening_of_step hn' hp' hask with hrunning | ⟨rfl, hsame⟩
          · exact .inl (hstatus.trans hrunning)
          · exact .inr ⟨rfl, hstatus.trans hsame⟩
        | _ => cases ha'
      · cases hr
  · exact .inl hrunning.2

/-- No answer opens. -/
theorem opening_of_reply {q : Request} (hq : a.request? e = some q)
    (h : (a.reply e r).next = .inl a') : a'.isOpening = false := by
  by_contra ha'
  rw [Bool.not_eq_false] at ha'
  have hp := reply_passage (r := r) hq
  rw [h] at hp
  have hafter : stageAfter (.inl a') = .promoting := stage_of_opening ha'
  rw [hafter] at hp
  rcases hp.promoting_before with hstage | ⟨hanswered, -⟩
  · rcases promote_of_promoting hstage with ⟨blocking, p, rfl⟩ | ⟨p, rfl⟩
    · cases p with
      | putHost =>
        cases r <;> cases h <;> exact nomatch ha'
      | putPort => cases r <;> cases h <;> exact nomatch ha'
      | _ => exact nomatch hq
    · cases p with
      | putHost => cases r <;> cases h <;> exact nomatch ha'
      | putPort => cases r <;> cases h <;> exact nomatch ha'
      | _ => exact nomatch hq
  · exact nomatch hanswered

end Activity

namespace Node

variable {n n' : Node} {id : CallId} {a : Activity}

/-- What is left to publish are entries of the node's own. -/
def Plain (n : Node) : Prop :=
  ∀ id a asked, n.course id = some (.going a asked) → ∀ w ∈ a.writes, '_' ∈ w.1.toList

theorem Makes.plain {m : Move} (h : n.Makes m n') (hn : n.Plain) : n'.Plain := by
  intro id' a' asked' here w hw
  cases h with
  | @call id c new =>
    rcases course_setCourse here with ⟨-, hc⟩ | ⟨-, here⟩
    · cases hc
      cases c <;> exact nomatch hw
    · exact hn id' a' asked' here w hw
  | @step id waiter a asked here₀ ready new =>
    rcases course_spawn here with ⟨-, -, -, hc⟩ | here
    · cases hc
      exact nomatch hw
    · rcases going_carryOut here with ⟨-, hnext, -⟩ | ⟨-, here⟩
      · have hnone := a.writesAfter_step n.elector id
        rw [hnext] at hnone
        have hw' : w ∈ Activity.writesAfter (.inl a') := hw
        rw [hnone] at hw'
        cases hw'
      · exact hn id' a' asked' here w hw
  | @ask id a q here₀ request =>
    rcases course_setCourse here with ⟨-, hc⟩ | ⟨-, here⟩
    · cases hc
      exact hn id a' false here₀ w hw
    · exact hn id' a' asked' here w hw
  | @answer id r a q here₀ request =>
    rcases going_carryOut here with ⟨-, hnext, -⟩ | ⟨-, here⟩
    · have hrest := a.writesAfter_reply n.elector r
      rw [hnext] at hrest
      rcases List.mem_append.mp (hrest hw) with hw | hw
      · exact hn id a true here₀ w hw
      · exact n.elector.underscore_mem_endpoints hw
    · exact hn id' a' asked' here w hw
  | breakOff here₀ may =>
    rcases course_setCourse here with ⟨-, hc⟩ | ⟨-, here⟩
    · exact nomatch hc
    · exact hn id' a' asked' here w hw
  | discard => exact hn id' a' asked' here w hw

/-- The activity `id`, which had yet to ask for something in `n`, has done so in `n'`. -/
def HasAsked (n n' : Node) (id : CallId) : Prop :=
  ∃ a q, n.course id = some (.going a false) ∧ a.request? n.elector = some q ∧
    n'.requests = n.requests ++ [q]

/-- Requests are made by asking, one at a time. -/
theorem Makes.requests {m : Move} (h : n.Makes m n') :
    n'.requests = n.requests ∨ ∃ id, m = .ask id ∧ n.HasAsked n' id := by
  cases h with
  | call new => exact .inl rfl
  | step here ready new =>
    rw [spawn]
    split <;> exact .inl rfl
  | @ask id a q here request => exact .inr ⟨id, rfl, a, q, here, request, rfl⟩
  | answer here request => exact .inl rfl
  | breakOff here may => exact .inl rfl
  | discard => exact .inl rfl

theorem Makes.requests_eq {m : Move} (h : n.Makes m n') (hm : ∀ id, m ≠ .ask id) :
    n'.requests = n.requests := by
  rcases h.requests with hsame | ⟨id, hid, -⟩
  · exact hsame
  · exact absurd hid (hm id)

theorem Makes.requests_ask (h : n.Makes (.ask id) n') :
    n'.requests = n.requests ∨ n.HasAsked n' id := by
  rcases h.requests with hsame | ⟨id', hid, hasked⟩
  · exact .inl hsame
  · cases hid
    exact .inr hasked

theorem Advances.requests {L : Lock.Service} {s s' : L.State} {waiter : CallId}
    {x : L.Surroundings} {r : Reply} (h : n.Advances L s id waiter x r n' s') :
    n'.requests = n.requests ∨ n.HasAsked n' id := by
  cases h with
  | step here made => exact .inl (made.requests_eq nofun)
  | @put a asked key value _ here request made =>
    cases asked with
    | true => exact .inl (Makes.requests_eq made nofun)
    | false => exact Makes.requests_ask made
  | @wait a asked q c _ _ here request target asks look =>
    cases asked with
    | true => exact .inl (asks ▸ rfl)
    | false => exact Makes.requests_ask asks
  | @answer a asked q c n₁ _ l _ here request target asks look made =>
    rw [HasAsked, made.requests_eq nofun]
    cases asked with
    | true => exact .inl (asks ▸ rfl)
    | false => exact Makes.requests_ask asks

/-- Whoever opens after a turn does so on an elector that runs. -/
theorem Advances.opening {L : Lock.Service} {s s' : L.State} {waiter : CallId}
    {x : L.Surroundings} {r : Reply} (h : n.Advances L s id waiter x r n' s') (hn : n.Custody)
    (hopen : ∀ a, n.course id = some (.going a false) → a.isOpening = true →
      n.elector.status = .running)
    (here : n'.course id = some (.going a false)) (ha : a.isOpening = true) :
    n'.elector.status = .running := by
  have hanswer : ∀ {n₁ : Node} {r : Reply}, n₁.Makes (.answer id r) n' → False := by
    intro n₁ r made
    cases made with
    | @answer _ _ b q here₁ request =>
      rcases going_carryOut here with ⟨-, hnext, -⟩ | ⟨hne, -⟩
      · exact nomatch (Activity.opening_of_reply request hnext).symm.trans ha
      · exact hne rfl
  have hask : n.Makes (.ask id) n' → False := by
    intro made
    cases made with
    | @ask _ b q here₁ request =>
      rcases course_setCourse here with ⟨-, hc⟩ | ⟨hne, -⟩
      · exact nomatch hc
      · exact hne rfl
  cases h with
  | step here₀ made =>
    cases made with
    | @step _ _ b asked here₁ ready new =>
      rw [spawn_elector]
      rcases course_spawn here with ⟨-, -, -, hc⟩ | here
      · cases hc
        exact nomatch ha
      · rcases going_carryOut here with ⟨-, hnext, -⟩ | ⟨hne, -⟩
        · rcases Activity.opening_of_step ready hnext ha with hrunning | ⟨hb, hsame⟩
          · exact hrunning
          · refine hsame.trans ?_
            cases asked with
            | false => exact hopen b here₁ hb
            | true =>
              have hsome := hn.pending id b here₁
              rw [Activity.request?_of_opening ready hb] at hsome
              exact nomatch hsome
        · exact absurd rfl hne
  | @put a asked key value _ here₀ request made =>
    cases asked with
    | true => exact (hanswer made).elim
    | false => exact (hask made).elim
  | @wait b asked q c _ _ here₀ request target asks look =>
    cases asked with
    | true =>
      obtain rfl : n' = n := asks
      exact nomatch here.symm.trans here₀
    | false => exact (hask asks).elim
  | answer here₀ request target asks look made => exact (hanswer made).elim

end Node

/-! ## Writes of the record -/

theorem Activity.mayRest_of_opening {a : Activity} (h : a.isOpening = true) :
    a.mayRest false = false := by
  cases a with
  | start p =>
    cases p with
    | promote blocking p => rfl
    | _ => exact nomatch h
  | waiter p =>
    cases p with
    | promote p => rfl
    | _ => exact nomatch h
  | _ => exact nomatch h

/-- Only promotions write the record, the first half at once and then the second. -/
theorem Activity.promoting_of_record_put {a : Activity} {e : Elector} {key value : String}
    (hplain : ∀ w ∈ a.writes, '_' ∈ w.1.toList) (request : a.request? e = some (.put key value))
    (record : IsRecordKey key) : a.stage = .promoting ∧ (a.isOpening = true ∨
      key = Registry.primaryPortKey ∧ ∀ p, a = .start (.promote true p) → p = .putPort) := by
  cases a with
  | start p =>
    cases p with
    | publish writes blocking =>
      cases writes with
      | nil => exact nomatch request
      | cons w writes =>
        cases request
        exact absurd record (not_isRecordKey_of_underscore (hplain _ List.mem_cons_self))
    | promote blocking p =>
      cases p with
      | putHost => exact ⟨rfl, .inl rfl⟩
      | putPort =>
        cases request
        exact ⟨rfl, .inr ⟨rfl, fun p hp => by cases hp; rfl⟩⟩
      | _ => exact nomatch request
    | _ => exact nomatch request
  | stop p => cases p <;> exact nomatch request
  | waiter p =>
    cases p with
    | promote p =>
      cases p with
      | putHost => exact ⟨rfl, .inl rfl⟩
      | putPort =>
        cases request
        exact ⟨rfl, .inr ⟨rfl, nofun⟩⟩
      | _ => exact nomatch request
    | _ => exact nomatch request
  | await p => exact nomatch request
  | notify p => exact nomatch request

namespace Group

variable {ι : Type} {L : Lock.Service} {electors : ι → Elector} {g g' : Group ι L} {m : Move ι L}

/-- Whoever opens does so on an elector that runs. -/
def Opens (g : Group ι L) : Prop :=
  ∀ i id a, (g.nodes i).course id = some (.going a false) → a.isOpening = true →
    (g.nodes i).elector.status = .running

/-- Elector `i` makes a request by a move that leads from `g` to `g'`. -/
def Issues (g g' : Group ι L) (i : ι) (q : Request) : Prop :=
  (g'.nodes i).requests = (g.nodes i).requests ++ [q]

/-- A start that blocks is about to write the second half of the record, and a stop has come in
since it made the elector run. -/
def IsOvertaken (g : Group ι L) (i : ι) : Prop :=
  (g.nodes i).elector.status = .stopped ∧ ∃ id, g.active = some (i, id) ∧
    (g.nodes i).course id = some (.going (.start (.promote true .putPort)) false)

/-- What holds of a group in which no activity was broken off. -/
structure Orderly (electors : ι → Elector) (g : Group ι L) : Prop extends Sound electors g where
  sheltered : ∀ i, Sheltered (g.nodes i).role (g.nodes i).elector
  promotes : ∀ i, (g.nodes i).Promotes
  plain : ∀ i, (g.nodes i).Plain
  opens : g.Opens

theorem orderly_fresh {s : L.State} (hfresh : ∀ i, (electors i).IsFresh)
    (hfree : ∀ i, L.holder s ≠ some (electors i).owner) :
    (fresh electors s).Orderly electors where
  toSound := sound_fresh hfresh hfree
  sheltered i := by
    refine Node.sheltered_fresh ?_
    rw [hfresh i]
    exact nofun
  promotes _ _ _ _ h := nomatch h
  plain _ _ _ _ h := nomatch h
  opens _ _ _ h := nomatch h

/-- While an elector's promotion is at work, it holds the lock exactly if it runs. -/
theorem Sound.holder_iff_running_of_promoting (hg : g.Sound electors) {i : ι} {id : CallId}
    {a : Activity} (active : g.active = some (i, id))
    (here : (g.nodes i).course id = some (.going a false)) (hstage : a.stage = .promoting) :
    L.holder g.lock = some (electors i).owner ↔ (g.nodes i).elector.status = .running := by
  rw [hg.holder i]
  refine (hg.custody i).owes_iff_running fun id' b hb => ?_
  by_cases hid : id' = id
  · subst hid
    obtain ⟨rfl, -⟩ := Course.going.inj (Option.some.inj (here.symm.trans hb))
    rw [hstage]
    rfl
  · refine hg.not_inHand hb ?_
    rw [active]
    exact fun h => hid (Prod.mk.inj (Option.some.inj h)).2.symm

variable [DecidableEq ι]

theorem Makes.opens (h : g.Makes m g') (hg : g.Sound electors) (hopens : g.Opens) : g'.Opens := by
  intro i id a here ha
  -- an opening is never suspended, so it is the turn of whoever opens
  have hactive : g'.active = some (i, id) := by
    by_contra hne
    have hrest := h.rests hg.rests i id a false here hne
    rw [Activity.mayRest_of_opening ha] at hrest
    exact nomatch hrest
  cases h with
  | call idle made => exact nomatch idle.symm.trans hactive
  | resume idle can => exact hopens i id a here ha
  | @turn x r j id' n s active made =>
    obtain ⟨rfl, rfl⟩ := Prod.mk.inj (Option.some.inj (active.symm.trans hactive))
    have helector : (g.setNode j n).nodes j = n := setNode_nodes_self g j n
    have here' : ((g.setNode j n).nodes j).course id' = some (.going a false) := here
    show ((g.setNode j n).nodes j).elector.status = .running
    rw [helector] at here' ⊢
    exact made.opening (hg.custody j) (fun b hb => hopens j id' b hb) here' ha
  | rest active may => exact nomatch hactive
  | breakOff idle made => exact nomatch idle.symm.trans hactive
  | discard idle made => exact nomatch idle.symm.trans hactive
  | outside idle => exact nomatch idle.symm.trans hactive

theorem Orderly.makes (hg : g.Orderly electors)
    (howners : Function.Injective fun i => (electors i).owner) (hm : m.IsAloof electors)
    (hwhole : m.isBreakOff = false) (h : g.Makes m g') : g'.Orderly electors where
  toSound := hg.toSound.makes howners hm h
  sheltered := by
    have hboth : ∀ i, (g'.nodes i).Custody ∧ Sheltered (g'.nodes i).role (g'.nodes i).elector := by
      refine h.preserves (P := fun _ n => n.Custody ∧ Sheltered n.role n.elector) ?_
        fun i => ⟨hg.custody i, hg.sheltered i⟩
      rintro i n k n' hk made ⟨hcustody, hsheltered⟩
      have hkeeps : k.isBreakOff = false := by
        cases hb : k.isBreakOff with
        | false => rfl
        | true => exact nomatch hwhole.symm.trans (hk hb)
      exact ⟨hcustody.makes made, made.sheltered hkeeps hcustody hsheltered⟩
    exact fun i => (hboth i).2
  promotes := h.preserves (fun _ _ _ _ _ made hn => made.promotes hn) hg.promotes
  plain := h.preserves (fun _ _ _ _ _ made hn => made.plain hn) hg.plain
  opens := h.opens hg.toSound hg.opens

theorem Makes.requests (h : g.Makes m g') : ∀ i, (g'.nodes i).requests = (g.nodes i).requests ∨
    ∃ id, g.active = some (i, id) ∧ (g.nodes i).HasAsked (g'.nodes i) id := by
  have hnone : ∀ i, (g.nodes i).requests = (g.nodes i).requests ∨
      ∃ id, g.active = some (i, id) ∧ (g.nodes i).HasAsked (g.nodes i) id := fun _ => .inl rfl
  have hset : ∀ {i : ι} {n : Node}, (n.requests = (g.nodes i).requests ∨
      ∃ id, g.active = some (i, id) ∧ (g.nodes i).HasAsked n id) →
      ∀ j, ((g.setNode i n).nodes j).requests = (g.nodes j).requests ∨
        ∃ id, g.active = some (j, id) ∧ (g.nodes j).HasAsked ((g.setNode i n).nodes j) id :=
    fun hi => forall_setNode (P := fun j n => n.requests = (g.nodes j).requests ∨
      ∃ id, g.active = some (j, id) ∧ (g.nodes j).HasAsked n id) hi hnone
  cases h with
  | call idle made => exact hset (.inl (made.requests_eq nofun))
  | resume idle can => exact hnone
  | turn active made => exact hset (made.requests.imp_right fun hasked => ⟨_, active, hasked⟩)
  | rest active may => exact hnone
  | breakOff idle made => exact hset (.inl (made.requests_eq nofun))
  | discard idle made => exact hset (.inl (made.requests_eq nofun))
  | outside idle => exact hnone

/-- A request is made by the activity at work. -/
theorem Makes.exists_of_issues (h : g.Makes m g') {i : ι} {q : Request} (hq : Issues g g' i q) :
    ∃ id a, g.active = some (i, id) ∧ (g.nodes i).course id = some (.going a false) ∧
      a.request? (g.nodes i).elector = some q := by
  rcases h.requests i with hsame | ⟨id, active, a, q', here, request, happend⟩
  · have hlength := congrArg List.length (hsame.symm.trans hq)
    simp at hlength
  · obtain rfl : q' = q := (List.cons.inj (List.append_cancel_left (happend.symm.trans hq))).1
    exact ⟨id, a, active, here, request⟩

theorem Reachable.orderly {s : L.State}
    (h : Reachable (fun m => m.IsAloof electors ∧ m.isBreakOff = false) (fresh electors s) g)
    (hfresh : ∀ i, (electors i).IsFresh)
    (howners : Function.Injective fun i => (electors i).owner)
    (hfree : ∀ i, L.holder s ≠ some (electors i).owner) : g.Orderly electors := by
  induction h with
  | refl => exact orderly_fresh hfresh hfree
  | move before may made ih => exact ih.makes howners may.1 may.2 (makes_of_move? made)

/-- Every write of the primary record is issued while the elector holds the lock, unless it is the
second half of the record, written by a start that blocks and that a stop has overtaken; and then
the elector does not hold the lock. -/
theorem record_put_holder_iff {s : L.State} {i : ι} {key value : String}
    (hfresh : ∀ i, (electors i).IsFresh)
    (howners : Function.Injective fun i => (electors i).owner)
    (hfree : ∀ i, L.holder s ≠ some (electors i).owner)
    (h : Reachable (fun m => m.IsAloof electors ∧ m.isBreakOff = false) (fresh electors s) g)
    (made : g.move? m = some g') (issued : Issues g g' i (.put key value))
    (record : IsRecordKey key) :
    (L.holder g.lock = some (electors i).owner ↔ ¬ g.IsOvertaken i) ∧
    (g.IsOvertaken i → key = Registry.primaryPortKey) := by
  have hg := h.orderly hfresh howners hfree
  obtain ⟨id, a, active, here, request⟩ := (makes_of_move? made).exists_of_issues issued
  obtain ⟨hstage, hhalf⟩ :=
    Activity.promoting_of_record_put (hg.plain i id a false here) request record
  have hopening : a.isOpening = true → (g.nodes i).elector.status = .running := hg.opens i id a here
  -- in a promotion the holder is the elector that runs, so only the status is in question
  rw [hg.holder_iff_running_of_promoting active here hstage]
  refine ⟨⟨fun hrunning hovertaken => ?_, fun hon => ?_⟩, fun hovertaken => ?_⟩
  · exact nomatch hrunning.symm.trans hovertaken.1
  · rcases hhalf with ha | ⟨-, hroute⟩
    · exact hopening ha
    · -- a start that keeps stops out, or a waiter that a stop waits for, is not overtaken
      rcases hg.promotes i id a false here hstage with hrunning | hstopped
      · exact hrunning
      · refine (hg.promotes i).running (hg.sheltered i) here hstage fun p hp => ?_
        obtain rfl := hroute p hp
        exact hon ⟨hstopped, id, active, hp ▸ here⟩
  · rcases hhalf with ha | ⟨hkey, -⟩
    · exact nomatch (hopening ha).symm.trans hovertaken.1
    · exact hkey

/-! ## Two electors and one record -/

theorem reachable_pairAfter (ms : List (Move Bool .memory))
    (hms : (ms.all fun m => !m.isOutside && !m.isBreakOff) = true)
    (hrun : (fresh pair (L := .memory) Lock.Memory.fresh).run? ms = some (pairAfter ms)) :
    Reachable (fun m => m.IsAloof pair ∧ m.isBreakOff = false)
      (fresh pair (L := .memory) Lock.Memory.fresh) (pairAfter ms) := by
  refine .run .refl (fun m hm => ?_) hrun
  have hboth := List.all_eq_true.mp hms m hm
  simp only [Bool.and_eq_true, Bool.not_eq_true'] at hboth
  exact ⟨Move.isAloof_of_not_outside hboth.1, hboth.2⟩

/-- A start is granted the lock and is about to write the first half of the record. -/
def openingMoves : List (Move Bool .memory) :=
  [.call true (.start "memory" false), .resume true 0] ++ turns 11

theorem opening_put_by_holder :
    Issues (pairAfter openingMoves) (pairAfter (openingMoves ++ turns 1)) true
      (.put Registry.primaryHostKey "host") ∧
    ¬ (pairAfter openingMoves).IsOvertaken true ∧
    (pairAfter openingMoves).lock.holder = some (pair true).owner := by
  have hfresh : ∀ b, (pair b).IsFresh := fun _ => rfl
  have howners : ∀ b c, (pair b).owner = (pair c).owner → b = c := by decide
  have hfree : ∀ b, Lock.Memory.fresh.holder ≠ some (pair b).owner := by decide
  have hreach := reachable_pairAfter openingMoves rfl rfl
  have hon : ¬ (pairAfter openingMoves).IsOvertaken true := fun h => nomatch h.1
  have hmade : (pairAfter openingMoves).move? (.turn () (.ok true)) =
      some (pairAfter (openingMoves ++ turns 1)) := rfl
  have hissued : Issues (pairAfter openingMoves) (pairAfter (openingMoves ++ turns 1)) true
      (.put Registry.primaryHostKey "host") := rfl
  have h := record_put_holder_iff hfresh (fun _ _ => howners _ _) hfree hreach hmade hissued
    (.inl rfl)
  exact ⟨hissued, hon, h.1.mpr hon⟩

/-- A start that blocks is granted the lock and writes the first half of the record.  Before that is
done the elector is stopped and another one starts and runs.  Then the start goes on. -/
def overtakenMoves : List (Move Bool .memory) :=
  [.call true (.start "memory" true), .resume true 0] ++ turns 14 ++
  [.rest, .call true .stop, .resume true 15] ++ turns 7 ++
  [.rest, .call false (.start "memory" false), .resume false 23] ++ turns 19 ++
  [.rest, .resume true 0] ++ turns 1

/-- It writes the second half of the record over that of the elector that holds the lock. -/
theorem overtaken_put_without_lock :
    ¬ ∀ (g g' : Group Bool .memory) (m : Move Bool .memory) (i : Bool) (key value : String),
      Reachable (fun m => m.IsAloof pair ∧ m.isBreakOff = false)
        (fresh pair (L := .memory) Lock.Memory.fresh) g →
      g.move? m = some g' → Issues g g' i (.put key value) → IsRecordKey key →
      g.lock.holder = some (pair i).owner := by
  intro h
  have hreach := reachable_pairAfter overtakenMoves rfl rfl
  have hholder := h (pairAfter overtakenMoves) (pairAfter (overtakenMoves ++ turns 1))
    (.turn () (.ok true)) true Registry.primaryPortKey "4000" hreach rfl rfl (.inr rfl)
  have hother : (pairAfter overtakenMoves).lock.holder = some (pair false).owner := rfl
  have hne : some (pair false).owner ≠ some (pair true).owner := by decide
  exact hne (hother.symm.trans hholder)

end Group

end Primacy.Election
