/-
  Primacy.Proofs.Failover.Order

  The order of the requests of a cycle.  It stops nodes only after it has found that there was no
  cycle before, that the time of the last one is not known, or that this time is long enough ago.
  Then it writes the time of day that it read last, and after that the marker of a cycle.
-/
import Primacy.Proofs.Failover.Gate

namespace Primacy.Failover

/-- The request sets an entry of the registry. -/
def Request.isPut : Request → Bool
  | registry (.put ..) => true
  | _ => false

theorem Request.not_isPut_of_not_isWrite {q : Request} (h : q.isWrite = false) :
    q.isPut = false := by
  cases q with
  | registry q =>
    cases q with
    | put key value => cases h
    | _ => rfl
  | _ => rfl

/-! ## What was exchanged by then -/

/-- The time of day that was answered. -/
def reading? : Exchange → Option Int
  | ⟨.clock, now⟩ => some now
  | _ => none

/-- The times of day that were read, the earliest first. -/
def readings (past : List Exchange) : List Int := past.filterMap reading?

/-- The time of day that was read last. -/
def finish? (past : List Exchange) : Option Int := (readings past).getLast?

/-- No entry was set. -/
def Unwritten (past : List Exchange) : Prop := ∀ x ∈ past, x.request.isPut = false

/-- The exchange that reads an entry. -/
def getting (key : String) (value : Option String) : Exchange :=
  ⟨.registry (.get key), (.ok value : Except RegistryError (Option String))⟩

/-- The exchange that sets an entry. -/
def putting (key value : String) : Exchange :=
  ⟨.registry (.put key value), (.ok () : Except RegistryError Unit)⟩

/-- The entry was set. -/
def Stored (key : String) (past : List Exchange) : Prop := ∃ value, putting key value ∈ past

/-- What was read allows for a cycle: there was none before, its time is not known, or it is at
least `distance` milliseconds ago. -/
inductive Cleared (t : Target) (distance : Nat) (past : List Exchange) : Prop where
  | first (get : getting t.cycledKey none ∈ past)
  | unknown (get : getting t.cycledTimeKey none ∈ past)
  | late {raw : String} {last now : Int} {elapsed : Nat}
      (get : getting t.cycledTimeKey (some raw) ∈ past)
      (value : Text.int64? (Text.trimmed raw) = some last) (clock : now ∈ readings past)
      (gone : Clock.elapsed? now last = some elapsed) (enough : distance ≤ elapsed)

variable {t : Target} {distance : Nat} {past : List Exchange} {x : Exchange} {q : Request}

theorem readings_append (past later : List Exchange) :
    readings (past ++ later) = readings past ++ readings later := List.filterMap_append

theorem mem_readings {now : Int} (h : (⟨.clock, now⟩ : Exchange) ∈ past) : now ∈ readings past :=
  List.mem_filterMap.mpr ⟨_, h, rfl⟩

/-- Only the clock tells the time of day. -/
theorem readings_concat (h : reading? x = none) : readings (past ++ [x]) = readings past := by
  have hnone : readings [x] = [] := by simp [readings, h]
  rw [readings_append, hnone, List.append_nil]

theorem finish?_concat (h : reading? x = none) : finish? (past ++ [x]) = finish? past :=
  congrArg List.getLast? (readings_concat h)

theorem finish?_clock (past : List Exchange) (now : Int) :
    finish? (past ++ [⟨.clock, now⟩]) = some now := by
  rw [finish?, readings_append]
  exact List.getLast?_concat

theorem eq_of_reading? {n : Int} (h : reading? x = some n) : x = ⟨.clock, n⟩ := by
  obtain ⟨q, r⟩ := x
  cases q with
  | clock =>
    cases h
    rfl
  | _ => cases h

theorem Unwritten.append (h : Unwritten past) (hx : x.request.isPut = false) :
    Unwritten (past ++ [x]) := by
  intro y hy
  rcases List.mem_append.mp hy with hy | hy
  · exact h y hy
  · rw [List.mem_singleton.mp hy]
    exact hx

theorem Unwritten.not_stored (h : Unwritten past) (key : String) : ¬ Stored key past := by
  rintro ⟨value, hvalue⟩
  exact nomatch h _ hvalue

theorem Stored.append {key : String} (h : Stored key past) (later : List Exchange) :
    Stored key (past ++ later) := by
  obtain ⟨value, hvalue⟩ := h
  exact ⟨value, List.mem_append_left _ hvalue⟩

theorem stored_concat (past : List Exchange) (key value : String) :
    Stored key (past ++ [putting key value]) :=
  ⟨value, List.mem_append_right _ List.mem_cons_self⟩

theorem putting_inj {key key' value value' : String} (h : putting key value = putting key' value') :
    key = key' := by
  have hrequest := congrArg Primacy.Exchange.request h
  exact (Registry.Request.put.inj (Request.registry.inj hrequest)).1

theorem stored_of_concat {key key' value : String} (h : Stored key (past ++ [putting key' value])) :
    Stored key past ∨ key = key' := by
  obtain ⟨v, hv⟩ := h
  rcases List.mem_append.mp hv with hv | hv
  · exact .inl ⟨v, hv⟩
  · exact .inr (putting_inj (List.mem_singleton.mp hv))

theorem Cleared.append (h : Cleared t distance past) (later : List Exchange) :
    Cleared t distance (past ++ later) := by
  cases h with
  | first get => exact .first (List.mem_append_left _ get)
  | unknown get => exact .unknown (List.mem_append_left _ get)
  | late get value clock gone enough =>
    refine .late (List.mem_append_left _ get) value ?_ gone enough
    rw [readings_append]
    exact List.mem_append_left _ clock

/-! ## The order of requests -/

/-- What a cycle may request after what it was through. -/
def Orderly (t : Target) (distance : Nat) (past : List Exchange) : Request → Prop
  | .registry (.put key value) =>
    (key = t.cycledTimeKey ∧ Unwritten past ∧ ∃ now, finish? past = some now ∧
      value = toString now) ∨
    (key = t.cycledKey ∧ Stored t.cycledTimeKey past)
  | .terminate .. => Unwritten past ∧ Cleared t distance past
  | .clock => Unwritten past
  | _ => True

/-- A cycle that brought nodes down has told so, and when. -/
def Told (t : Target) (past : List Exchange) (outcome : CycleOutcome) : Prop :=
  ∀ victims, outcome = .cycled victims → Stored t.cycledTimeKey past ∧ Stored t.cycledKey past

theorem orderly_of_cleared (unwritten : Unwritten past) (cleared : Cleared t distance past)
    (hq : q.isWrite = false) : Orderly t distance past q := by
  cases q with
  | registry q =>
    cases q with
    | get key => trivial
    | _ => cases hq
  | terminate role nodeDir => exact ⟨unwritten, cleared⟩
  | clock => exact unwritten
  | _ => trivial

/-- Once a cycle may go ahead, it can do anything but write to the registry. -/
theorem proceeds_of_sparesRegistry {α : Type} {p : Procedure α} (hp : SparesRegistry p)
    (h : Unwritten past ∧ Cleared t distance past) :
    Proceeds (Orderly t distance) (fun past _ => Unwritten past ∧ Cleared t distance past) p
      past := by
  have hfollows : p.run.Follows (Orderly t distance)
      (fun past _ => Unwritten past ∧ Cleared t distance past) past := by
    refine hp.follows (I := fun past => Unwritten past ∧ Cleared t distance past) ?_ ?_ h
    · exact fun past q ⟨unwritten, cleared⟩ hq => orderly_of_cleared unwritten cleared hq
    · exact fun past x ⟨unwritten, cleared⟩ hx =>
        ⟨unwritten.append (Request.not_isPut_of_not_isWrite hx), cleared.append _⟩
  exact hfollows.mono fun past r hr a _ => hr

theorem proceeds_ask (may : Orderly t distance past q) :
    Proceeds (Orderly t distance) (fun past' r => past' = past ++ [⟨q, r⟩]) (ask q) past :=
  proceeds_request may

theorem proceeds_registry_call {q : Registry.Request}
    (may : Orderly t distance past (.registry q)) :
    Proceeds (Orderly t distance) (fun past' a => past' = past ++ [⟨.registry q, .ok a⟩])
      (registry (Registry.call q)) past := by
  rw [Proceeds, run_registry_call]
  refine ⟨may, fun r a hr => ?_⟩
  cases r with
  | ok b =>
    obtain rfl := Except.ok.inj hr
    rfl
  | error e => cases hr

theorem run_getInt64 (key : String) : (registry (Registry.getInt64 key)).run =
    .ask (.registry (.get key)) fun
      | .error e => .done (.error (.registry e))
      | .ok none => .done (.ok none)
      | .ok (some raw) => .done (match Text.int64? (Text.trimmed raw) with
        | some n => .ok (some n)
        | none => .error (.registry (.invalidValue key raw))) := by
  show Dialogue.ask _ _ = _
  congr 1
  funext r
  rcases r with e | _ | raw
  · rfl
  · rfl
  · cases h : Text.int64? (Text.trimmed raw) with
    | none =>
      simp only [Dialogue.bind, ExceptT.bindCont, h]
      rfl
    | some n =>
      simp only [Dialogue.bind, ExceptT.bindCont, h]
      rfl

/-- What was read of an entry as a number. -/
inductive ReadAs (key : String) (past : List Exchange) : Option Int → Prop where
  | absent (get : getting key none ∈ past) : ReadAs key past none
  | number {raw : String} {n : Int} (get : getting key (some raw) ∈ past)
      (value : Text.int64? (Text.trimmed raw) = some n) : ReadAs key past (some n)

theorem proceeds_getInt64 {key : String} (h : Unwritten past) :
    Proceeds (Orderly t distance) (fun past' n => Unwritten past' ∧ ReadAs key past' n)
      (registry (Registry.getInt64 key)) past := by
  have hget : ∀ value, Unwritten (past ++ [getting key value]) ∧
      getting key value ∈ past ++ [getting key value] := fun value =>
    ⟨h.append rfl, List.mem_append_right _ List.mem_cons_self⟩
  rw [Proceeds, run_getInt64]
  refine ⟨trivial, fun r => ?_⟩
  rcases r with e | _ | raw
  · rintro a ha
    cases ha
  · rintro a ha
    obtain rfl := Except.ok.inj ha
    exact ⟨(hget none).1, .absent (hget none).2⟩
  · dsimp only
    cases hvalue : Text.int64? (Text.trimmed raw) with
    | none =>
      rintro a ha
      cases ha
    | some n =>
      rintro a ha
      obtain rfl := Except.ok.inj ha
      exact ⟨(hget (some raw)).1, .number (hget (some raw)).2 hvalue⟩

namespace Driver

variable {d : Driver}

/-- Whoever may cycle has read that it may. -/
theorem mayCycle_proceeds (h : Unwritten past) :
    Proceeds (Orderly t d.settings.minCycleMillis)
      (fun past may => Unwritten past ∧
        (may = true → Cleared t d.settings.minCycleMillis past))
      (d.mayCycle t) past := by
  unfold mayCycle
  refine (proceeds_registry_call ?_).bind ?_
  · trivial
  rintro _ marker rfl
  have h₁ : Unwritten (past ++ [getting t.cycledKey marker]) := h.append rfl
  cases marker with
  | none =>
    refine proceeds_pure ⟨h₁, fun _ => .first ?_⟩
    exact List.mem_append_right _ List.mem_cons_self
  | some _ =>
    refine (proceeds_getInt64 h₁).bind fun past₂ last ⟨h₂, hread⟩ => ?_
    cases hread with
    | absent get =>
      refine (proceeds_ask ?_).bind ?_
      · trivial
      rintro _ _ rfl
      exact proceeds_pure ⟨h₂.append rfl, fun _ => .unknown (List.mem_append_left _ get)⟩
    | @number raw last get value =>
      refine (proceeds_ask ?_).bind ?_
      · exact h₂
      rintro _ now rfl
      split
      · next elapsed gone =>
        refine proceeds_pure ⟨h₂.append rfl, fun hmay => ?_⟩
        refine .late (List.mem_append_left _ get) value (mem_readings ?_) gone
          (of_decide_eq_true hmay)
        exact List.mem_append_right _ List.mem_cons_self
      · refine (proceeds_ask ?_).bind fun _ (never : Empty) _ => never.elim
        trivial

theorem cycleInside_proceeds (h : Unwritten past) :
    Proceeds (Orderly t d.settings.minCycleMillis) (Told t) (d.cycleInside t) past := by
  unfold cycleInside
  refine (mayCycle_proceeds h).bind fun past₁ may h₁ => ?_
  cases may with
  | false => exact proceeds_pure nofun
  | true =>
    refine (proceeds_of_sparesRegistry (.selectVictims d _ _) ⟨h₁.1, h₁.2 rfl⟩).bind
      fun past₂ victims h₂ => ?_
    refine (proceeds_of_sparesRegistry (.killAndRestartAll d victims) h₂).bind
      fun past₃ _ h₃ => ?_
    split
    · exact proceeds_pure nofun
    · -- the time that is read now is the one that is written
      refine (proceeds_ask ?_).bind ?_
      · exact h₃.1
      rintro _ now rfl
      refine (proceeds_registry_call ?_).bind ?_
      · exact .inl ⟨rfl, h₃.1.append rfl, now, finish?_clock past₃ now, rfl⟩
      rintro _ _ rfl
      have htime := stored_concat (past₃ ++ [⟨.clock, now⟩]) t.cycledTimeKey (toString now)
      refine (proceeds_registry_call ?_).bind ?_
      · exact .inr ⟨rfl, htime⟩
      rintro _ _ rfl
      exact proceeds_pure fun _ _ => ⟨htime.append _, stored_concat _ _ _⟩

/-- A cycle makes its requests in order. -/
theorem cycle_follows (d : Driver) (t : Target) :
    (d.cycle t).run.Follows (Orderly t d.settings.minCycleMillis)
      (fun past result => ∀ outcome, result = .ok outcome → Told t past outcome) [] := by
  rw [run_cycle]
  split
  · refine ⟨trivial, fun r => ?_⟩
    rcases r with e | turn
    · exact nofun
    · rw [admitted]
      split
      · refine Dialogue.Follows.bind (cycleInside_proceeds ?_) fun past result hresult => ?_
        · intro x hx
          rw [List.mem_singleton.mp hx]
          rfl
        · refine ⟨trivial, fun reopened outcome houtcome victims hvictims => ?_⟩
          have hok : result = .ok outcome := by
            rcases result with e | o
            · cases houtcome
            · cases reopened with
              | ok _ => exact houtcome
              | error e => cases houtcome
          obtain ⟨htime, hmarker⟩ := hresult outcome hok victims hvictims
          exact ⟨htime.append _, hmarker.append _⟩
      · rintro outcome houtcome victims rfl
        cases houtcome
  · rintro outcome houtcome victims rfl
    cases houtcome

end Driver

end Primacy.Failover
