/-
  Primacy.Proofs.Failover.Distance

  Cycles keep a distance in time.  Clients share a registry and a clock that does not go back; the
  registry may fail to read or to set entries.  Whoever is inside the gate reads the entries of the
  last cycle as they are, since nobody else is there to change them; so it stops nodes only when
  the last cycle that was told of in full is long enough ago.
-/
import Primacy.Proofs.Failover.Order
import Primacy.Proofs.Failover.Reopening
import Primacy.Proofs.Text.Numeral

namespace Primacy.Failover

open Registry (Content)

/-- The entries of a target are the same. -/
structure SameEntries (t : Target) (c c' : Content) : Prop where
  time : c'.entries.get? t.cycledTimeKey = c.entries.get? t.cycledTimeKey
  marker : c'.entries.get? t.cycledKey = c.entries.get? t.cycledKey

/-! ## Calls and the clock -/

/-- The calls that cycle nodes of one kind, and the time of day. -/
structure Timed (t : Target) where
  clients : Cycling t
  now : Int

namespace Timed

variable {t : Target}

def fresh (t : Target) (c : Content) (now : Int) : Timed t := ⟨.fresh t c, now⟩

/-- What may happen: calls by drivers that keep the same distance, answers with the clock as it is,
and what others do to the registry, but not to the entries of the target.  Calls are not dropped. -/
def May (distance : Nat) (s : Timed t) : Cycling.Move → Prop
  | .call _ d => d.settings.minCycleMillis = distance
  | .answer _ x broken => broken = false ∧ x .clock = some s.now
  | .breakOff _ => False
  | .outside c => SameEntries t s.clients.registry c

/-- The states that moves lead to, while time passes in between. -/
inductive Reachable (distance : Nat) (s₀ : Timed t) : Timed t → Prop where
  | refl : Reachable distance s₀ s₀
  | pass {s : Timed t} (before : Reachable distance s₀ s) (n : Nat) :
      Reachable distance s₀ { s with now := s.now + n }
  | move {s : Timed t} {m : Cycling.Move} {g : Cycling t} (before : Reachable distance s₀ s)
      (may : s.May distance m) (made : s.clients.move? m = some g) :
      Reachable distance s₀ { s with clients := g }

variable {distance : Nat} {s s₀ s₁ : Timed t}

theorem Reachable.trans (h : Reachable distance s₀ s) (h' : Reachable distance s s₁) :
    Reachable distance s₀ s₁ := by
  induction h' with
  | refl => exact h
  | pass before n ih => exact .pass ih n
  | move before may made ih => exact .move ih may made

theorem May.isBreakOff {m : Cycling.Move} (h : s.May distance m) : m.isBreakOff = false := by
  cases m with
  | answer id x broken => exact h.1
  | breakOff id => exact h.elim
  | _ => rfl

/-- Without the clock, the clients make moves that break nothing off. -/
theorem Reachable.clients (h : Reachable distance s₀ s) :
    Cycling.Reachable (fun m => m.isBreakOff = false) s₀.clients s.clients := by
  induction h with
  | refl => exact .refl
  | pass before n ih => exact ih
  | move before may made ih => exact .move ih may.isBreakOff made

end Timed

/-! ## What a call knows -/

variable {t : Target} {distance : Nat} {c c' : Content} {now now' : Int} {stamp stamp' : Option Int}
  {past : List Exchange} {x : Exchange} {f : Flight}

theorem cycledTimeKey_ne_cycledKey (t : Target) : t.cycledTimeKey ≠ t.cycledKey := by
  cases t <;> decide

/-- What was read of the entries of a target still holds, and the clock was not behind them. -/
structure Agrees (t : Target) (c : Content) (stamp : Option Int) (past : List Exchange) :
    Prop where
  time : ∀ value, getting t.cycledTimeKey value ∈ past →
    c.entries.get? t.cycledTimeKey = value
  marker : ∀ value, getting t.cycledKey value ∈ past → c.entries.get? t.cycledKey = value
  clock : ∀ n ∈ readings past, ∀ τ, stamp = some τ → τ ≤ n

theorem agrees_nil (t : Target) (c : Content) (stamp : Option Int) : Agrees t c stamp [] :=
  ⟨nofun, nofun, nofun⟩

theorem Agrees.congr (h : Agrees t c stamp past) (same : SameEntries t c c') :
    Agrees t c' stamp past where
  time value hvalue := same.time.trans (h.time value hvalue)
  marker value hvalue := same.marker.trans (h.marker value hvalue)
  clock := h.clock

/-- A call that read its way past the last cycle did so late enough. -/
theorem Agrees.le_of_cleared {τ : Int} (h : Agrees t c (some τ) past)
    (cleared : Cleared t distance past) (time : c.entries.get? t.cycledTimeKey = some (toString τ))
    (marker : (c.entries.get? t.cycledKey).isSome) : ∃ n ∈ readings past, τ + distance ≤ n := by
  cases cleared with
  | first get =>
    rw [h.marker none get] at marker
    cases marker
  | unknown get => exact nomatch (h.time none get).symm.trans time
  | @late raw last n elapsed get value clock gone enough =>
    obtain rfl := Option.some.inj (time.symm.trans (h.time _ get))
    obtain rfl := Text.eq_of_int64?_toString value
    have hle := h.clock n clock last rfl
    simp only [Clock.elapsed?, Option.ite_none_right_eq_some] at gone
    have hgone := Option.some.inj gone.2
    exact ⟨n, clock, by omega⟩

/-- `stamp` is the last time that the registry tells of.  A call knows of no later one; if it has
told when it finished it is in the registry, or a later one, and the marker with it. -/
structure Flight.Minds (t : Target) (distance : Nat) (c : Content) (now : Int)
    (stamp : Option Int) (f : Flight) : Prop where
  distance : f.driver.settings.minCycleMillis = distance
  clock : ∀ n ∈ readings f.past, n ≤ now
  stored : Stored t.cycledTimeKey f.past →
    ∃ n τ, finish? f.past = some n ∧ stamp = some τ ∧ n ≤ τ
  marked : Stored t.cycledKey f.past → (c.entries.get? t.cycledKey).isSome
  agrees : f.IsInside t → Unwritten f.past → Agrees t c stamp f.past

namespace Flight.Minds

theorem begin {d : Driver} (hd : d.settings.minCycleMillis = distance) :
    (Flight.begin d t).Minds t distance c now stamp where
  distance := hd
  clock := nofun
  stored h := nomatch h
  marked h := nomatch h
  agrees _ _ := agrees_nil t c stamp

theorem congr (h : f.Minds t distance c now stamp) (same : SameEntries t c c')
    (later : now ≤ now') : f.Minds t distance c' now' stamp where
  distance := h.distance
  clock n hn := Int.le_trans (h.clock n hn) later
  stored := h.stored
  marked hm := same.marker ▸ h.marked hm
  agrees hin hunwritten := (h.agrees hin hunwritten).congr same

/-- Whoever is not inside minds only that the registry goes on telling of cycles. -/
theorem of_not_isInside (h : f.Minds t distance c now stamp) (hout : ¬ f.IsInside t)
    (hstamp : ∀ τ, stamp = some τ → ∃ τ', stamp' = some τ' ∧ τ ≤ τ')
    (hmarker : (c.entries.get? t.cycledKey).isSome → (c'.entries.get? t.cycledKey).isSome) :
    f.Minds t distance c' now stamp' where
  distance := h.distance
  clock := h.clock
  stored hs := by
    obtain ⟨n, τ, hn, hτ, hle⟩ := h.stored hs
    obtain ⟨τ', hτ', hle'⟩ := hstamp τ hτ
    exact ⟨n, τ', hn, hτ', Int.le_trans hle hle'⟩
  marked hm := hmarker (h.marked hm)
  agrees hin := absurd hin hout

/-- One more exchange that sets no entry, but may read one or the clock. -/
theorem on {q : Request} {next : q.Reply → Talk (Except Error CycleOutcome)} {r : q.Reply}
    (h : f.Minds t distance c now stamp)
    (agrees : Unwritten f.past → Agrees t c stamp f.past)
    (ago : ∀ τ, stamp = some τ → τ ≤ now)
    (sets : ∀ key value, (⟨q, r⟩ : Exchange) ≠ putting key value)
    (gets : ∀ key value, (⟨q, r⟩ : Exchange) = getting key value → c.entries.get? key = value)
    (clock : ∀ n, reading? ⟨q, r⟩ = some n → n = now ∧ Unwritten f.past) :
    (f.on next r false).Minds t distance c now stamp := by
  have hstored : ∀ {key : String}, Stored key (f.past ++ [⟨q, r⟩]) → Stored key f.past := by
    rintro key ⟨value, hvalue⟩
    refine ⟨value, (List.mem_append.mp hvalue).resolve_right fun hx => ?_⟩
    exact sets key value (List.mem_singleton.mp hx).symm
  have hreading : ∀ n, n ∈ readings (f.past ++ [⟨q, r⟩]) →
      n ∈ readings f.past ∨ n = now := by
    intro n hn
    rw [readings_append] at hn
    refine (List.mem_append.mp hn).imp id fun hx => ?_
    obtain ⟨x, hx, hn⟩ := List.mem_filterMap.mp hx
    obtain rfl := List.mem_singleton.mp hx
    exact (clock n hn).1
  refine ⟨h.distance, fun n hn => ?_, fun hs => ?_, fun hm => h.marked (hstored hm), ?_⟩
  · rcases hreading n hn with hn | rfl
    · exact h.clock n hn
    · exact Int.le_refl n
  · -- whoever has told its time reads the clock no more
    have hnone : reading? ⟨q, r⟩ = none := by
      rw [Option.eq_none_iff_forall_ne_some]
      exact fun n hn => (clock n hn).2.not_stored _ (hstored hs)
    obtain ⟨n, τ, hn, hτ, hle⟩ := h.stored (hstored hs)
    exact ⟨n, τ, (finish?_concat hnone).trans hn, hτ, hle⟩
  · intro _ hunwritten
    have hpast := agrees fun x hx => hunwritten x (List.mem_append_left _ hx)
    refine ⟨fun value hvalue => ?_, fun value hvalue => ?_, fun n hn τ hτ => ?_⟩
    · rcases List.mem_append.mp hvalue with hvalue | hx
      · exact hpast.time value hvalue
      · exact gets _ value (List.mem_singleton.mp hx).symm
    · rcases List.mem_append.mp hvalue with hvalue | hx
      · exact hpast.marker value hvalue
      · exact gets _ value (List.mem_singleton.mp hx).symm
    · rcases hreading n hn with hn | rfl
      · exact hpast.clock n hn τ hτ
      · exact ago τ hτ

/-- One more exchange that sets an entry: its own time, or the marker. -/
theorem on_put {key value : String}
    {next : Except RegistryError Unit → Talk (Except Error CycleOutcome)}
    (h : f.Minds t distance c now stamp)
    (time : Stored t.cycledTimeKey f.past ∨ key = t.cycledTimeKey →
      ∃ n τ, finish? f.past = some n ∧ stamp' = some τ ∧ n ≤ τ)
    (marker : Stored t.cycledKey f.past ∨ key = t.cycledKey →
      (c'.entries.get? t.cycledKey).isSome) :
    (f.on (q := .registry (.put key value)) next (.ok ()) false).Minds t distance c' now
      stamp' where
  distance := h.distance
  clock n hn := by
    have hsame : readings (f.past ++ [putting key value]) = readings f.past :=
      readings_concat rfl
    exact h.clock n (hsame ▸ hn)
  stored hs := by
    obtain ⟨n, τ, hn, hτ, hle⟩ := time ((stored_of_concat hs).imp id Eq.symm)
    exact ⟨n, τ, (finish?_concat rfl).trans hn, hτ, hle⟩
  marked hm := marker ((stored_of_concat hm).imp id Eq.symm)
  agrees _ hunwritten := by
    have hput := hunwritten _ (List.mem_append_right _ List.mem_cons_self)
    exact nomatch hput

end Flight.Minds

/-! ## What a registry tells of the last cycle -/

namespace Timed

/-- The registry tells of the time `stamp`, which is past, and holds the marker only if it tells of
a time; and all calls mind it. -/
structure Paced (distance : Nat) (stamp : Option Int) (s : Timed t) : Prop where
  sound : s.clients.Sound
  time : s.clients.registry.entries.get? t.cycledTimeKey = stamp.map toString
  ago : ∀ τ, stamp = some τ → τ ≤ s.now
  marker : (s.clients.registry.entries.get? t.cycledKey).isSome → stamp.isSome
  flights : ∀ id f, s.clients.flight id = some f →
    f.Minds t distance s.clients.registry s.now stamp

theorem paced_fresh (shut : c.counter t.gateCounter = 0)
    (time : c.entries.get? t.cycledTimeKey = none) (marker : c.entries.get? t.cycledKey = none) :
    (fresh t c now).Paced distance none where
  sound := Cycling.sound_fresh shut
  time := time
  ago := nofun
  marker h := by
    rw [fresh, Cycling.fresh, marker] at h
    cases h
  flights _ _ h := nomatch h

variable {s : Timed t} {id : CallId} {q : Request}
  {next : q.Reply → Talk (Except Error CycleOutcome)} {r : q.Reply} {g : Cycling t}

theorem Paced.pass (hs : s.Paced distance stamp) (n : Nat) :
    ({ s with now := s.now + n } : Timed t).Paced distance stamp where
  sound := hs.sound
  time := hs.time
  ago τ hτ := Int.le_trans (hs.ago τ hτ) (Int.le_add_of_nonneg_right (Int.natCast_nonneg n))
  marker := hs.marker
  flights id f here := (hs.flights id f here).congr ⟨rfl, rfl⟩
    (Int.le_add_of_nonneg_right (Int.natCast_nonneg n))

/-- Whoever makes a request makes it in order. -/
theorem Paced.orderly (hs : s.Paced distance stamp) (here : s.clients.flight id = some f)
    (rest : f.rest = .ask q next) : Orderly t distance f.past q := by
  have hfollows := (f.driver.cycle_follows t).leads (hs.sound.leads id f here)
  rw [rest, (hs.flights id f here).distance] at hfollows
  exact hfollows.1

/-- Whoever makes a request and has set nothing yet has read what still holds. -/
theorem Paced.agrees (hs : s.Paced distance stamp) (here : s.clients.flight id = some f)
    (rest : f.rest = .ask q next) (unwritten : Unwritten f.past) :
    Agrees t s.clients.registry stamp f.past := by
  rcases Flight.arriving_or_isInside (hs.sound.stands here) rest with ⟨hpast, -⟩ | hin
  · rw [hpast]
    exact agrees_nil t _ stamp
  · exact (hs.flights id f here).agrees hin unwritten

/-- The entries of the target are as they were, and so is what the registry tells. -/
theorem Paced.same {clients : Cycling t} (hs : s.Paced distance stamp) (sound : clients.Sound)
    (same : SameEntries t s.clients.registry clients.registry)
    (flights : ∀ id f, clients.flight id = some f →
      f.Minds t distance clients.registry s.now stamp) :
    (⟨clients, s.now⟩ : Timed t).Paced distance stamp where
  sound := sound
  time := same.time.trans hs.time
  ago := hs.ago
  marker h := hs.marker (same.marker ▸ h)
  flights := flights

/-- Of the calls that have something to do, only one is not at the gate. -/
theorem Paced.not_isInside (hs : s.Paced distance stamp) (here : s.clients.flight id = some f)
    (rest : f.rest = .ask q next) (spares : q.counter? = none) :
    ∀ id' f', id' ≠ id → s.clients.flight id' = some f' → ¬ f'.IsInside t := by
  intro id' f' ne here' hin'
  rcases Flight.arriving_or_isInside (hs.sound.stands here) rest with ⟨-, rfl⟩ | hin
  · cases spares
  · exact ne (hs.sound.guards.sole id' id ⟨f', here', hin'⟩ ⟨f, here, hin⟩)

/-- The state after an answer. -/
def answered (s : Timed t) (id : CallId) (f : Flight) (c : Content) : Timed t :=
  { s with clients := { s.clients.setFlight id f with registry := c } }

/-- An answer that sets no entry. -/
theorem Paced.answer_quiet {x : Surroundings} (hs : s.Paced distance stamp)
    (here : s.clients.flight id = some f) (rest : f.rest = .ask q next)
    (answers : Answers s.clients.registry x q r c) (clock : x .clock = some s.now)
    (sets : ∀ key value, (⟨q, r⟩ : Exchange) ≠ putting key value)
    (same : c.entries = s.clients.registry.entries)
    (sound : (s.answered id (f.on next r false) c).clients.Sound) :
    (s.answered id (f.on next r false) c).Paced distance stamp := by
  have hsame : SameEntries t s.clients.registry c := ⟨by rw [same], by rw [same]⟩
  refine hs.same sound hsame ?_
  refine Cycling.forall_setFlight ?_ fun id f here =>
    (hs.flights id f here).congr hsame (Int.le_refl _)
  refine Flight.Minds.congr ?_ hsame (Int.le_refl _)
  refine (hs.flights id f here).on (hs.agrees here rest) hs.ago sets ?_ ?_
  · rintro key value heq
    cases heq
    exact answers.get
  · intro n hn
    cases eq_of_reading? hn
    exact ⟨Option.some.inj (answers.clock.symm.trans clock), hs.orderly here rest⟩

/-- An answer that sets an entry: the time that was read last, or the marker after it. -/
theorem Paced.answer_put {key value : String}
    {next : Except RegistryError Unit → Talk (Except Error CycleOutcome)}
    (hs : s.Paced distance stamp) (here : s.clients.flight id = some f)
    (rest : f.rest = .ask (.registry (.put key value)) next)
    (set : c.entries = s.clients.registry.entries.insert key value)
    (sound : (s.answered id
      (f.on (q := .registry (.put key value)) next (.ok ()) false) c).clients.Sound) :
    ∃ stamp', (s.answered id
      (f.on (q := .registry (.put key value)) next (.ok ()) false) c).Paced distance stamp' := by
  have hminds := hs.flights id f here
  have hout := hs.not_isInside here rest rfl
  rcases hs.orderly here rest with ⟨rfl, unwritten, n, hn, rfl⟩ | ⟨rfl, stored⟩
  · -- the time was read inside, so the registry told of no later one
    have hmem : n ∈ readings f.past := List.mem_of_getLast? hn
    have hlater : ∀ τ, stamp = some τ → τ ≤ n := (hs.agrees here rest unwritten).clock n hmem
    have hmarker : c.entries.get? t.cycledKey =
        s.clients.registry.entries.get? t.cycledKey := by
      rw [set, Keyed.get?_insert, if_neg (cycledTimeKey_ne_cycledKey t).symm]
    refine ⟨some n, sound, ?_, ?_, fun _ => rfl, ?_⟩
    · show c.entries.get? t.cycledTimeKey = _
      rw [set, Keyed.get?_insert, if_pos rfl]
      rfl
    · rintro τ hτ
      obtain rfl := Option.some.inj hτ
      exact hminds.clock n hmem
    · refine Cycling.forall_setFlight_of_ne (hminds.on_put ?_ ?_) fun id' f' hne here' => ?_
      · exact fun _ => ⟨n, n, hn, rfl, Int.le_refl n⟩
      · rintro (hm | heq)
        · exact hmarker ▸ hminds.marked hm
        · exact absurd heq (cycledTimeKey_ne_cycledKey t)
      · refine (hs.flights id' f' here').of_not_isInside (hout id' f' hne here') ?_ ?_
        · exact fun τ hτ => ⟨n, rfl, hlater τ hτ⟩
        · exact fun h => hmarker ▸ h
  · have hmarker : (c.entries.get? t.cycledKey).isSome := by
      rw [set, Keyed.get?_insert, if_pos rfl]
      rfl
    obtain ⟨n, τ, hn, rfl, hle⟩ := hminds.stored stored
    refine ⟨some τ, sound, ?_, hs.ago, fun _ => rfl, ?_⟩
    · show c.entries.get? t.cycledTimeKey = _
      rw [set, Keyed.get?_insert, if_neg (cycledTimeKey_ne_cycledKey t)]
      exact hs.time
    · refine Cycling.forall_setFlight_of_ne (hminds.on_put ?_ ?_) fun id' f' hne here' => ?_
      · exact fun _ => ⟨n, τ, hn, rfl, hle⟩
      · exact fun _ => hmarker
      · refine (hs.flights id' f' here').of_not_isInside (hout id' f' hne here') ?_ ?_
        · exact fun τ' hτ' => ⟨τ', hτ', Int.le_refl τ'⟩
        · exact fun _ => hmarker

/-- Every answer keeps what the registry tells in step with the calls. -/
theorem Paced.answer {x : Surroundings} (hs : s.Paced distance stamp)
    (here : s.clients.flight id = some f) (rest : f.rest = .ask q next)
    (answers : Answers s.clients.registry x q r c) (clock : x .clock = some s.now)
    (sound : (s.answered id (f.on next r false) c).clients.Sound) :
    ∃ stamp', (s.answered id (f.on next r false) c).Paced distance stamp' := by
  by_cases hput : ∃ key value, q = .registry (.put key value)
  · obtain ⟨key, value, rfl⟩ := hput
    rcases answers.put with ⟨rfl, rfl⟩ | ⟨⟨e, rfl⟩, rfl⟩
    · exact hs.answer_put here rest rfl sound
    · exact ⟨stamp, hs.answer_quiet here rest answers clock nofun rfl sound⟩
  · have hne : ∀ key value, q ≠ .registry (.put key value) := fun key value h =>
      hput ⟨key, value, h⟩
    refine ⟨stamp, hs.answer_quiet here rest answers clock ?_ (answers.entries_eq hne) sound⟩
    exact fun key value heq => hne key value (congrArg Primacy.Exchange.request heq)

theorem Paced.move {m : Cycling.Move} {g : Cycling t} (hs : s.Paced distance stamp)
    (may : s.May distance m) (made : s.clients.move? m = some g) :
    ∃ stamp', ({ s with clients := g } : Timed t).Paced distance stamp' := by
  have hmakes := Cycling.makes_of_move? made
  have hsound := hmakes.sound hs.sound
  cases hmakes with
  | call new =>
    refine ⟨stamp, hs.same hsound ⟨rfl, rfl⟩ ?_⟩
    exact Cycling.forall_setFlight (Flight.Minds.begin may) hs.flights
  | answer here whole rest answers =>
    obtain ⟨rfl, clock⟩ := may
    exact hs.answer here rest answers clock hsound
  | breakOff here going => exact may.elim
  | outside kept =>
    exact ⟨stamp, hs.same hsound may fun id f here =>
      (hs.flights id f here).congr may (Int.le_refl _)⟩

/-- Whatever happens, the registry tells of a time that is past, and of none only without the
marker. -/
theorem Reachable.paced {c : Content} (shut : c.counter t.gateCounter = 0)
    (time : c.entries.get? t.cycledTimeKey = none) (marker : c.entries.get? t.cycledKey = none)
    (h : Reachable distance (fresh t c now) s) : ∃ stamp, s.Paced distance stamp := by
  induction h with
  | refl => exact ⟨none, paced_fresh shut time marker⟩
  | pass before n ih =>
    obtain ⟨stamp, hs⟩ := ih
    exact ⟨stamp, hs.pass n⟩
  | move before may made ih =>
    obtain ⟨stamp, hs⟩ := ih
    exact hs.move may made

/-! ## Cycles keep their distance -/

/-- Clients cycle the nodes of one kind, at the same least distance in time, on a registry that
told of no cycle before.  The marker of a cycle is there only together with its time.  If a call
returns that it brought nodes down, and was finished at the time `finished`, then whoever wins the
gate after it stops no node before the distance from that time is over. -/
theorem cycles_keep_distance {c : Content} {now : Int} {s : Timed t}
    (shut : c.counter t.gateCounter = 0) (time : c.entries.get? t.cycledTimeKey = none)
    (marker : c.entries.get? t.cycledKey = none) (h : Reachable distance (fresh t c now) s) :
    ((s.clients.registry.entries.get? t.cycledKey).isSome →
      (s.clients.registry.entries.get? t.cycledTimeKey).isSome) ∧
    ∀ (first next : CallId) (f : Flight), s.clients.flight first = some f → f.Won t →
      (∀ f', s.clients.flight next = some f' → ¬ f'.Won t) →
      ∀ (s₁ s₂ : Timed t) (f₁ f₂ : Flight) (role nodeDir : String)
        (rest : Except Error Unit → Talk (Except Error CycleOutcome)) (victims : List Member)
        (finished : Int),
        Reachable distance s s₁ → s₁.clients.flight next = some f₁ →
        f₁.rest = .ask (.terminate role nodeDir) rest →
        Reachable distance s₁ s₂ → s₂.clients.flight first = some f₂ →
        f₂.Returned (.ok (.cycled victims)) → finish? f₂.past = some finished →
        finished + distance ≤ s₁.now := by
  obtain ⟨stamp, hs⟩ := h.paced shut time marker
  refine ⟨fun hmarker => ?_, ?_⟩
  · rw [hs.time, Option.isSome_map]
    exact hs.marker hmarker
  · intro first next f here won behind s₁ s₂ f₁ f₂ role nodeDir rest victims finished h₁ here₁
      hrest h₂ here₂ returned hfinished
    obtain ⟨stamp₁, hs₁⟩ := (h.trans h₁).paced shut time marker
    have hin : f₁.IsInside t := by
      rcases Flight.arriving_or_isInside (hs₁.sound.stands here₁) hrest with ⟨-, hq⟩ | hin
      · cases hq
      · exact hin
    have hne : first ≠ next := by
      rintro rfl
      exact behind f here won
    -- the first call has returned by now, and what it told is in the registry
    obtain ⟨f', here', ended⟩ := h₁.clients.over_of_other hs₁.sound here won ⟨f₁, here₁, hin⟩ hne
    obtain rfl : f' = f₂ := Option.some.inj ((h₂.clients.keeps here' ended).symm.trans here₂)
    have htold := (f'.driver.cycle_follows t).leads (hs₁.sound.leads first f' here')
    rw [returned.2] at htold
    obtain ⟨htime, hmarker⟩ := htold _ rfl victims rfl
    have hminds := hs₁.flights first f' here'
    obtain ⟨n, τ, hn, rfl, hle⟩ := hminds.stored htime
    obtain rfl := Option.some.inj (hn.symm.trans hfinished)
    obtain ⟨unwritten, cleared⟩ := hs₁.orderly here₁ hrest
    have hagrees := hs₁.agrees here₁ hrest unwritten
    obtain ⟨m, hm, hlate⟩ := hagrees.le_of_cleared cleared hs₁.time (hminds.marked hmarker)
    have hread := (hs₁.flights next f₁ here₁).clock m hm
    omega

/-- Moves made one after the other, while no time passes. -/
theorem Reachable.run {s₀ s : Timed t} {ms : List Cycling.Move} {g : Cycling t}
    (h : Reachable distance s₀ s)
    (may : ∀ clients : Cycling t, ∀ m ∈ ms, (⟨clients, s.now⟩ : Timed t).May distance m)
    (made : s.clients.run? ms = some g) : Reachable distance s₀ ⟨g, s.now⟩ := by
  obtain ⟨clients, now⟩ := s
  induction ms generalizing clients with
  | nil => exact Option.some.inj made ▸ h
  | cons m ms ih =>
    obtain ⟨g₁, h₁, hrest⟩ := Option.bind_eq_some_iff.mp made
    have hmove : Reachable distance s₀ ⟨g₁, now⟩ := h.move (may clients m List.mem_cons_self) h₁
    exact ih g₁ hmove (fun clients m hm => may clients m (.tail _ hm)) hrest

/-- A server, and a driver that may bring it down once in a second. -/
def server : Member := .ofIdentity ⟨"host", 8, "server", "b"⟩ "dir" 9

def pacer : Driver :=
  ⟨⟨"host", 7, "lead", "a"⟩, [server],
    { cycleNodes := true, minCycleInterval := 1, regenerateConfig := false }⟩

/-- All goes well at a time of day. -/
def wellAt (now : Int) : Surroundings
  | .clock => some now
  | .draw _ => some 0
  | .terminate .. => some (.ok ())
  | .launch .. => some (.ok 0)
  | _ => none

/-- A call with `n` of its requests answered at a time of day. -/
def rounds (id : CallId) (n : Nat) (now : Int) : List Cycling.Move :=
  .call id pacer :: List.replicate n (.answer id (wellAt now) false)

theorem may_rounds {id : CallId} {n : Nat} {now : Int} (clients : Cycling .store) :
    ∀ m ∈ rounds id n now, (⟨clients, now⟩ : Timed .store).May 1000 m := by
  intro m hm
  rcases List.mem_cons.mp hm with rfl | hm
  · rfl
  · rw [List.eq_of_mem_replicate hm]
    exact ⟨rfl, rfl⟩

/-- The stores' clients after moves on an empty registry. -/
def storesAfter (ms : List Cycling.Move) : Cycling .store :=
  ((Cycling.fresh .store .empty).run? ms).getD (.fresh .store .empty)

/-- The second call brings the server down again as soon as it may. -/
theorem rounds_keep_distance : ∃ (s s₁ : Timed .store) (f f₁ : Flight)
    (rest : Except Error Unit → Talk (Except Error CycleOutcome)),
    Reachable 1000 (fresh .store .empty 5) s ∧ s.clients.flight 0 = some f ∧
    f.Returned (.ok (.cycled [server])) ∧ finish? f.past = some 5 ∧ Reachable 1000 s s₁ ∧
    s₁.clients.flight 1 = some f₁ ∧ f₁.rest = .ask (.terminate "server" "dir") rest ∧
    (s₁.clients.registry.entries.get? Target.store.cycledTimeKey).isSome ∧
    5 + ((1000 : Nat) : Int) ≤ s₁.now := by
  have hrun : (Cycling.fresh .store .empty).run? (rounds 0 9 5) =
      some (storesAfter (rounds 0 9 5)) := rfl
  have hrun₁ : (storesAfter (rounds 0 9 5)).run? (rounds 1 5 1005) =
      some (storesAfter (rounds 0 9 5 ++ rounds 1 5 1005)) := rfl
  have hfirst : Reachable 1000 (fresh .store .empty 5) ⟨storesAfter (rounds 0 9 5), 5⟩ :=
    Reachable.refl.run may_rounds hrun
  have hsecond : Reachable 1000 ⟨storesAfter (rounds 0 9 5), 5⟩
      ⟨storesAfter (rounds 0 9 5 ++ rounds 1 5 1005), 1005⟩ :=
    (Reachable.refl.pass 1000).run may_rounds hrun₁
  have hmarked := (cycles_keep_distance rfl rfl rfl (hfirst.trans hsecond)).1 rfl
  have hlate := (cycles_keep_distance rfl rfl rfl hfirst).2 0 1 _ rfl List.mem_cons_self nofun
    _ _ _ _ _ _ _ _ _ hsecond rfl rfl .refl rfl ⟨rfl, rfl⟩ rfl
  exact ⟨_, _, _, _, _, hfirst, rfl, ⟨rfl, rfl⟩, rfl, hsecond, rfl, rfl, hmarked, hlate⟩

end Timed

end Primacy.Failover
