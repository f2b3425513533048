/-
  Primacy.Proofs.Election.Turnstile

  One activity at a time is past the turnstile of an elector.  `Crossing` says what a turn of an
  activity does to the turnstile: who goes past it has it, and nobody takes it from another.
-/
import Mathlib.Data.Sum.Basic
import Primacy.Election.Activity
import Primacy.Proofs.Election.Passage

namespace Primacy.Election

/-- The activity is past the turnstile. -/
def Activity.isInside : Activity → Bool
  | start p => p.isInside
  | stop p => p.isInside
  | _ => false

/-- A turn leads past the turnstile, or leaves the activity there. -/
def insideAfter : Activity ⊕ Ending → Bool := Sum.elim Activity.isInside fun _ => false

namespace Turnstile

@[simp] theorem isInside_iff (t : Turnstile) (id : CallId) :
    t.isInside id = true ↔ t.holder = some id := by
  simp [isInside]

theorem arrive_holder (t : Turnstile) (me : CallId) {id : CallId} (h : t.holder = some id) :
    (t.arrive me).holder = some id := by
  simp [arrive, h]

theorem abandon_holder (t : Turnstile) {me id : CallId} (hne : id ≠ me)
    (h : t.holder = some id) : (t.abandon me).holder = some id := by
  have : t.isInside me = false := by simpa [isInside, h] using hne
  simp [abandon, this, h]

end Turnstile

/-- What a turn of the activity `me` does to the turnstile; `inside` says whether the activity is
past it then. -/
structure Crossing (e e' : Elector) (me : CallId) (inside : Bool) : Prop where
  own : inside = true → e'.init.holder = some me
  other : ∀ id, id ≠ me → e.init.holder = some id → e'.init.holder = some id

namespace Crossing

variable {e e' : Elector} {me : CallId} {inside : Bool}

theorem keep (hinit : e'.init = e.init) (hin : inside = true → e.init.holder = some me) :
    Crossing e e' me inside :=
  ⟨fun h => hinit ▸ hin h, fun _ _ h => hinit ▸ h⟩

theorem outside (hinit : e'.init = e.init) : Crossing e e' me false :=
  .keep hinit nofun

theorem arrive (hinit : e'.init = e.init.arrive me)
    (hin : inside = true → (e.init.arrive me).holder = some me) : Crossing e e' me inside :=
  ⟨fun h => hinit ▸ hin h, fun _ _ h => hinit ▸ e.init.arrive_holder me h⟩

/-- Nobody else is past the turnstile when it is left. -/
theorem leave (hin : e.init.holder = some me) : Crossing e e' me false := by
  refine ⟨nofun, fun id hne h => ?_⟩
  rw [hin] at h
  exact absurd (Option.some.inj h).symm hne

end Crossing

theorem PromotionPoint.step_init (route : Route) (e : Elector) (p : PromotionPoint) :
    (p.step route e).elector.init = e.init := by
  obtain ⟨s, g, c, h⟩ := p.step_elector route e
  rw [h]

/-- Only a start that does not block is past the turnstile after a turn of its promotion. -/
theorem StartPoint.not_blocking_of_isInside {blocking : Bool} {t : Turn PromotionPoint Promotion}
    (h : ((t.within (promote blocking) (afterPromotion blocking)).next.elim isInside
      fun _ => false) = true) : blocking = false := by
  rw [Turn.elim_within] at h
  cases blocking with
  | false => rfl
  | true =>
    cases hn : t.next with
    | inl p =>
      rw [hn] at h
      cases h
    | inr r =>
      rw [hn] at h
      cases r <;> cases h

theorem StartPoint.step_crossing (e : Elector) (me : CallId) (p : StartPoint)
    (hready : p.isReady e me = true) (hin : p.isInside = true → e.init.holder = some me) :
    Crossing e (p.step e me).elector me
      ((p.step e me).next.elim StartPoint.isInside fun _ => false) := by
  cases p with
  | arrive address blocking =>
    refine .arrive rfl fun h => ?_
    by_cases hi : (e.init.arrive me).isInside me = true
    · exact (Turnstile.isInside_iff ..).mp hi
    · simp [step, hi, Turn.go, isInside] at h
  | queue address blocking =>
    exact .keep rfl fun _ => (Turnstile.isInside_iff ..).mp hready
  | check address blocking =>
    by_cases h : (e.started || e.status != .uninitialized) = true
    · exact .keep (by simp [step, h, Turn.go]) fun _ => hin rfl
    · exact .keep (by simp [step, h, Turn.go]) fun _ => hin rfl
  | connect address blocking => simp [isReady, request?] at hready
  | publish writes blocking => exact .keep rfl fun _ => hin rfl
  | tryLock => simp [isReady, request?] at hready
  | standBy =>
    by_cases h : e.status.canBecome .standby = true
    · exact .keep (by simp [step, h, Turn.go]) fun _ => hin rfl
    · exact .keep (by simp [step, h, Turn.go]) fun _ => hin rfl
  | spawnWaiter => exact .keep rfl fun _ => hin rfl
  | keepWaiter => exact .keep rfl fun _ => hin rfl
  | leaveEarly => exact .leave (hin rfl)
  | await => exact .outside rfl
  | checkShutdown =>
    refine .keep rfl fun h => ?_
    by_cases hs : e.shutdown = true <;> simp [step, hs, Turn.go, isInside] at h
  | unlockStopped => simp [isReady, request?] at hready
  | promote blocking p =>
    refine .keep (p.step_init .immediate e) fun h => hin ?_
    have hblocking : blocking = false := not_blocking_of_isInside h
    rw [hblocking]
    rfl
  | unlockRefused blocking => simp [isReady, request?] at hready
  | readStatus blocking =>
    cases blocking with
    | true => exact .outside rfl
    | false => exact .keep rfl fun _ => hin rfl
  | leave result => exact .leave (hin rfl)

theorem StartPoint.reply_crossing (e : Elector) (me : CallId) (r : Reply) (p : StartPoint)
    (hin : p.isInside = true → e.init.holder = some me) :
    Crossing e (p.reply e r).elector me
      ((p.reply e r).next.elim StartPoint.isInside fun _ => false) := by
  cases p with
  | connect address blocking => cases r <;> exact .keep rfl fun _ => hin rfl
  | publish writes blocking =>
    cases writes <;> cases r <;> exact .keep rfl fun _ => hin rfl
  | tryLock =>
    cases r with
    | ok granted => cases granted <;> exact .keep rfl fun _ => hin rfl
    | error err => exact .keep rfl fun _ => hin rfl
  | await => cases r <;> exact .outside rfl
  | unlockStopped => cases r <;> exact .outside rfl
  | promote blocking p =>
    refine .keep (congrArg Elector.init (p.reply_elector e r)) fun h => hin ?_
    have hblocking : blocking = false := not_blocking_of_isInside h
    rw [hblocking]
    rfl
  | unlockRefused blocking => cases r <;> exact .keep rfl fun h => hin h
  | _ => exact .keep rfl fun h => hin h

theorem StopPoint.step_crossing (e : Elector) (me : CallId) (p : StopPoint)
    (hready : p.isReady e me = true) (hin : p.isInside = true → e.init.holder = some me) :
    Crossing e (p.step e me).elector me
      ((p.step e me).next.elim StopPoint.isInside fun _ => false) := by
  cases p with
  | request => exact .outside rfl
  | arrive =>
    refine .arrive rfl fun h => ?_
    by_cases hi : (e.init.arrive me).isInside me = true
    · exact (Turnstile.isInside_iff ..).mp hi
    · simp [step, hi, Turn.go, isInside] at h
  | queue => exact .keep rfl fun _ => (Turnstile.isInside_iff ..).mp hready
  | takeWaiter =>
    by_cases h : e.waiterKept = true
    · exact .keep (by simp [step, h, Turn.go]) fun _ => hin rfl
    · exact .keep (by simp [step, h, Turn.go]) fun _ => hin rfl
  | join => exact .keep rfl fun _ => hin rfl
  | halt => exact .keep rfl fun _ => hin rfl
  | closeGate before => cases before <;> exact .keep rfl fun _ => hin rfl
  | unlock => simp [isReady] at hready
  | leave result => exact .leave (hin rfl)

theorem StopPoint.reply_crossing (e : Elector) (me : CallId) (r : Reply) (p : StopPoint)
    (hin : p.isInside = true → e.init.holder = some me) :
    Crossing e (p.reply e r).elector me
      ((p.reply e r).next.elim StopPoint.isInside fun _ => false) := by
  cases p with
  | unlock => cases r <;> exact .keep rfl fun _ => hin rfl
  | _ => exact .keep rfl fun h => hin h

namespace Activity

variable {e : Elector} {me : CallId} {a : Activity} {r : Reply}

/-- What a step of an activity does to the turnstile. -/
theorem step_crossing (hready : a.isReady e me = true)
    (hin : a.isInside = true → e.init.holder = some me) :
    Crossing e (a.step e me).elector me (insideAfter (a.step e me).next) := by
  cases a with
  | start p =>
    rw [step, insideAfter, Turn.elim_within]
    exact p.step_crossing e me hready hin
  | stop p =>
    rw [step, insideAfter, Turn.elim_within]
    exact p.step_crossing e me hready hin
  | await p =>
    have houtside : insideAfter ((await p).step e me).next = false :=
      Turn.elim_within_const (fun _ => rfl) fun _ => rfl
    rw [houtside]
    exact .outside (congrArg Elector.init (p.step_elector e))
  | notify p =>
    have houtside : insideAfter ((notify p).step e me).next = false :=
      Turn.elim_within_const (fun _ => rfl) fun _ => rfl
    rw [houtside]
    obtain ⟨_, h⟩ := p.step_elector e
    have hinit : (p.step e).elector.init = e.init := by rw [h]
    exact .outside hinit
  | waiter p =>
    have houtside : insideAfter ((waiter p).step e me).next = false :=
      Turn.elim_within_const (fun _ => rfl) fun _ => rfl
    rw [houtside]
    obtain ⟨_, _, _, _, h⟩ := p.step_elector e
    have hinit : (p.step e).elector.init = e.init := by rw [h]
    exact .outside hinit

/-- What an activity that goes on with the answer to its request does to the turnstile. -/
theorem reply_crossing (hin : a.isInside = true → e.init.holder = some me) :
    Crossing e (a.reply e r).elector me (insideAfter (a.reply e r).next) := by
  -- only starts and stops ever go past the turnstile
  cases a with
  | start p =>
    rw [reply, insideAfter, Turn.elim_within]
    exact p.reply_crossing e me r hin
  | stop p =>
    rw [reply, insideAfter, Turn.elim_within]
    exact p.reply_crossing e me r hin
  | waiter p =>
    have houtside : insideAfter ((waiter p).reply e r).next = false :=
      Turn.elim_within_const (fun _ => rfl) fun _ => rfl
    rw [houtside]
    obtain ⟨_, _, h⟩ := p.reply_elector e r
    have hinit : (p.reply e r).elector.init = e.init := by rw [h]
    exact .outside hinit
  | await p => exact .outside rfl
  | notify p => exact .outside rfl

/-- Breaking an activity off leaves the turnstile to the others as it is. -/
theorem abandon_crossing (hin : a.isInside = true → e.init.holder = some me) :
    Crossing e (a.abandon e me) me false := by
  -- whoever gives up in the queue was never past the turnstile
  have hqueue : Crossing e { e with init := e.init.abandon me } me false :=
    ⟨nofun, fun _ hne h => e.init.abandon_holder hne h⟩
  cases a with
  | start p =>
    by_cases h : p.isInside = true
    · exact .leave (hin h)
    · cases p <;> simp [abandon, StartPoint.abandon, h, hqueue, Crossing.outside]
  | stop p =>
    by_cases h : p.isInside = true
    · exact .leave (hin h)
    · cases p <;> simp [abandon, StopPoint.abandon, h, hqueue, Crossing.outside]
  | await p => exact .outside rfl
  | notify p => exact .outside rfl
  | waiter p => exact .outside rfl

end Activity

end Primacy.Election
