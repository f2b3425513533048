/-
  Primacy.Proofs.Election.Shutdown

  What a stop waits for.  It queues for the turnstile behind whoever has it, and it waits for the
  waiter to end; following these from one to the next leads to somebody who can go on, or who waits
  for an answer.  That answer is never a grant of the lock: a start that blocks is outside the
  turnstile by then, and a waiter looks out for a stop.  It may be the answer of the registry,
  though, and as long as that does not come the stop stays where it is.
-/
import Mathlib.Logic.Relation
import Primacy.Proofs.Election.Admission
import Primacy.Proofs.Election.Announcement
import Primacy.Proofs.Election.Staffing

namespace Primacy.Election

/-! ## Requests -/

/-- The promotion writes the record. -/
def PromotionPoint.isPut : PromotionPoint → Bool
  | putHost => true
  | putPort => true
  | _ => false

namespace Activity

variable {e : Elector} {a : Activity} {q : Request}

/-- The activity writes to the registry. -/
def isPut : Activity → Bool
  | start (.publish (_ :: _) _) => true
  | start (.promote _ p) => p.isPut
  | waiter (.promote p) => p.isPut
  | _ => false

/-- Nobody asks for the lock past the turnstile. -/
theorem place_of_lock (hq : a.request? e = some .lock) : a.place = .outside := by
  cases a with
  | start p =>
    cases p with
    | await => rfl
    | publish writes blocking => cases writes <;> exact nomatch hq
    | promote blocking p => cases p <;> exact nomatch hq
    | _ => exact nomatch hq
  | stop p => cases p <;> exact nomatch hq
  | waiter p => rfl
  | await p => exact nomatch hq
  | notify p => exact nomatch hq

/-- A waiter asks for the lock at one point only. -/
theorem eq_await_of_lock {p : WaiterPoint} (hq : (waiter p).request? e = some .lock) :
    p = .await := by
  cases p with
  | await => rfl
  | promote p => cases p <;> exact nomatch hq
  | _ => exact nomatch hq

/-- Past the turnstile nothing but a stop that waits for the waiter may be suspended without a
request. -/
theorem mayRest_of_isInside (hin : a.isInside = true) (hne : a ≠ .stop .join) :
    a.mayRest false = false := by
  cases a with
  | start p => cases p <;> first | rfl | exact nomatch hin
  | stop p =>
    cases p with
    | join => exact absurd rfl hne
    | request => exact nomatch hin
    | arrive => exact nomatch hin
    | queue => exact nomatch hin
    | _ => rfl
  | _ => exact nomatch hin

/-- Whoever writes to the registry waits for the answer. -/
theorem not_isReady_of_put {key value : String} (hq : a.request? e = some (.put key value))
    (e' : Elector) (me : CallId) : a.isReady e' me = false := by
  have hsome : (a.request? e').isSome = true := by
    rw [a.isSome_request? e' e, hq]
    rfl
  have hnone : (a.request? e').isNone = false := by
    cases hr : a.request? e' with
    | none =>
      rw [hr] at hsome
      exact nomatch hsome
    | some q => rfl
  cases a with
  | start p =>
    cases p with
    | await => exact nomatch hq
    | queue address blocking => exact nomatch hq
    | _ => exact hnone
  | stop p => cases p <;> exact nomatch hq
  | waiter p =>
    cases p with
    | await => exact nomatch hq
    | _ => exact hnone
  | await p => exact nomatch hq
  | notify p => exact nomatch hq

/-- An activity writes where its request is a write. -/
theorem isPut_iff (a : Activity) (e : Elector) :
    a.isPut = true ↔ ∃ key value, a.request? e = some (.put key value) := by
  constructor
  · intro h
    cases a with
    | start p =>
      cases p with
      | publish writes blocking =>
        cases writes with
        | nil => exact nomatch h
        | cons w writes => exact ⟨_, _, rfl⟩
      | promote blocking p => cases p <;> first | exact ⟨_, _, rfl⟩ | exact nomatch h
      | _ => exact nomatch h
    | waiter p =>
      cases p with
      | promote p => cases p <;> first | exact ⟨_, _, rfl⟩ | exact nomatch h
      | _ => exact nomatch h
    | _ => exact nomatch h
  · rintro ⟨key, value, h⟩
    cases a with
    | start p =>
      cases p with
      | publish writes blocking =>
        cases writes with
        | nil => exact nomatch h
        | cons w writes => rfl
      | promote blocking p => cases p <;> first | rfl | exact nomatch h
      | _ => exact nomatch h
    | stop p => cases p <;> exact nomatch h
    | waiter p =>
      cases p with
      | promote p => cases p <;> first | rfl | exact nomatch h
      | _ => exact nomatch h
    | await p => exact nomatch h
    | notify p => exact nomatch h

/-- Whether an activity writes does not depend on the elector. -/
theorem exists_put {key value : String} (hq : a.request? e = some (.put key value)) (e' : Elector) :
    ∃ key' value', a.request? e' = some (.put key' value') :=
  (a.isPut_iff e').mp ((a.isPut_iff e).mpr ⟨key, value, hq⟩)

/-- At the turnstile it is a start that writes. -/
theorem starting_of_put {key value : String} (hq : a.request? e = some (.put key value))
    (hplace : a.place ≠ .outside) : a.role = .starting := by
  cases a with
  | start p =>
    cases p with
    | publish writes blocking => rfl
    | promote blocking p =>
      cases blocking with
      | false => rfl
      | true => exact absurd rfl hplace
    | _ => exact nomatch hq
  | stop p => cases p <;> exact nomatch hq
  | waiter p => exact absurd rfl hplace
  | await p => exact nomatch hq
  | notify p => exact nomatch hq

/-- A stop goes on from its first point with the request made. -/
theorem requested_of_step {me : CallId} {p : StopPoint} (h : (a.step e me).next = .inl (.stop p)) :
    a = .stop .request ∧ (a.step e me).elector.shutdown = true ∨
      ∃ p', a = .stop p' ∧ p' ≠ .request := by
  cases a with
  | stop p' =>
    cases p' with
    | request => exact .inl ⟨rfl, rfl⟩
    | _ => exact .inr ⟨_, rfl, nofun⟩
  | start p' =>
    rcases Turn.of_within h with ⟨_, -, heq⟩ | ⟨_, -, heq⟩ <;> exact nomatch heq
  | await p' =>
    rcases Turn.of_within h with ⟨_, -, heq⟩ | ⟨_, -, heq⟩ <;> exact nomatch heq
  | notify p' =>
    rcases Turn.of_within h with ⟨_, -, heq⟩ | ⟨_, -, heq⟩ <;> exact nomatch heq
  | waiter p' =>
    rcases Turn.of_within h with ⟨_, -, heq⟩ | ⟨_, -, heq⟩ <;> exact nomatch heq

theorem requested_of_reply {r : Reply} {p : StopPoint} (hq : a.request? e = some q)
    (h : (a.reply e r).next = .inl (.stop p)) : ∃ p', a = .stop p' ∧ p' ≠ .request := by
  cases a with
  | stop p' =>
    cases p' with
    | unlock => exact ⟨_, rfl, nofun⟩
    | _ => exact nomatch hq
  | start p' =>
    rcases Turn.of_within h with ⟨_, -, heq⟩ | ⟨_, -, heq⟩ <;> exact nomatch heq
  | waiter p' =>
    rcases Turn.of_within h with ⟨_, -, heq⟩ | ⟨_, -, heq⟩ <;> exact nomatch heq
  | await p' => exact nomatch hq
  | notify p' => exact nomatch hq

end Activity

namespace Node

variable {n n' : Node} {e : Elector} {id id' : CallId} {a : Activity} {asked : Bool} {m : Move}
  {q : Request}

/-! ## Waiting -/

/-- The activity `id` waits for the activity `id'`: for its turn, or for the waiter to end. -/
inductive Awaits (n : Node) (id id' : CallId) : Prop where
  | turn {a : Activity} {asked : Bool} (here : n.course id = some (.going a asked))
      (queueing : a.place = .queueing) (taken : n.elector.init.holder = some id') (ne : id' ≠ id)
  | waiter {p : WaiterPoint} {asked asked' : Bool}
      (here : n.course id = some (.going (.stop .join) asked))
      (active : n.elector.waiter = .active)
      (there : n.course id' = some (.going (.waiter p) asked'))

/-- The activity waits for the answer to a request. -/
def AwaitsReply (n : Node) (id : CallId) (q : Request) : Prop :=
  ∃ a, n.course id = some (.going a true) ∧ a.request? n.elector = some q

/-- The activity can take a step of its own, or make a request. -/
def CanAct (n : Node) (id : CallId) : Prop :=
  (∃ w n', n.move? (.step id w) = some n') ∨ ∃ n', n.move? (.ask id) = some n'

/-- The activity, or whom it waits for in the end, can act or waits for an answer of this kind. -/
def GetsOn (n : Node) (P : Request → Prop) (id : CallId) : Prop :=
  ∃ id', Relation.ReflTransGen n.Awaits id id' ∧ (n.CanAct id' ∨ ∃ q, P q ∧ n.AwaitsReply id' q)

/-! ## What holds at every node -/

/-- Every stop that has got past its first point has requested an end. -/
def Alerted (n : Node) : Prop :=
  ∀ id p asked, n.course id = some (.going (.stop p) asked) → p ≠ .request →
    n.elector.shutdown = true

theorem Makes.shutdown (h : n.Makes m n') (hn : n.elector.shutdown = true) :
    n'.elector.shutdown = true :=
  Undergoes.shutdown (i := .move m) (.move h) hn

theorem Makes.alerted (h : n.Makes m n') (hn : n.Alerted) : n'.Alerted := by
  intro id' p asked' here' hp
  -- unless its request is made right now, the stop was there before
  have hbefore : ∀ {p' : StopPoint} {asked : Bool},
      n.course id' = some (.going (.stop p') asked) → p' ≠ .request →
        n'.elector.shutdown = true :=
    fun hc hne => h.shutdown (hn id' _ _ hc hne)
  cases h with
  | @call id c new =>
    rcases course_setCourse here' with ⟨-, hc⟩ | ⟨-, here'⟩
    · cases c with
      | stop =>
        cases hc
        exact absurd rfl hp
      | _ => exact nomatch hc
    · exact hbefore here' hp
  | @step id w a asked here ready new =>
    rcases course_spawn here' with ⟨-, -, -, hc⟩ | here'
    · exact nomatch hc
    · rcases going_carryOut here' with ⟨rfl, hnext, -⟩ | ⟨-, here'⟩
      · rcases Activity.requested_of_step hnext with ⟨-, hshutdown⟩ | ⟨p', rfl, hne⟩
        · rw [spawn_elector]
          exact hshutdown
        · exact hbefore here hne
      · exact hbefore here' hp
  | @ask id a q here request =>
    rcases course_setCourse here' with ⟨rfl, hc⟩ | ⟨-, here'⟩
    · cases hc
      exact hbefore here hp
    · exact hbefore here' hp
  | @answer id r a q here request =>
    rcases going_carryOut here' with ⟨rfl, hnext, -⟩ | ⟨-, here'⟩
    · obtain ⟨p', rfl, hne⟩ := Activity.requested_of_reply request hnext
      exact hbefore here hne
    · exact hbefore here' hp
  | breakOff here may =>
    rcases course_setCourse here' with ⟨-, hc⟩ | ⟨-, here'⟩
    · exact nomatch hc
    · exact hbefore here' hp
  | discard => exact hbefore here' hp

theorem Reachable.alerted (h : Reachable e n) : n.Alerted := by
  induction h with
  | fresh => exact fun _ _ _ here => nomatch here
  | move before made ih => exact (makes_of_move? made).alerted ih

/-- There is always a name left for another call. -/
theorem Reachable.exists_unused (h : Reachable e n) : ∃ id, n.course id = none := by
  -- each move gives away one name at most, so all names are below some bound
  have hbound : ∃ b, ∀ id, b ≤ id → n.course id = none := by
    induction h with
    | fresh => exact ⟨0, fun _ _ => rfl⟩
    | @move n n' m before made ih =>
      obtain ⟨b, hb⟩ := ih
      refine ⟨max b (m.newcomer?.elim 0 (· + 1)), fun id hid => ?_⟩
      have hnew : m.newcomer? ≠ some id := by
        intro hnew
        rw [hnew] at hid
        exact absurd (Nat.le_trans (Nat.le_max_right ..) hid) (Nat.not_succ_le_self id)
      have hnone := hb id (Nat.le_trans (Nat.le_max_left ..) hid)
      exact (makes_of_move? made).course_eq_none hnew hnone
  obtain ⟨b, hb⟩ := hbound
  exact ⟨b, hb b (Nat.le_refl b)⟩

/-- The turnstile, the waiter and the stops are in order. -/
structure Orderly (n : Node) : Prop where
  custody : n.Custody
  admits : n.Admits
  staffed : Staffed n.role n.elector
  manned : n.Manned
  alerted : n.Alerted
  unused : ∃ id, n.course id = none

theorem Reachable.orderly {i : Identity} {owner : String} {port : Nat} {dir : Option String}
    (h : Reachable (.fresh i owner port dir) n) : n.Orderly where
  custody := h.custody (by rintro ⟨⟩)
  admits := h.admits rfl
  staffed := h.staffed (by rintro ⟨⟩) rfl rfl
  manned := h.manned (by rintro ⟨⟩) rfl rfl
  alerted := h.alerted
  unused := h.exists_unused

/-! ## Getting on -/

theorem Orderly.canAct (hn : n.Orderly) (here : n.course id = some (.going a asked))
    (ready : a.isReady n.elector id = true) : n.CanAct id := by
  obtain ⟨w, hw⟩ := hn.unused
  exact .inl ⟨w, _, move?_of_makes (.step here ready hw)⟩

/-- Whoever has a step to take or a request to make can do so, or has made it. -/
theorem Orderly.canAct_or_awaitsReply (hn : n.Orderly)
    (here : n.course id = some (.going a asked))
    (hon : a.isReady n.elector id = true ∨ (a.request? n.elector).isSome = true) :
    n.CanAct id ∨ ∃ q, a.request? n.elector = some q ∧ n.AwaitsReply id q := by
  rcases hon with ready | hsome
  · exact .inl (hn.canAct here ready)
  · obtain ⟨q, request⟩ := Option.isSome_iff_exists.mp hsome
    cases asked with
    | false => exact .inl (.inr ⟨_, move?_of_makes (.ask here request)⟩)
    | true => exact .inr ⟨q, request, a, here, request⟩

/-- Once an end is requested, a waiter does not depend on a grant. -/
theorem Orderly.waiter_getsOn (hn : n.Orderly) (hshutdown : n.elector.shutdown = true)
    {p : WaiterPoint} (here : n.course id = some (.going (.waiter p) asked)) :
    n.CanAct id ∨ ∃ q, q ≠ .lock ∧ n.AwaitsReply id q := by
  by_cases hp : p = .await
  · subst hp
    exact .inl (hn.canAct here hshutdown)
  · have hrest : (Activity.waiter p).mayRest false = false := by
      cases p <;> first | rfl | exact absurd rfl hp
    have hon := (Activity.isReady_or_request n.elector id hrest).2
    rcases hn.canAct_or_awaitsReply here hon with hact | ⟨q, request, hreply⟩
    · exact .inl hact
    · refine .inr ⟨q, ?_, hreply⟩
      rintro rfl
      exact hp (Activity.eq_await_of_lock request)

/-- Whoever is past the turnstile gets on without a grant. -/
theorem Orderly.inside_getsOn (hn : n.Orderly) (here : n.course id = some (.going a asked))
    (hin : a.isInside = true) : n.GetsOn (· ≠ .lock) id := by
  by_cases hjoin : a = .stop .join
  · subst hjoin
    by_cases hactive : n.elector.waiter = .active
    · -- the waiter is at work, and sees the stop that waits for it
      obtain ⟨w, hw⟩ := hn.manned hactive
      obtain ⟨p, asked', there⟩ := going_of_waiting hw
      have hshutdown := hn.alerted id .join asked here nofun
      exact ⟨w, .single (.waiter here hactive there), hn.waiter_getsOn hshutdown there⟩
    · refine ⟨id, .refl, .inl (hn.canAct here ?_)⟩
      show StopPoint.isReady n.elector id .join = true
      dsimp only [StopPoint.isReady]
      split
      · next h => exact absurd h hactive
      · rfl
  · have hon := (Activity.isReady_or_request n.elector id
      (Activity.mayRest_of_isInside hin hjoin)).2
    refine ⟨id, .refl, (hn.canAct_or_awaitsReply here hon).imp_right ?_⟩
    rintro ⟨q, request, hreply⟩
    refine ⟨q, ?_, hreply⟩
    rintro rfl
    exact nomatch (Activity.place_of_lock request).symm.trans
      ((Activity.place_eq_inside_iff a).mpr hin)

/-- A stop gets on without a grant, wherever it is. -/
theorem Orderly.stop_getsOn (hn : n.Orderly) {p : StopPoint}
    (here : n.course id = some (.going (.stop p) asked)) : n.GetsOn (· ≠ .lock) id := by
  have hready : (Activity.stop p).isReady n.elector id = true → n.GetsOn (· ≠ .lock) id :=
    fun ready => ⟨id, .refl, .inl (hn.canAct here ready)⟩
  cases p with
  | request => exact hready rfl
  | arrive => exact hready rfl
  | queue =>
    have hplace : n.place id = .queueing := place_of_going here
    by_cases hself : n.elector.init.holder = some id
    · exact hready ((Turnstile.isInside_iff ..).mpr hself)
    · -- somebody else has the turnstile, and gets on himself
      have hmem := (hn.admits.queueing id hplace).resolve_left hself
      have htaken : n.elector.init.holder ≠ none := by
        intro hfree
        rw [hn.admits.free hfree] at hmem
        exact nomatch hmem
      obtain ⟨id', hholder⟩ := Option.ne_none_iff_exists'.mp htaken
      have hne : id' ≠ id := by
        rintro rfl
        exact hself hholder
      have hawaits : n.Awaits id id' := .turn here rfl hholder hne
      obtain ⟨a, asked', there, hqueueing | hin⟩ := hn.admits.exists_going hholder
      · refine ⟨id', .single hawaits, .inl (hn.canAct there ?_)⟩
        rw [(Activity.isReady_of_queueing hqueueing n.elector id').1, Turnstile.isInside_iff]
        exact hholder
      · obtain ⟨id'', hchain, hacts⟩ := hn.inside_getsOn there hin
        exact ⟨id'', .head hawaits hchain, hacts⟩
  | _ => exact hn.inside_getsOn here rfl

/-- For an elector under any interleaving of its calls, whatever the lock service answers: nobody
who waits for a grant has the turnstile, and a stop that is pending while no request but for a grant
is outstanding can act, or somebody can for whom it waits in the end. -/
theorem stop_independent_of_grant {i : Identity} {owner : String} {port : Nat}
    {dir : Option String} (h : Reachable (.fresh i owner port dir) n) :
    (∀ id, n.AwaitsReply id .lock → n.elector.init.holder ≠ some id) ∧
    ∀ id p asked, n.course id = some (.going (.stop p) asked) →
      (∀ id' q, n.AwaitsReply id' q → q = .lock) →
      ∃ id', Relation.ReflTransGen n.Awaits id id' ∧ n.CanAct id' := by
  have hn := h.orderly
  refine ⟨fun id hlock => ?_, fun id p asked here honly => ?_⟩
  · obtain ⟨a, here, request⟩ := hlock
    exact hn.admits.holder_ne ((place_of_going here).trans (Activity.place_of_lock request))
  · obtain ⟨id', hchain, hact | ⟨q, hne, hreply⟩⟩ := hn.stop_getsOn here
    · exact ⟨id', hchain, hact⟩
    · exact absurd (honly id' q hreply) hne

/-- Where moves lead that make up a run of incidents. -/
theorem Reachable.live {ms : List Move} {c : Chronicle} (h : Reachable e n)
    (hlive : n.live? (ms.map .move) = some (n', c)) : Reachable e n' := by
  induction ms generalizing n c with
  | nil =>
    obtain ⟨rfl, -⟩ := of_live?_nil hlive
    exact h
  | cons m ms ih =>
    obtain ⟨n₁, c₁, hi, hrest, -⟩ := of_live?_cons hlive
    exact ih (h.move hi) hrest

/-- A stop that waits for the waiter while that waits for a grant. -/
theorem waiting_stop_acts :
    (blank.after waitingMoves).1.course 1 = some (.going (.stop .join) false) ∧
    (blank.after waitingMoves).1.AwaitsReply 2 .lock ∧
    (blank.after waitingMoves).1.elector.init.holder ≠ some 2 ∧
    ∃ id', Relation.ReflTransGen (blank.after waitingMoves).1.Awaits 1 id' ∧
      (blank.after waitingMoves).1.CanAct id' := by
  have hlive : blank.live? waitingMoves = some (blank.after waitingMoves) := rfl
  have hreach := Reachable.fresh.live hlive
  have hlock : (blank.after waitingMoves).1.AwaitsReply 2 .lock := ⟨_, rfl, rfl⟩
  have honly : ∀ id q, (blank.after waitingMoves).1.AwaitsReply id q → q = .lock := by
    rintro id q ⟨a, here, request⟩
    match id with
    | 0 => exact nomatch here
    | 1 => exact nomatch here
    | 2 =>
      cases here
      exact (Option.some.inj request).symm
    | id + 3 =>
      have hnone : (blank.after waitingMoves).1.course (id + 3) = none := rfl
      exact nomatch hnone.symm.trans here
  obtain ⟨houtside, hstops⟩ := stop_independent_of_grant hreach
  exact ⟨rfl, hlock, houtside 2 hlock, hstops 1 .join false rfl honly⟩

/-! ## Waiting for the registry -/

/-- Whoever waits for somebody does nothing. -/
theorem Awaits.not_actor (h : n.Awaits id id') (hm : n.Makes m n') : m.actor? ≠ some id := by
  -- at the two points at which it can be there is neither a step to take nor a request to make
  have hidle : ∃ a asked, n.course id = some (.going a asked) ∧
      a.isReady n.elector id = false ∧ a.request? n.elector = none := by
    cases h with
    | @turn a asked here queueing taken ne =>
      have hout : n.elector.init.isInside id = false := by
        rw [Bool.eq_false_iff, Ne, Turnstile.isInside_iff, taken]
        exact fun h => ne (Option.some.inj h)
      obtain ⟨hready, hrequest⟩ := Activity.isReady_of_queueing queueing n.elector id
      exact ⟨a, asked, here, hready.trans hout, hrequest⟩
    | @waiter p asked asked' here active there =>
      refine ⟨_, asked, here, ?_, rfl⟩
      show StopPoint.isReady n.elector id .join = false
      dsimp only [StopPoint.isReady]
      rw [active]
  obtain ⟨a, asked, here, hready, hrequest⟩ := hidle
  intro hactor
  cases hm with
  | step here' ready new =>
    cases hactor
    obtain ⟨rfl, -⟩ := Course.going.inj (Option.some.inj (here.symm.trans here'))
    exact nomatch ready.symm.trans hready
  | ask here' request =>
    cases hactor
    obtain ⟨rfl, -⟩ := Course.going.inj (Option.some.inj (here.symm.trans here'))
    exact nomatch request.symm.trans hrequest
  | answer here' request =>
    cases hactor
    obtain ⟨rfl, -⟩ := Course.going.inj (Option.some.inj (here.symm.trans here'))
    exact nomatch request.symm.trans hrequest
  | _ => exact nomatch hactor

/-- Whoever a move is not about stays where it is. -/
theorem Makes.course_of_ne (h : n.Makes m n') (hm : m.isBreakOff = false)
    (hne : m.actor? ≠ some id) {c : Course} (here : n.course id = some c) :
    n'.course id = some c := by
  obtain ⟨y, hy, hfate⟩ := Undergoes.fate (i := .move m) (.move h) here
  cases hfate with
  | aside => exact hy
  | step ready => exact absurd rfl hne
  | ask request => exact absurd rfl hne
  | answer request => exact absurd rfl hne
  | breakOff may => cases hm

/-- Nobody but the waiter ends it. -/
theorem Makes.active (h : n.Makes m n') (hs : Staffed n.role n.elector) (hm : m.isBreakOff = false)
    (hne : m.actor? ≠ some id) (hid : n.role id = .waiting)
    (hactive : n.elector.waiter = .active) : n'.elector.waiter = .active := by
  have hother : ∀ {id' a asked}, n.course id' = some (.going a asked) → a.role = .waiting →
      m.actor? ≠ some id' := by
    intro id' a asked here hwaiting hactor
    obtain rfl := hs.alone id id' hid ((role_of_going here).trans hwaiting)
    exact hne hactor
  cases h with
  | call new => exact hactive
  | @step id' w a asked here ready new =>
    rw [spawn_elector]
    exact ((Activity.step_tending ready).active_after hactive).resolve_right fun hwaiting =>
      hother here hwaiting rfl
  | ask here request => exact hactive
  | @answer id' r a q here request =>
    exact ((Activity.reply_tending request).active_after hactive).resolve_right fun hwaiting =>
      hother here hwaiting rfl
  | breakOff here may => cases hm
  | discard => exact hactive

/-- One waits for another until that one moves. -/
theorem Awaits.makes (h : n.Awaits id id') (hn : n.Orderly) (hm : n.Makes m n')
    (hbreak : m.isBreakOff = false) (hne : m.actor? ≠ some id') : n'.Awaits id id' := by
  have hself := h.not_actor hm
  cases h with
  | turn here queueing taken ne =>
    exact .turn (hm.course_of_ne hbreak hself here) queueing
      (hm.holder hn.admits hbreak taken hne) ne
  | waiter here active there =>
    have hwaiting := role_of_going there
    exact .waiter (hm.course_of_ne hbreak hself here)
      (hm.active hn.staffed hbreak hne hwaiting active) (hm.course_of_ne hbreak hne there)

/-- A chain of waiting stays as long as its end does not move, and nobody in it does either. -/
theorem awaits_chain_makes (h : Relation.ReflTransGen n.Awaits id id') (hn : n.Orderly)
    (hm : n.Makes m n') (hbreak : m.isBreakOff = false) (hne : m.actor? ≠ some id') :
    m.actor? ≠ some id ∧ Relation.ReflTransGen n'.Awaits id id' := by
  induction h using Relation.ReflTransGen.head_induction_on with
  | refl => exact ⟨hne, .refl⟩
  | head hfirst hrest ih => exact ⟨hfirst.not_actor hm, .head (hfirst.makes hn hm hbreak ih.1) ih.2⟩

/-- Whoever waits for somebody is behind whoever has the turnstile, or has it and waits for the
waiter. -/
theorem Awaits.holder (h : n.Awaits id id') (hn : n.Orderly) :
    (n.elector.init.holder = some id' ∧ id' ≠ id) ∨
      (n.elector.init.holder = some id ∧ n.role id = .joining) := by
  cases h with
  | turn here queueing taken ne => exact .inl ⟨taken, ne⟩
  | waiter here active there => exact .inr ⟨hn.custody.inside id _ _ here rfl, role_of_going here⟩

/-- The activity waits for the answer of the registry. -/
def AwaitsPut (n : Node) (id : CallId) : Prop :=
  ∃ key value, n.AwaitsReply id (.put key value)

/-- Whoever waits for the registry does nothing until it answers. -/
theorem AwaitsPut.not_actor (h : n.AwaitsPut id) (hm : n.Makes m n')
    (hanswer : ∀ r, m ≠ .answer id r) : m.actor? ≠ some id := by
  obtain ⟨key, value, a, here, request⟩ := h
  intro hactor
  cases hm with
  | step here' ready new =>
    cases hactor
    obtain ⟨rfl, -⟩ := Course.going.inj (Option.some.inj (here.symm.trans here'))
    exact nomatch ready.symm.trans (Activity.not_isReady_of_put request n.elector id)
  | ask here' request' =>
    cases hactor
    exact nomatch here.symm.trans here'
  | answer here' request' =>
    cases hactor
    exact hanswer _ rfl
  | _ => exact nomatch hactor

theorem AwaitsPut.makes (h : n.AwaitsPut id) (hm : n.Makes m n') (hbreak : m.isBreakOff = false)
    (hanswer : ∀ r, m ≠ .answer id r) : n'.AwaitsPut id := by
  have hidle := h.not_actor hm hanswer
  obtain ⟨key, value, a, here, request⟩ := h
  obtain ⟨key', value', request'⟩ := Activity.exists_put request n'.elector
  exact ⟨key', value', a, hm.course_of_ne hbreak hidle here, request'⟩

/-- A write that keeps others waiting is that of a start past the turnstile, or that of the waiter's
promotion. -/
theorem AwaitsPut.writer (h : n.AwaitsPut id') (hn : n.Orderly) (hawaits : n.Awaits id id') :
    (n.elector.init.holder = some id' ∧ n.role id' = .starting) ∨
      ∃ p, n.course id' = some (.going (.waiter (.promote p)) true) := by
  obtain ⟨key, value, a, there, request⟩ := h
  cases hawaits with
  | turn here queueing taken ne =>
    refine .inl ⟨taken, (role_of_going there).trans ?_⟩
    have hplace : a.place ≠ .outside := by
      rw [← place_of_going there]
      exact hn.admits.holder id' taken
    exact Activity.starting_of_put request hplace
  | @waiter p asked asked' here active there' =>
    obtain ⟨rfl, rfl⟩ := Course.going.inj (Option.some.inj (there.symm.trans there'))
    cases p with
    | promote p => exact .inr ⟨p, there'⟩
    | _ => exact nomatch request

/-- An elector is not stopped while a stop waits for a write. -/
theorem AwaitsPut.alive (h : n.AwaitsPut id') (hn : n.Orderly)
    (hchain : Relation.TransGen n.Awaits id id') : n.elector.status ≠ .stopped := by
  obtain ⟨j, hfirst, hrest⟩ := Relation.TransGen.head'_iff.mp hchain
  rcases hfirst.holder hn with ⟨hholder, -⟩ | ⟨-, hjoining⟩
  · -- whoever has the turnstile is the start that writes, or a stop that waits for the waiter
    rcases hrest.cases_head with rfl | ⟨k, hnext, -⟩
    · rcases h.writer hn hfirst with ⟨-, hstarting⟩ | ⟨p, there⟩
      · exact hn.staffed.starting _ (by rw [hstarting]; rfl)
      · exact absurd hholder (hn.admits.holder_ne (place_of_going there))
    · rcases hnext.holder hn with ⟨hholder', hne⟩ | ⟨-, hjoining⟩
      · exact absurd (Option.some.inj (hholder'.symm.trans hholder)) hne
      · exact hn.staffed.joining j hjoining
  · exact hn.staffed.joining id hjoining

/-- As long as the registry does not answer, those who wait for it stay where they are. -/
theorem AwaitsPut.run {i : Identity} {owner : String} {port : Nat} {dir : Option String}
    {ms : List Move} (h : n.AwaitsPut id') (hn : Reachable (.fresh i owner port dir) n)
    (hchain : Relation.TransGen n.Awaits id id') (made : n.run? ms = some n')
    (hms : ∀ m ∈ ms, m.isBreakOff = false ∧ ∀ r, m ≠ .answer id' r) :
    n'.course id = n.course id ∧ n'.elector.status ≠ .stopped := by
  induction ms generalizing n with
  | nil =>
    cases made
    exact ⟨rfl, h.alive hn.orderly hchain⟩
  | cons m ms ih =>
    obtain ⟨n₁, hmove, hrest⟩ := Option.bind_eq_some_iff.mp made
    have hm := makes_of_move? hmove
    obtain ⟨hbreak, hanswer⟩ := hms m List.mem_cons_self
    have hidle := h.not_actor hm hanswer
    -- the end of the chain is idle, so everybody along it is, and the chain stays
    obtain ⟨j, hfirst, htail⟩ := Relation.TransGen.head'_iff.mp hchain
    obtain ⟨hj, htail'⟩ := awaits_chain_makes htail hn.orderly hm hbreak hidle
    have hfirst' := hfirst.makes hn.orderly hm hbreak hj
    obtain ⟨hcourse, halive⟩ := ih (h.makes hm hbreak hanswer) (hn.move hmove)
      (.head' hfirst' htail') hrest fun m' hm' => hms m' (.tail m hm')
    refine ⟨hcourse.trans ?_, halive⟩
    obtain ⟨c, hc⟩ : ∃ c, n.course id = some c := by
      cases hfirst with
      | turn here queueing taken ne => exact ⟨_, here⟩
      | waiter here active there => exact ⟨_, here⟩
    rw [hc]
    exact hm.course_of_ne hbreak (hfirst.not_actor hm) hc

/-- A stop that waits for no write gets on by itself, or depends on an answer of the lock service to
a call other than `lock`.  One that waits for a write waits for the endpoints of a start, for the
record of a start that does not block, or for the record of the waiter; until the registry answers,
and unless somebody breaks off, it stays where it is and the elector is not stopped. -/
theorem stop_waits_for_put {i : Identity} {owner : String} {port : Nat} {dir : Option String}
    {p : StopPoint} (h : Reachable (.fresh i owner port dir) n)
    (here : n.course id = some (.going (.stop p) asked)) :
    ((∀ id', Relation.ReflTransGen n.Awaits id id' → ¬ n.AwaitsPut id') →
      n.GetsOn (fun q => (∃ address, q = .connect address) ∨ q = .tryLock ∨ q = .unlock) id) ∧
    ∀ id', Relation.ReflTransGen n.Awaits id id' → n.AwaitsPut id' →
      ((n.elector.init.holder = some id' ∧ n.role id' = .starting) ∨
        ∃ p, n.course id' = some (.going (.waiter (.promote p)) true)) ∧
      ∀ ms n', n.run? ms = some n' →
        (∀ m ∈ ms, m.isBreakOff = false ∧ ∀ r, m ≠ .answer id' r) →
        n'.course id = some (.going (.stop p) asked) ∧ n'.elector.status ≠ .stopped := by
  have hn := h.orderly
  refine ⟨fun hnone => ?_, fun id' hchain hput => ?_⟩
  · obtain ⟨id', hchain, hacts⟩ := hn.stop_getsOn here
    refine ⟨id', hchain, hacts.imp_right ?_⟩
    rintro ⟨q, hlock, hreply⟩
    refine ⟨q, ?_, hreply⟩
    cases q with
    | connect address => exact .inl ⟨address, rfl⟩
    | tryLock => exact .inr (.inl rfl)
    | unlock => exact .inr (.inr rfl)
    | lock => exact absurd rfl hlock
    | put key value => exact absurd ⟨key, value, hreply⟩ (hnone id' hchain)
  · -- a stop itself writes nothing, so it waits for somebody else
    have hne : id ≠ id' := by
      rintro rfl
      obtain ⟨key, value, a, there, request⟩ := hput
      obtain ⟨rfl, -⟩ := Course.going.inj (Option.some.inj (here.symm.trans there))
      cases p <;> exact nomatch request
    have hchain' := (Relation.reflTransGen_iff_eq_or_transGen.mp hchain).resolve_left hne.symm
    refine ⟨?_, fun ms n' made hms => ?_⟩
    · obtain ⟨k, -, hlast⟩ := Relation.TransGen.tail'_iff.mp hchain'
      exact hput.writer hn hlast
    · rw [← here]
      exact hput.run h hchain' made hms

/-- A start that was granted the lock writes the record, and a stop queues behind it. -/
theorem hasty_stop_waits :
    (blank.after hastyMoves).1.AwaitsPut 0 ∧
    Relation.ReflTransGen (blank.after hastyMoves).1.Awaits 1 0 ∧
    (blank.after hastyMoves).1.elector.init.holder = some 0 ∧
    ∀ ms n', (blank.after hastyMoves).1.run? ms = some n' →
      (∀ m ∈ ms, m.isBreakOff = false ∧ ∀ r, m ≠ .answer 0 r) →
      n'.course 1 = some (.going (.stop .queue) false) ∧ n'.elector.status ≠ .stopped := by
  have hlive : blank.live? hastyMoves = some (blank.after hastyMoves) := rfl
  have hreach := Reachable.fresh.live hlive
  have hstop : (blank.after hastyMoves).1.course 1 = some (.going (.stop .queue) false) := rfl
  have hput : (blank.after hastyMoves).1.AwaitsPut 0 := ⟨_, _, _, rfl, rfl⟩
  have hchain : Relation.ReflTransGen (blank.after hastyMoves).1.Awaits 1 0 :=
    .single (.turn hstop rfl rfl nofun)
  exact ⟨hput, hchain, rfl, ((stop_waits_for_put hreach hstop).2 0 hchain hput).2⟩

/-- Also if activities interleave only where they may be suspended, a stop can wait for the
registry. -/
theorem stop_held_up_by_put :
    ¬ ∀ (is : List Incident) (n : Node) (c : Chronicle),
      blank.live? is = some (n, c) → blank.Cooperative is →
      ∀ id p asked id', n.course id = some (.going (.stop p) asked) →
        Relation.ReflTransGen n.Awaits id id' → ¬ n.AwaitsPut id' := by
  intro h
  have hlive : blank.live? hastyMoves = some (blank.after hastyMoves) := rfl
  have hcoop : blank.Cooperative hastyMoves :=
    cooperative_of_isCooperative 10 (fun _ _ => rfl) rfl
  have hstop : (blank.after hastyMoves).1.course 1 = some (.going (.stop .queue) false) := rfl
  have hput : (blank.after hastyMoves).1.AwaitsPut 0 := ⟨_, _, _, rfl, rfl⟩
  have hawaits : (blank.after hastyMoves).1.Awaits 1 0 := .turn hstop rfl rfl nofun
  exact h hastyMoves _ _ hlive hcoop 1 .queue false 0 hstop (.single hawaits) hput

end Node

end Primacy.Election
