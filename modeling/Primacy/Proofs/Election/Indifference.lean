/-
  Primacy.Proofs.Election.Indifference

  What the registry answers makes no difference to an election.  A set of electors is compared with
  itself as it would be without a registry: a node is *settled* by taking everybody past the writes
  that he is at.  A run in which every write is answered at once leads, but for the writes, where
  the same incidents lead without a registry, and shows the same; and with any answers of the
  registry there is such a run.
-/
import Primacy.Proofs.Election.Exclusion
import Primacy.Proofs.Election.Shutdown

namespace Primacy.Election

/-- The event tells of a write that failed. -/
def Event.isOfRegistry : Event → Bool
  | notPublished _ => true
  | recordNotPublished => true
  | _ => false

/-! ## Writes -/

namespace PromotionPoint

/-- Where the promotion is when it has written the record, or failed to. -/
def afterPuts : PromotionPoint → PromotionPoint
  | putHost => openGate
  | putPort => openGate
  | p => p

/-- How many writes are left to do at most. -/
def putsLeft : PromotionPoint → Nat
  | putHost => 2
  | putPort => 1
  | _ => 0

theorem reply_of_isPut {p : PromotionPoint} (h : p.isPut = true) (e : Elector) (r : Reply) :
    ∃ q events, p.reply e r = .go e q events ∧ q.afterPuts = p.afterPuts ∧
      q.putsLeft < p.putsLeft ∧ ∀ ev ∈ events, ev.isOfRegistry = true := by
  cases p with
  | putHost =>
    cases r with
    | ok granted => exact ⟨putPort, [], rfl, rfl, Nat.lt_succ_self 1, nofun⟩
    | error err =>
      exact ⟨openGate, [.recordNotPublished], rfl, rfl, Nat.zero_lt_two,
        by simp [Event.isOfRegistry]⟩
  | putPort =>
    cases r with
    | ok granted => exact ⟨openGate, [], rfl, rfl, Nat.zero_lt_one, nofun⟩
    | error err =>
      exact ⟨openGate, [.recordNotPublished], rfl, rfl, Nat.zero_lt_one,
        by simp [Event.isOfRegistry]⟩
  | _ => exact nomatch h

end PromotionPoint

namespace Activity

/-- Where the activity is when its writes are done. -/
def afterPuts : Activity → Activity
  | start (.publish _ blocking) => start (.publish [] blocking)
  | start (.promote blocking p) => start (.promote blocking p.afterPuts)
  | waiter (.promote p) => waiter (.promote p.afterPuts)
  | a => a

def putsLeft : Activity → Nat
  | start (.publish writes _) => writes.length
  | start (.promote _ p) => p.putsLeft
  | waiter (.promote p) => p.putsLeft
  | _ => 0

variable {a : Activity} {e : Elector} {q : Request}

theorem afterPuts_of_not (h : a.isPut = false) : a.afterPuts = a := by
  cases a with
  | start p =>
    cases p with
    | publish writes blocking =>
      cases writes with
      | nil => rfl
      | cons w writes => exact nomatch h
    | promote blocking p => cases p <;> first | rfl | exact nomatch h
    | _ => rfl
  | waiter p =>
    cases p with
    | promote p => cases p <;> first | rfl | exact nomatch h
    | _ => rfl
  | _ => rfl

/-- The answer to a write leaves the elector alone, and no more is made known than that the write
failed. -/
theorem reply_of_isPut (h : a.isPut = true) (e : Elector) (r : Reply) :
    ∃ b events, a.reply e r = .go e b events ∧ b.afterPuts = a.afterPuts ∧
      b.putsLeft < a.putsLeft ∧ ∀ ev ∈ events, ev.isOfRegistry = true := by
  cases a with
  | start p =>
    cases p with
    | publish writes blocking =>
      cases writes with
      | nil => exact nomatch h
      | cons w writes =>
        cases r with
        | ok granted =>
          exact ⟨start (.publish writes blocking), [], rfl, rfl, Nat.lt_succ_self _, nofun⟩
        | error err =>
          exact ⟨start (.publish writes blocking), [.notPublished w.1], rfl, rfl,
            Nat.lt_succ_self _, by simp [Event.isOfRegistry]⟩
    | promote blocking p =>
      obtain ⟨q, events, hreply, hafter, hleft, hevents⟩ := p.reply_of_isPut h e r
      refine ⟨start (.promote blocking q), events, ?_, ?_, hleft, hevents⟩
      · dsimp only [reply, StartPoint.reply]
        rw [hreply]
        rfl
      · exact congrArg (fun q => start (.promote blocking q)) hafter
    | _ => exact nomatch h
  | waiter p =>
    cases p with
    | promote p =>
      obtain ⟨q, events, hreply, hafter, hleft, hevents⟩ := p.reply_of_isPut h e r
      refine ⟨waiter (.promote q), events, ?_, ?_, hleft, hevents⟩
      · dsimp only [reply, WaiterPoint.reply]
        rw [hreply]
        rfl
      · exact congrArg (fun q => waiter (.promote q)) hafter
    | _ => exact nomatch h
  | _ => exact nomatch h

end Activity

/-! ## Settled nodes -/

def Course.afterPuts : Course → Course
  | going a asked => if a.isPut then going a.afterPuts false else going a asked
  | c => c

namespace Node

variable {n n' : Node} {i : Incident} {id : CallId} {a : Activity} {asked : Bool}

/-- The node as it is when everybody is past the writes that he is at; what was asked is
forgotten. -/
def settle (n : Node) : Node where
  elector := n.elector
  course id := (n.course id).map Course.afterPuts
  requests := []
  grants := n.grants

/-- The activity under a name writes to the registry. -/
def writes (n : Node) (id : CallId) : Bool := (n.activity? id).elim false Activity.isPut

/-- Nobody writes to the registry. -/
def PutFree (n : Node) : Prop := ∀ id, n.writes id = false

/-- The incident is the request of a write, or the answer to it. -/
def isPutMove (n : Node) : Incident → Bool
  | .move (.ask id) => n.writes id
  | .move (.answer id _) => n.writes id
  | _ => false

/-- What an incident shows of an election. -/
inductive Sight where
  | status (s : State)
  | gate (g : Gate)
  | called (c : Lock.Call)
  | told (ev : Event)
  | ended (id : CallId) (r : Ending)

/-- The call of the lock service that an incident makes. -/
def call? (n : Node) : Incident → Option Lock.Call
  | .move (.ask id) => ((n.activity? id).bind (·.request? n.elector)).bind fun q =>
      (q.target n.elector.owner).getLeft?
  | _ => none

/-- The end that the activity of an incident came to. -/
def ending? (n : Node) (i : Incident) : Option Sight :=
  i.actor?.bind fun id => match n.course id with
    | some (.ended r) => some (.ended id r)
    | _ => none

/-- What an incident that leads from `n` to `n'` shows: a new status, a settled gate, a call of the
lock service, what is made known of anything but the registry, and the end of a call. -/
def sights (n : Node) (i : Incident) (n' : Node) : List Sight :=
  (if n'.elector.status = n.elector.status then [] else [.status n'.elector.status]) ++
  (if n'.elector.gate = n.elector.gate then [] else [.gate n'.elector.gate]) ++
  (n.call? i).toList.map .called ++
  ((n.news i).filter fun ev => !ev.isOfRegistry).map .told ++ (n'.ending? i).toList

theorem writes_of_going (here : n.course id = some (.going a asked)) : n.writes id = a.isPut := by
  rw [writes, activity?_of_going here]
  rfl

theorem ending?_of_going (hactor : i.actor? = some id)
    (here : n.course id = some (.going a asked)) : n.ending? i = none := by
  rw [ending?, hactor, Option.bind_some, here]

/-- Nothing is seen of an incident that leaves the elector as it is, calls nobody, tells of nothing
but the registry and ends no call. -/
theorem sights_eq_nil (helector : n'.elector = n.elector) (hcall : n.call? i = none)
    (hnews : ∀ ev ∈ n.news i, ev.isOfRegistry = true) (hending : n'.ending? i = none) :
    n.sights i n' = [] := by
  have htold : ((n.news i).filter fun ev => !ev.isOfRegistry) = [] := by
    refine List.filter_eq_nil_iff.mpr fun ev hev => ?_
    rw [hnews ev hev]
    exact nofun
  rw [sights, helector, if_pos rfl, if_pos rfl, hcall, htold, hending]
  rfl

theorem settle_setCourse (n : Node) (id : CallId) (c : Course) :
    (n.setCourse id c).settle = n.settle.setCourse id c.afterPuts := by
  have hcourse : (n.setCourse id c).settle.course = (n.settle.setCourse id c.afterPuts).course := by
    funext id'
    show (Function.update n.course id (some c) id').map Course.afterPuts =
      Function.update (fun id => (n.course id).map Course.afterPuts) id (some c.afterPuts) id'
    by_cases hid : id' = id
    · rw [hid, Function.update_self, Function.update_self]
      rfl
    · rw [Function.update_of_ne hid, Function.update_of_ne hid]
  exact congrArg (fun course => (⟨n.elector, course, [], n.grants⟩ : Node)) hcourse

theorem setCourse_eq_self {c : Course} (h : n.course id = some c) : n.setCourse id c = n := by
  have hcourse : Function.update n.course id (some c) = n.course := by
    rw [← h, Function.update_eq_self]
  rw [setCourse, hcourse]

/-- A node at which nobody writes is settled but for what was asked. -/
theorem PutFree.settle (hn : n.PutFree) : n.settle = { n with requests := [] } := by
  have hcourse : (fun id => (n.course id).map Course.afterPuts) = n.course := by
    funext id
    cases hc : n.course id with
    | none => rfl
    | some c =>
      cases c with
      | going a asked =>
        have ha : a.isPut = false := (writes_of_going hc).symm.trans (hn id)
        show some (Course.afterPuts (.going a asked)) = some (.going a asked)
        rw [Course.afterPuts, if_neg (Bool.not_eq_true _ ▸ ha)]
      | ended r => rfl
      | brokenOff => rfl
  exact congrArg (fun course => (⟨n.elector, course, [], n.grants⟩ : Node)) hcourse

/-- No answer to a write leaves a settled node otherwise, and nothing is seen of it. -/
theorem Undergoes.settle_of_put (h : n.Undergoes i n') (hi : n.isPutMove i = true) :
    n'.settle = n.settle ∧ n.sights i n' = [] := by
  -- an activity that writes is taken to the same point before and after
  have hsettled : ∀ {id : CallId} {a b : Activity} {asked asked' : Bool},
      n.course id = some (.going a asked) → a.isPut = true → b.afterPuts = a.afterPuts →
      (b.isPut = true ∨ asked' = false) →
      n.settle.setCourse id (Course.afterPuts (.going b asked')) = n.settle := by
    intro id a b asked asked' here ha hafter hb
    refine setCourse_eq_self ?_
    show (n.course id).map Course.afterPuts = _
    have hright : Course.afterPuts (.going b asked') = .going b.afterPuts false := by
      dsimp only [Course.afterPuts]
      split
      · rfl
      · next hnot =>
        rw [Activity.afterPuts_of_not (Bool.not_eq_true _ ▸ hnot), hb.resolve_left hnot]
    rw [here, hright, hafter]
    show some (Course.afterPuts (.going a asked)) = some (.going a.afterPuts false)
    exact congrArg some (if_pos ha)
  cases h with
  | move made =>
    cases made with
    | @ask id a q here request =>
      have ha : a.isPut = true := (writes_of_going here).symm.trans hi
      obtain ⟨key, value, hput⟩ := (a.isPut_iff n.elector).mp ha
      obtain rfl : q = .put key value := Option.some.inj (request.symm.trans hput)
      refine ⟨?_, ?_⟩
      · show (n.setCourse id (.going a true)).settle = n.settle
        rw [settle_setCourse]
        exact hsettled here ha rfl (.inl ha)
      · have hcall : n.call? (.move (.ask id)) = none := by
          dsimp only [call?]
          rw [activity?_of_going here, Option.bind_some, request]
          rfl
        have hthere : (n.setCourse id (.going a true)).course id = some (.going a true) :=
          Function.update_self ..
        exact sights_eq_nil rfl hcall nofun (ending?_of_going rfl hthere)
    | @answer id r a q here request =>
      have ha : a.isPut = true := (writes_of_going here).symm.trans hi
      obtain ⟨key, value, hput⟩ := (a.isPut_iff n.elector).mp ha
      obtain rfl : q = .put key value := Option.some.inj (request.symm.trans hput)
      obtain ⟨b, events, hreply, hafter, -, hevents⟩ := Activity.reply_of_isPut ha n.elector r
      have hcarry : n.carryOut id (a.reply n.elector r) = n.setCourse id (.going b false) := by
        rw [hreply]
        rfl
      rw [hcarry]
      refine ⟨?_, ?_⟩
      · show (n.setCourse id (.going b false)).settle = n.settle
        rw [settle_setCourse]
        exact hsettled here ha hafter (.inr rfl)
      · have hnews : ∀ ev ∈ n.news (.move (.answer id r)), ev.isOfRegistry = true := by
          dsimp only [news]
          rw [activity?_of_going here]
          show ∀ ev ∈ (a.reply n.elector r).events, ev.isOfRegistry = true
          rw [hreply]
          exact hevents
        have hthere : (n.setCourse id (.going b false)).course id = some (.going b false) :=
          Function.update_self ..
        exact sights_eq_nil rfl rfl hnews (ending?_of_going rfl hthere)
    | _ => exact nomatch hi
  | collapse here => exact nomatch hi

theorem spawn_forget (n : Node) (l : List Request) (before : Elector) (w : CallId) :
    ({ n with requests := l } : Node).spawn before w =
      { n.spawn before w with requests := l } := by
  rw [spawn, spawn]
  split <;> rfl

/-- What was asked before plays no part in what happens. -/
theorem Undergoes.forget (h : n.Undergoes i n') (l : List Request) :
    ∃ l', ({ n with requests := l } : Node).Undergoes i { n' with requests := l' } := by
  cases h with
  | move made =>
    cases made with
    | call new => exact ⟨l, .move (.call new)⟩
    | @step id w a asked here ready new =>
      refine ⟨l, ?_⟩
      rw [← spawn_forget]
      exact .move (.step here ready new)
    | @ask id a q here request => exact ⟨l ++ [q], .move (.ask here request)⟩
    | answer here request => exact ⟨l, .move (.answer here request)⟩
    | breakOff here may => exact ⟨l, .move (.breakOff here may)⟩
    | discard => exact ⟨l, .move .discard⟩
  | collapse here => exact ⟨l, .collapse here⟩

theorem undergo?_of_undergoes (h : n.Undergoes i n') : n.undergo? i = some n' := by
  cases h with
  | move made => exact move?_of_makes made
  | collapse here => rw [undergo?, here]

/-- Where nobody writes, a settled node undergoes the same, and the same is seen of it. -/
theorem PutFree.undergo?_settle (hn : n.PutFree) (h : n.undergo? i = some n') :
    ∃ m', n.settle.undergo? i = some m' ∧ m'.settle = n'.settle ∧
      n.settle.sights i m' = n.sights i n' := by
  obtain ⟨l, hl⟩ := (undergoes_of_undergo? h).forget []
  rw [hn.settle]
  exact ⟨_, undergo?_of_undergoes hl, rfl, rfl⟩

/-- What a settled node undergoes, the node itself does if nobody writes. -/
theorem PutFree.undergo?_of_settle {m' : Node} (hn : n.PutFree)
    (h : n.settle.undergo? i = some m') :
    ∃ n', n.undergo? i = some n' ∧ n'.settle = m'.settle ∧
      n.sights i n' = n.settle.sights i m' := by
  rw [hn.settle] at h ⊢
  obtain ⟨l, hl⟩ := (undergoes_of_undergo? h).forget n.requests
  exact ⟨_, undergo?_of_undergoes hl, rfl, rfl⟩

theorem PutFree.isPutMove (hn : n.PutFree) (i : Incident) : n.isPutMove i = false := by
  cases i with
  | move m => cases m <;> first | rfl | exact hn _
  | collapse id => rfl

/-- Nobody begins to write but whoever the incident is about, and he has not asked yet. -/
theorem Undergoes.writer (h : n.Undergoes i n') (hn : n.PutFree) (hid : n'.writes id = true) :
    i.actor? = some id ∧ ∃ a, n'.course id = some (.going a false) := by
  obtain ⟨a, asked, here, ha⟩ : ∃ a asked, n'.course id = some (.going a asked) ∧
      a.isPut = true := by
    cases hc : n'.course id with
    | none =>
      unfold writes activity? at hid
      rw [hc] at hid
      exact nomatch hid
    | some c =>
      cases c with
      | going a asked => exact ⟨a, asked, rfl, (writes_of_going hc).symm.trans hid⟩
      | ended r =>
        unfold writes activity? at hid
        rw [hc] at hid
        exact nomatch hid
      | brokenOff =>
        unfold writes activity? at hid
        rw [hc] at hid
        exact nomatch hid
  have hquiet : ∀ {id' b asked}, n.course id' = some (.going b asked) → b.isPut = false :=
    fun {id' _ _} hb => (writes_of_going hb).symm.trans (hn id')
  have hnot : ∀ {asked'}, n.course id ≠ some (.going a asked') :=
    fun hc => nomatch ha.symm.trans (hquiet hc)
  cases h with
  | move made =>
    cases made with
    | @call id' c new =>
      rcases course_setCourse here with ⟨-, hc⟩ | ⟨-, here⟩
      · cases hc
        cases c <;> exact nomatch ha
      · exact absurd here hnot
    | @step id' w b asked' here' ready new =>
      rcases course_spawn here with ⟨-, -, -, hc⟩ | hcarry
      · cases hc
        exact nomatch ha
      · rcases going_carryOut hcarry with ⟨rfl, -, rfl⟩ | ⟨-, here⟩
        · exact ⟨rfl, a, here⟩
        · exact absurd here hnot
    | @ask id' b q here' request =>
      rcases course_setCourse here with ⟨-, hc⟩ | ⟨-, here⟩
      · cases hc
        exact nomatch ha.symm.trans (hquiet here')
      · exact absurd here hnot
    | @answer id' r b q here' request =>
      rcases going_carryOut here with ⟨rfl, -, rfl⟩ | ⟨-, here⟩
      · exact ⟨rfl, a, here⟩
      · exact absurd here hnot
    | breakOff here' may =>
      rcases course_setCourse here with ⟨-, hc⟩ | ⟨-, here⟩
      · exact nomatch hc
      · exact absurd here hnot
    | discard => exact absurd here hnot
  | collapse here' =>
    rcases course_setCourse here with ⟨-, hc⟩ | ⟨-, here⟩
    · exact nomatch hc
    · exact absurd here hnot

end Node

/-! ## Several electors -/

/-- Electors with everything that goes on around them. -/
abbrev Electorate (ι : Type) := ι → Node

/-- What is recorded of a run. -/
structure Report (ι : Type) where
  /-- What happened, but for the requests of writes and the answers to them. -/
  schedule : List (ι × Node.Incident)
  sights : List (ι × Node.Sight)
  /-- How the registry answered. -/
  answers : List Reply

namespace Report

variable {ι : Type}

def empty : Report ι := ⟨[], [], []⟩

def append (c d : Report ι) : Report ι :=
  ⟨c.schedule ++ d.schedule, c.sights ++ d.sights, c.answers ++ d.answers⟩

instance : Append (Report ι) := ⟨append⟩

end Report

def Node.Incident.reply? : Node.Incident → Option Reply
  | .move (.answer _ r) => some r
  | _ => none

namespace Electorate

open Node

variable {ι : Type}

/-- The record of one incident, which leads one of the nodes from `n` to `n'`. -/
def report (i : ι) (n : Node) (inc : Incident) (n' : Node) : Report ι where
  schedule := if n.isPutMove inc then [] else [(i, inc)]
  sights := (n.sights inc n').map (i, ·)
  answers := if n.isPutMove inc then inc.reply?.toList else []

variable [DecidableEq ι]

/-- The electors after incidents, the first one first, and the record of them. -/
def watch? (x : Electorate ι) : List (ι × Incident) → Option (Electorate ι × Report ι)
  | [] => some (x, .empty)
  | (i, inc) :: is =>
    ((x i).undergo? inc).bind fun n =>
      (watch? (Function.update x i n) is).map fun y => (y.1, report i (x i) inc n ++ y.2)

/-- Every write is answered before anybody else does anything. -/
def Prompt (x : Electorate ι) : List (ι × Incident) → Prop
  | [] => True
  | (i, inc) :: is => ((x i).isPutMove inc = true ∨ ∀ j, (x j).PutFree) ∧
      ∀ n, (x i).undergo? inc = some n → Prompt (Function.update x i n) is

/-- Electors without a registry: whoever comes to a write is past it at once. -/
def bare? (x : Electorate ι) :
    List (ι × Incident) → Option (Electorate ι × List (ι × Sight))
  | [] => some (x, [])
  | (i, inc) :: is =>
    ((x i).undergo? inc).bind fun n =>
      (bare? (Function.update x i n.settle) is).map fun y =>
        (y.1, ((x i).sights inc n).map (i, ·) ++ y.2)

def settle (x : Electorate ι) : Electorate ι := fun i => (x i).settle

variable {x y : Electorate ι} {i : ι} {inc : Incident} {n : Node} {is : List (ι × Incident)}
  {c : Report ι}

theorem settle_update (x : Electorate ι) (i : ι) (n : Node) :
    settle (Function.update x i n) = Function.update x.settle i n.settle := by
  funext j
  by_cases hj : j = i
  · rw [settle, hj, Function.update_self, Function.update_self]
  · rw [settle, Function.update_of_ne hj, Function.update_of_ne hj]
    rfl

theorem of_watch?_cons (h : x.watch? ((i, inc) :: is) = some (y, c)) :
    ∃ n d, (x i).undergo? inc = some n ∧ watch? (Function.update x i n) is = some (y, d) ∧
      c = report i (x i) inc n ++ d := by
  obtain ⟨n, hinc, hrest⟩ := Option.bind_eq_some_iff.mp h
  obtain ⟨⟨z, d⟩, hwatch, heq⟩ := Option.map_eq_some_iff.mp hrest
  cases heq
  exact ⟨n, d, hinc, hwatch, rfl⟩

theorem watch?_cons {d : Report ι} (hinc : (x i).undergo? inc = some n)
    (h : watch? (Function.update x i n) is = some (y, d)) :
    x.watch? ((i, inc) :: is) = some (y, report i (x i) inc n ++ d) := by
  rw [watch?, hinc, Option.bind_some, h]
  rfl

/-- But for the writes, a run in which every write is answered at once leads where it would lead
without a registry, and shows the same. -/
theorem bare?_of_watch? (h : x.watch? is = some (y, c)) (hprompt : x.Prompt is) :
    x.settle.bare? c.schedule = some (y.settle, c.sights) := by
  induction is generalizing x c with
  | nil =>
    cases h
    rfl
  | cons first is ih =>
    obtain ⟨i, inc⟩ := first
    obtain ⟨n, d, hinc, hrest, rfl⟩ := of_watch?_cons h
    have hbare := ih hrest (hprompt.2 n hinc)
    rw [settle_update] at hbare
    by_cases hput : (x i).isPutMove inc = true
    · obtain ⟨hsettle, hsights⟩ := (undergoes_of_undergo? hinc).settle_of_put hput
      have hreport : report i (x i) inc n ++ d = ⟨d.schedule, d.sights,
          (report i (x i) inc n).answers ++ d.answers⟩ := by
        show Report.append (report i (x i) inc n) d = _
        rw [Report.append, report, if_pos hput, hsights]
        rfl
      have hsame : Function.update x.settle i n.settle = x.settle := by
        rw [hsettle]
        exact Function.update_eq_self i x.settle
      rw [hsame] at hbare
      rw [hreport]
      exact hbare
    · -- nobody writes, so the settled electors undergo the same
      have hfree := hprompt.1.resolve_left hput
      obtain ⟨m, hm, hsettle, hsights⟩ := (hfree i).undergo?_settle hinc
      have hschedule : (report i (x i) inc n ++ d).schedule = (i, inc) :: d.schedule := by
        show (if (x i).isPutMove inc then [] else [(i, inc)]) ++ d.schedule = _
        rw [if_neg hput]
        rfl
      rw [← hsettle] at hbare
      have hm' : (x.settle i).undergo? inc = some m := hm
      have hsights' : (x.settle i).sights inc m = (x i).sights inc n := hsights
      rw [hschedule, bare?, hm', Option.bind_some, hbare, hsights']
      rfl

/-! ## Any answers -/

/-- There is a run of this schedule that shows these sights, in which the registry answers the
writes as told, all of them at once. -/
def Plays (x : Electorate ι) (answer : Nat → Reply) (schedule : List (ι × Incident))
    (sights : List (ι × Sight)) : Prop :=
  ∃ is y c, x.watch? is = some (y, c) ∧ x.Prompt is ∧ c.schedule = schedule ∧ c.sights = sights ∧
    (∀ k r, c.answers[k]? = some r → r = answer k) ∧ ∀ i, (y i).PutFree

variable {answer : Nat → Reply} {s : List (ι × Incident)} {t : List (ι × Sight)}

/-- Answers that are as told stay so behind earlier ones. -/
theorem answers_append {l l' : List Reply} (h : ∀ k r, l[k]? = some r → r = answer k)
    (h' : ∀ k r, l'[k]? = some r → r = answer (k + l.length)) :
    ∀ k r, (l ++ l')[k]? = some r → r = answer k := by
  intro k r hk
  by_cases hlt : k < l.length
  · rw [List.getElem?_append_left hlt] at hk
    exact h k r hk
  · have hle : l.length ≤ k := Nat.le_of_not_lt hlt
    rw [List.getElem?_append_right hle] at hk
    have hr := h' (k - l.length) r hk
    rwa [Nat.sub_add_cancel hle] at hr

theorem Plays.put (hinc : (x i).undergo? inc = some n) (hput : (x i).isPutMove inc = true)
    (hreply : ∀ k r, inc.reply?.toList[k]? = some r → r = answer k)
    (h : Plays (Function.update x i n) (fun k => answer (k + inc.reply?.toList.length)) s t) :
    Plays x answer s t := by
  obtain ⟨is, y, d, hwatch, hprompt, hschedule, hsights, hanswers, hfree⟩ := h
  have hnone := ((undergoes_of_undergo? hinc).settle_of_put hput).2
  refine ⟨(i, inc) :: is, y, _, watch?_cons hinc hwatch, ⟨.inl hput, fun n' hn' => ?_⟩, ?_, ?_, ?_,
    hfree⟩
  · obtain rfl := Option.some.inj (hinc.symm.trans hn')
    exact hprompt
  · show (if (x i).isPutMove inc then [] else [(i, inc)]) ++ d.schedule = s
    rw [if_pos hput]
    exact hschedule
  · show ((x i).sights inc n).map (i, ·) ++ d.sights = t
    rw [hnone]
    exact hsights
  · have hhere : (report i (x i) inc n ++ d).answers = inc.reply?.toList ++ d.answers := by
      show (if (x i).isPutMove inc then inc.reply?.toList else []) ++ d.answers = _
      rw [if_pos hput]
    rw [hhere]
    exact answers_append hreply hanswers

theorem Plays.cons (hx : ∀ j, (x j).PutFree) (hinc : (x i).undergo? inc = some n)
    (h : Plays (Function.update x i n) answer s t) :
    Plays x answer ((i, inc) :: s) (((x i).sights inc n).map (i, ·) ++ t) := by
  obtain ⟨is, y, d, hwatch, hprompt, rfl, rfl, hanswers, hfree⟩ := h
  have hput : ¬ (x i).isPutMove inc = true := by
    rw [(hx i).isPutMove]
    exact nofun
  refine ⟨(i, inc) :: is, y, _, watch?_cons hinc hwatch, ⟨.inr hx, fun n' hn' => ?_⟩, ?_, rfl, ?_,
    hfree⟩
  · obtain rfl := Option.some.inj (hinc.symm.trans hn')
    exact hprompt
  · show (if (x i).isPutMove inc then [] else [(i, inc)]) ++ d.schedule = _
    rw [if_neg hput]
    rfl
  · have hhere : (report i (x i) inc n ++ d).answers = d.answers := by
      show (if (x i).isPutMove inc then inc.reply?.toList else []) ++ d.answers = _
      rw [if_neg hput]
      rfl
    rw [hhere]
    exact hanswers

/-- The writes of one activity are answered as told, one after the other, before it goes on. -/
theorem Plays.of_writes {id : CallId} {a : Activity}
    (here : (x i).course id = some (.going a false))
    (hsole : ∀ j id', (x j).writes id' = true → j = i ∧ id' = id)
    (hrest : ∀ z : Electorate ι, (∀ j, (z j).PutFree) → z.settle = x.settle →
      ∀ answer, Plays z answer s t) :
    Plays x answer s t := by
  -- on the writes that are left to do
  induction hk : a.putsLeft using Nat.strongRecOn generalizing x a answer with
  | ind k ih =>
    by_cases ha : a.isPut = true
    · -- it asks and is answered, which settles nothing, and has one write less to do
      obtain ⟨key, value, request⟩ := (a.isPut_iff (x i).elector).mp ha
      obtain ⟨b, events, hreply, -, hleft, -⟩ := Activity.reply_of_isPut ha (x i).elector (answer 0)
      have hask := Makes.ask here request
      generalize hn₁ : ({ (x i).setCourse id (.going a true) with
        requests := (x i).requests ++ [.put key value] } : Node) = n₁ at hask
      have hcourse₁ : n₁.course = Function.update (x i).course id (some (.going a true)) := by
        rw [← hn₁]
        rfl
      have helector₁ : n₁.elector = (x i).elector := by
        rw [← hn₁]
        rfl
      have here₁ : n₁.course id = some (.going a true) := by
        rw [hcourse₁, Function.update_self]
      have hanswer : n₁.Makes (.answer id (answer 0)) _ :=
        .answer here₁ (helector₁ ▸ request)
      generalize hn₂ : ({ n₁.carryOut id (a.reply n₁.elector (answer 0)) with
        grants := n₁.grants +
          if (Request.put key value).isGranted (answer 0) then 1 else 0 } : Node) = n₂ at hanswer
      have hcourse₂ : n₂.course = Function.update n₁.course id (some (.going b false)) := by
        rw [← hn₂, helector₁, hreply]
        rfl
      have hput : (x i).isPutMove (.move (.ask id)) = true := (writes_of_going here).trans ha
      have hput₁ : n₁.isPutMove (.move (.answer id (answer 0))) = true :=
        (writes_of_going here₁).trans ha
      have hsettle : settle (Function.update x i n₂) = x.settle := by
        have h₁ := (Undergoes.settle_of_put (.move hask) hput).1
        have h₂ := (Undergoes.settle_of_put (.move hanswer) hput₁).1
        rw [settle_update, h₂, h₁]
        exact Function.update_eq_self i x.settle
      have hafter : Plays (Function.update x i n₂) (fun k => answer (k + 1)) s t := by
        refine ih b.putsLeft (hk ▸ hleft) (x := Function.update x i n₂) (a := b) ?_ ?_ ?_ rfl
        · rw [Function.update_self, hcourse₂, Function.update_self]
        · intro j id' hw
          by_cases hj : j = i
          · rw [hj, Function.update_self] at hw
            refine ⟨hj, ?_⟩
            by_contra hid
            unfold writes activity? at hw
            rw [hcourse₂, Function.update_of_ne hid, hcourse₁, Function.update_of_ne hid] at hw
            exact hid (hsole i id' hw).2
          · rw [Function.update_of_ne hj] at hw
            exact hsole j id' hw
        · rw [hsettle]
          exact hrest
      refine Plays.put (undergo?_of_undergoes (.move hask)) hput nofun ?_
      have hundergo : ((Function.update x i n₁) i).undergo? (.move (.answer id (answer 0))) =
          some n₂ := by
        rw [Function.update_self]
        exact undergo?_of_undergoes (.move hanswer)
      refine Plays.put hundergo ?_ ?_ ?_
      · rw [Function.update_self]
        exact hput₁
      · intro k r hr
        cases k with
        | zero => exact (Option.some.inj hr).symm
        | succ k => exact nomatch hr
      · rw [Function.update_idem]
        exact hafter
    · -- it writes no more, and nobody else did
      refine hrest x (fun j id' => Bool.eq_false_iff.mpr fun hw => ?_) rfl answer
      obtain ⟨rfl, rfl⟩ := hsole j id' hw
      exact ha ((writes_of_going here).symm.trans hw)

/-- Whatever the registry answers, there is a run that shows what would be seen without it. -/
theorem plays_of_bare? {w : Electorate ι} (h : x.settle.bare? s = some (w, t))
    (hx : ∀ j, (x j).PutFree) (answer : Nat → Reply) : Plays x answer s t := by
  induction s generalizing x t answer with
  | nil =>
    cases h
    exact ⟨[], x, .empty, rfl, trivial, rfl, rfl, nofun, hx⟩
  | cons first s ih =>
    obtain ⟨i, inc⟩ := first
    obtain ⟨m, hm, hrest⟩ := Option.bind_eq_some_iff.mp h
    obtain ⟨⟨w', t'⟩, hbare, heq⟩ := Option.map_eq_some_iff.mp hrest
    cases heq
    obtain ⟨n, hn, hsettle, hsights⟩ := (hx i).undergo?_of_settle hm
    have hnext : settle (Function.update x i n) = Function.update x.settle i m.settle := by
      rw [settle_update, hsettle]
    rw [← hnext] at hbare
    rw [show (x.settle i).sights inc m = (x i).sights inc n from hsights.symm]
    refine Plays.cons hx hn ?_
    by_cases hfree : ∀ j, (Function.update x i n j).PutFree
    · exact ih hbare hfree answer
    · -- whoever the incident is about has come to a write
      obtain ⟨j, hj⟩ := not_forall.mp hfree
      obtain ⟨id, hid⟩ := not_forall.mp hj
      have hwrites : ∀ {j id}, (Function.update x i n j).writes id = true →
          j = i ∧ n.writes id = true := by
        intro j id hw
        by_cases hj : j = i
        · rw [hj, Function.update_self] at hw
          exact ⟨hj, hw⟩
        · rw [Function.update_of_ne hj] at hw
          exact nomatch hw.symm.trans (hx j id)
      obtain ⟨rfl, hw⟩ := hwrites (Bool.not_eq_false _ ▸ hid)
      obtain ⟨hactor, a, here⟩ := (undergoes_of_undergo? hn).writer (hx j) hw
      have here' : (Function.update x j n j).course id = some (.going a false) := by
        rw [Function.update_self]
        exact here
      refine Plays.of_writes here' ?_ ?_
      · intro j' id' hw'
        obtain ⟨hj', hn'⟩ := hwrites hw'
        have hactor' := ((undergoes_of_undergo? hn).writer (hx j) hn').1
        exact ⟨hj', Option.some.inj (hactor'.symm.trans hactor)⟩
      · intro z hz hsame answer
        exact ih (hsame ▸ hbare) hz answer

/-- For any electors, and for a run of theirs in which every write is answered at once: any other
such run of the same schedule (the same calls, the same interleaving and the same answers of the
lock service) shows the same sights, and leaves every elector as it is left here.  And however the
registry is to answer, there is such a run. -/
theorem registry_indifferent {electors : ι → Elector}
    (first : watch? (fun i => .fresh (electors i)) is = some (y, c))
    (prompt : Prompt (fun i => .fresh (electors i)) is) :
    (∀ js z d, watch? (fun i => .fresh (electors i)) js = some (z, d) →
      Prompt (fun i => .fresh (electors i)) js → d.schedule = c.schedule →
      d.sights = c.sights ∧ ∀ i, (z i).elector = (y i).elector) ∧
    ∀ answer, Plays (fun i => .fresh (electors i)) answer c.schedule c.sights := by
  have hbare := bare?_of_watch? first prompt
  refine ⟨fun js z d second hprompt hschedule => ?_, fun answer => ?_⟩
  · have hbare' := bare?_of_watch? second hprompt
    rw [hschedule, hbare] at hbare'
    obtain ⟨hsettle, hsights⟩ := Prod.mk.inj (Option.some.inj hbare')
    exact ⟨hsights.symm, fun i => (congrArg Node.elector (congrFun hsettle i)).symm⟩
  · exact plays_of_bare? hbare (fun _ _ => rfl) answer

/-! ## Runs that are checked -/

/-- Decides whether every write is answered before anybody else does anything, if these are all the
electors and all names are below a bound. -/
def isPrompt (members : List ι) (bound : Nat) (x : Electorate ι) : List (ι × Incident) → Bool
  | [] => true
  | (i, inc) :: is =>
    ((x i).isPutMove inc ||
      members.all fun j => (List.range bound).all fun id => !(x j).writes id) &&
    inc.newcomer?.all (· < bound) &&
    ((x i).undergo? inc).elim true fun n => isPrompt members bound (Function.update x i n) is

theorem prompt_of_isPrompt (members : List ι) (bound : Nat) (hmembers : ∀ i, i ∈ members)
    (hx : ∀ i id, bound ≤ id → (x i).course id = none) (h : isPrompt members bound x is = true) :
    x.Prompt is := by
  induction is generalizing x with
  | nil => trivial
  | cons first is ih =>
    obtain ⟨i, inc⟩ := first
    rw [isPrompt, Bool.and_eq_true, Bool.and_eq_true, Bool.or_eq_true] at h
    obtain ⟨⟨hput, hname⟩, hlater⟩ := h
    refine ⟨hput.imp_right fun hnone j id => ?_, fun n hn => ih (fun j id hid => ?_) ?_⟩
    · by_cases hid : id < bound
      · have hj := List.all_eq_true.mp hnone j (hmembers j)
        have hw := List.all_eq_true.mp hj id (List.mem_range.mpr hid)
        exact (Bool.not_eq_true' _).mp hw
      · rw [writes, activity?, hx j id (Nat.le_of_not_lt hid)]
        rfl
    · by_cases hj : j = i
      · rw [hj, Function.update_self]
        refine (undergoes_of_undergo? hn).course_eq_none (fun hnew => ?_) (hx i id hid)
        rw [hnew, Option.all_some, decide_eq_true_eq] at hname
        exact Nat.not_lt.mpr hid hname
      · rw [Function.update_of_ne hj]
        exact hx j id hid
    · rw [hn] at hlater
      exact hlater

/-- One elector is granted the lock when it starts, and another one stands by; the registry takes
every entry. -/
def duel : List (Bool × Incident) :=
  let starts : List Move :=
    [.call 0 (.start "memory" false), .step 0 3, .step 0 3, .ask 0, .answer 0 (.ok true), .ask 0,
     .answer 0 (.ok true), .ask 0, .answer 0 (.ok true), .step 0 3, .ask 0]
  let runs : List Move :=
    [.answer 0 (.ok true), .step 0 3, .step 0 3, .ask 0, .answer 0 (.ok true), .ask 0,
     .answer 0 (.ok true), .step 0 3, .step 0 3, .step 0 3, .step 0 3]
  let standsBy : List Move :=
    [.answer 0 (.ok false), .step 0 3, .step 0 2, .step 0 3, .step 0 3]
  (starts ++ runs).map (true, .move ·) ++ (starts ++ standsBy).map (false, .move ·)

/-- Two electors after incidents, and the record of these, if all of them can happen. -/
def watched (is : List (Bool × Incident)) : Electorate Bool × Report Bool :=
  (watch? (fun b => .fresh (Group.pair b)) is).getD (fun b => .fresh (Group.pair b), .empty)

/-- With a registry that is down the duel looks the same, and ends as it does otherwise. -/
theorem duel_indifferent :
    (watched duel).2.answers.length = 6 ∧
    ((watched duel).1 true).elector.status = .running ∧
    ((watched duel).1 false).elector.status = .standby ∧
    ∃ js z d, watch? (fun b => .fresh (Group.pair b)) js = some (z, d) ∧
      (∀ (k : Nat) (r : Reply), d.answers[k]? = some r → r = .error (.registry (.failed "down"))) ∧
      d.schedule = (watched duel).2.schedule ∧ d.sights = (watched duel).2.sights ∧
      ∀ b, (z b).elector = ((watched duel).1 b).elector := by
  have hsome : (watch? (fun b => .fresh (Group.pair b)) duel).isSome = true := by decide +kernel
  have hduel : watch? (fun b => .fresh (Group.pair b)) duel = some (watched duel) := by
    obtain ⟨x, hx⟩ := Option.isSome_iff_exists.mp hsome
    rw [watched, hx, Option.getD_some]
  have hprompt : Prompt (fun b => .fresh (Group.pair b)) duel :=
    prompt_of_isPrompt [true, false] 4 (by decide) (fun _ _ _ => rfl) (by decide +kernel)
  obtain ⟨hsame, hplays⟩ := registry_indifferent hduel hprompt
  obtain ⟨js, z, d, hwatch, hprompt', hschedule, hsights, hanswers, -⟩ :=
    hplays fun _ => .error (.registry (.failed "down"))
  refine ⟨by decide +kernel, by decide +kernel, by decide +kernel, js, z, d, hwatch, hanswers,
    hschedule, hsights, ?_⟩
  exact (hsame js z d hwatch hprompt' hschedule).2

end Electorate

end Primacy.Election
