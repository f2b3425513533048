/-
  Primacy.Proofs.Election.Supersession

  What a start that returns tells about its promotion.  A start that returns as primary has opened
  the gate, logged its marker and called back, with one exception: if a stop was requested before
  the promotion looked, the promotion ends there, and what is returned depends on the route.  A
  start that blocks returns stopped.  One that does not block reads the status, which the stop that
  waits for the turnstile has yet to change, and returns as primary behind a gate that never opens.
-/
import Primacy.Proofs.Election.Candidacy

namespace Primacy.Election

namespace Node

variable {n n' : Node} {i : Incident} {is : List Incident} {id id' : CallId} {a : Activity}
  {asked : Bool} {c : Chronicle} {p : StartPoint} {ident : Identity} {owner : String} {port : Nat}
  {dir : Option String}

/-! ## Promotions that are superseded -/

/-- The promotion of a start ends because of a stop. -/
def Supersedes (id : CallId) (blocking : Bool) (n : Node) (i : Incident) : Prop :=
  ∃ w x asked, i = .move (.step id w) ∧
    n.course id = some (.going (.start (.promote blocking x)) asked) ∧
    (x.step .immediate n.elector).next = .inr .superseded

/-- A start that blocks returns stopped then and there. -/
theorem Undergoes.ended_of_supersedes (h : n.Undergoes i n') (hi : Supersedes id true n i) :
    n'.course id = some (.ended (.started (.ok .stopped))) := by
  obtain ⟨w, x, asked, rfl, here, hx⟩ := hi
  rw [(h.course_elector_of_step here).1]
  simp only [Activity.step, StartPoint.step, Turn.within, hx, StartPoint.afterPromotion]
  rfl

theorem ended_of_meets (reached : n.live? is = some (n', c))
    (hmeets : n.Meets (Supersedes id true) is) :
    n'.course id = some (.ended (.started (.ok .stopped))) := by
  induction is using List.reverseRecOn generalizing n' c with
  | nil => exact hmeets.elim
  | append_singleton is i ih =>
    obtain ⟨n₁, c₁, hlive, hi, -⟩ := of_live?_concat reached
    have hu := undergoes_of_undergo? hi
    rcases (meets_concat hlive).mp hmeets with hbefore | hnow
    · obtain ⟨y, hy, hfate⟩ := hu.fate (ih hlive hbefore)
      cases hfate with
      | aside => exact hy
    · exact hu.ended_of_supersedes hnow

/-- A start that does not block was superseded: nothing is announced any more, and the start
returns as primary. -/
structure Overtaken (n : Node) (id : CallId) : Prop where
  quiet : n.Quiet
  ran : n.elector.status = .running ∨ n.elector.status = .stopped
  course : n.course id = some (.going (.start (.readStatus false)) false) ∨
    n.course id = some (.going (.start (.leave (.ok .running))) false) ∨
    n.course id = some (.ended (.started (.ok .running)))

/-- A stop that supersedes a start which does not block was requested before the promotion looked
for it: it cannot close the gate while the start is past the turnstile. -/
theorem overtaken_of_supersedes
    (reached : (fresh (.fresh ident owner port dir)).live? is = some (n, c))
    (h : n.Undergoes i n') (hi : Supersedes id false n i) : n'.Overtaken id := by
  obtain ⟨w, x, asked, rfl, here, hx⟩ := hi
  have hn := coherent_of_live? reached
  have hends := PromotionPoint.ends_of_step hx
  have hstage : (Activity.start (.promote false x)).stage = .promoting := by
    cases hends <;> rfl
  have hrunning : n.elector.status = .running :=
    ((hn.fits id _ asked here).promoting hstage).resolve_right (alive_of_isSteady reached here rfl)
  have hshut : n.elector.gate ≠ .released := by
    intro hgate
    have hcall := deed?_of_promoting reached hgate here hstage
    cases hends <;> cases hcall
  have hpending : n.elector.gate = .pending := by
    have hopen : n.elector.gate ≠ .closed := hn.consistent.running hrunning
    cases hg : n.elector.gate with
    | pending => rfl
    | released => exact absurd hg hshut
    | closed => exact absurd hg hopen
  cases hends with
  | settled hgate => exact absurd hpending hgate
  | requested hshutdown =>
    have hface := h.face
    rw [deed?_of_step here] at hface
    have hgate : n'.elector.gate ≠ .released := by
      rw [show n'.elector.gate = n.elector.gate from congrArg Face.gate hface]
      exact hshut
    have hcourse : n'.course id = some (.going (.start (.readStatus false)) false) := by
      rw [(h.course_elector_of_step here).1]
      simp only [Activity.step, StartPoint.step, Turn.within, hx, StartPoint.afterPromotion]
      rfl
    refine ⟨⟨h.shutdown hshutdown, hgate, fun id' a asked' here' => ⟨?_, fun hcall => ?_⟩⟩,
      h.precedes.running_or_stopped (.inl hrunning), .inl hcourse⟩
    · -- nobody else promotes
      refine Bool.eq_false_iff.mpr fun hcommitted => ?_
      obtain ⟨route, y, ha, hy⟩ := Activity.exists_of_isCommitted hcommitted
      have hpromoting : n'.ledger.stage id' = .promoting := by
        rw [stage_of_going here', Activity.stage_of_promotion ha, y.stage_of_isCommitted hy]
      rcases h.promoting_before hpromoting with hbefore | ⟨-, hcan⟩
      · obtain rfl := eq_of_promoting reached hbefore ((stage_of_going here).trans hstage)
        obtain ⟨rfl, -⟩ := Course.going.inj (Option.some.inj (here'.symm.trans hcourse))
        cases ha
      · rw [hrunning] at hcan
        cases hcan
    · exact hgate (((hn.undergoes h).fits id' a asked' here').calling hcall)

theorem Overtaken.undergoes (hn : n.Overtaken id)
    (reached : (fresh (.fresh ident owner port dir)).live? is = some (n, c))
    (h : n.Undergoes i n') : n'.Overtaken id := by
  refine ⟨hn.quiet.undergoes h, h.precedes.running_or_stopped hn.ran, ?_⟩
  rcases hn.course with here | here | ended
  · rcases h.stays here rfl rfl with here' | ⟨w, rfl⟩
    · exact .inl here'
    · -- the stop that waits for the turnstile has yet to change the status
      have hrunning := hn.ran.resolve_right (alive_of_isSteady reached here rfl)
      have hcourse := (h.course_elector_of_step here).1
      refine .inr (.inl (hcourse.trans ?_))
      show some (Course.going (.start (.leave (.ok n.elector.status))) false) = _
      rw [hrunning]
  · rcases h.stays here rfl rfl with here' | ⟨w, rfl⟩
    · exact .inr (.inl here')
    · exact .inr (.inr (h.course_elector_of_step here).1)
  · obtain ⟨y, hy, hfate⟩ := h.fate ended
    cases hfate with
    | aside => exact .inr (.inr hy)

theorem overtaken_of_meets
    (reached : (fresh (.fresh ident owner port dir)).live? is = some (n, c))
    (hmeets : (fresh (.fresh ident owner port dir)).Meets (Supersedes id false) is) :
    n.Overtaken id := by
  induction is using List.reverseRecOn generalizing n c with
  | nil => exact hmeets.elim
  | append_singleton is i ih =>
    obtain ⟨n₁, c₁, hlive, hi, -⟩ := of_live?_concat reached
    have hu := undergoes_of_undergo? hi
    rcases (meets_concat hlive).mp hmeets with hbefore | hnow
    · exact (ih hlive hbefore).undergoes hlive hu
    · exact overtaken_of_supersedes hlive hu hnow

/-! ## Starts that return as primary -/

/-- A start that opens a gate which is pending logs the marker. -/
theorem Undergoes.opens_of_openGate {w : CallId} {blocking : Bool}
    (h : n.Undergoes (.move (.step id w)) n')
    (here : n.course id = some (.going (.start (.promote blocking .openGate)) asked))
    (hgate : n.elector.gate = .pending) :
    n'.elector.gate = .released ∧ .acquired ∈ (n.chronicle (.move (.step id w))).announced := by
  have hface := h.face
  rw [deed?_of_step here] at hface
  have hannounced := h.announced
  rw [deed?_of_step here] at hannounced
  have hrelease : n.elector.face.gate.release = (true, .released) := by
    rw [show n.elector.face.gate = .pending from hgate]
    rfl
  constructor
  · exact (congrArg Face.gate hface).trans (congrArg Prod.snd hrelease)
  · rw [hannounced]
    show .acquired ∈ if n.elector.face.gate.release.1 then [Route.immediate.marker] else []
    rw [hrelease]
    exact List.mem_singleton.mpr rfl

/-- A start that is on its way to return as primary has opened the gate and logged the marker, or
was superseded. -/
theorem released_of_isVouched
    (reached : (fresh (.fresh ident owner port dir)).live? is = some (n, c))
    (here : n.course id = some (.going (.start p) asked)) (hp : p.isVouched = true) :
    (n.elector.gate = .released ∧ .acquired ∈ c.announced) ∨
      (fresh (.fresh ident owner port dir)).Meets (Supersedes id false) is := by
  induction is using List.reverseRecOn generalizing n c p asked with
  | nil =>
    obtain ⟨rfl, -⟩ := of_live?_nil reached
    exact nomatch here
  | append_singleton is i ih =>
    obtain ⟨n₁, c₁, hlive, hi, rfl⟩ := of_live?_concat reached
    have hu := undergoes_of_undergo? hi
    rw [meets_concat hlive, Chronicle.announced_append]
    -- what vouched for a start before the incident vouches for it after
    have hkeep : ∀ {p₁ : StartPoint} {asked₁ : Bool},
        n₁.course id = some (.going (.start p₁) asked₁) → p₁.isVouched = true →
        (n.elector.gate = .released ∧ .acquired ∈ c₁.announced ++ (n₁.chronicle i).announced) ∨
        (fresh (.fresh ident owner port dir)).Meets (Supersedes id false) is ∨
          Supersedes id false n₁ i := by
      intro p₁ asked₁ hbefore hp₁
      rcases ih hlive hbefore hp₁ with ⟨hgate, hmarker⟩ | hmeets
      · exact .inl ⟨hu.precedes.released hgate, List.mem_append_left _ hmarker⟩
      · exact .inr (.inl hmeets)
    cases hu.start_origin here with
    | same before => exact hkeep before hp
    | call => exact nomatch hp
    | @step _ _ asked₁ w now before leads =>
      rcases StartPoint.isVouched_of_step leads hp with hp₁ | ⟨blocking, rfl, hgate⟩ | ⟨x, rfl, hx⟩
      · exact hkeep before hp₁
      · subst now
        obtain ⟨hreleased, hmarker⟩ := hu.opens_of_openGate before hgate
        exact .inl ⟨hreleased, List.mem_append_right _ hmarker⟩
      · exact .inr (.inr ⟨w, x, asked₁, now, before, hx⟩)
    | reply before request resumes =>
      -- the lock of a start that keeps the turnstile is never refused
      obtain rfl := StartPoint.isVouched_of_reply request resumes hp
      exact absurd (stopped_of_isRefused hlive before rfl) (alive_of_isSteady hlive before rfl)

theorem released_of_running
    (reached : (fresh (.fresh ident owner port dir)).live? is = some (n, c))
    (h : n.Undergoes i n') (here : n.course id = some (.going a asked))
    (ended : n'.course id = some (.ended (.started (.ok .running)))) :
    (n.elector.gate = .released ∧ .acquired ∈ c.announced) ∨
      (fresh (.fresh ident owner port dir)).Meets (Supersedes id false) is := by
  rcases h.ends here ended with ⟨w, -, ready, hnext⟩ | ⟨r, q, -, request, hnext⟩
  · obtain ⟨p, rfl, hp⟩ := Activity.eq_start_of_ended ready hnext
    rcases StartPoint.running_of_step hp with rfl | rfl | ⟨rfl, hrunning⟩
    · exact released_of_isVouched reached here rfl
    · exact released_of_isVouched reached here rfl
    · exact nomatch hrunning.symm.trans (stopped_of_isRefused reached here rfl)
  · obtain ⟨p, -, hp⟩ := Activity.eq_start_of_reply_ended request hnext
    exact hp.ne_running.elim

/-- A start that was overtaken returns before any stop can close the gate. -/
theorem Overtaken.pending_of_ended (hn : n.Overtaken id) (hn' : n'.Overtaken id)
    (reached : (fresh (.fresh ident owner port dir)).live? is = some (n, c))
    (hi : n.undergo? i = some n') (here : n.course id = some (.going a asked)) :
    n'.elector.gate = .pending := by
  have hu := undergoes_of_undergo? hi
  have halive : n'.elector.status ≠ .stopped := by
    rcases hn.course with before | before | before
    · exact hu.alive_of_inside (custody_of_live? reached) before rfl
        (alive_of_isSteady reached before rfl)
    · exact hu.alive_of_inside (custody_of_live? reached) before rfl
        (alive_of_isSteady reached before rfl)
    · exact nomatch here.symm.trans before
  cases hg : n'.elector.gate with
  | pending => rfl
  | released => exact absurd hg hn'.quiet.gate
  | closed =>
    exact absurd ((coherent_of_live? (live?_concat reached hi)).stopped_of_closed hg) halive

/-- If nobody is suspended between two steps, a start returns with the slot behind an open gate
empty. -/
theorem callback_of_ended
    (reached : (fresh (.fresh ident owner port dir)).live? is = some (n, c))
    (hi : n.undergo? i = some n') (here : n.course id = some (.going a asked)) {r : Ending}
    (ended : n'.course id = some (.ended r))
    (hcoop : (fresh (.fresh ident owner port dir)).Cooperative (is ++ [i]))
    (hgate : n'.elector.gate = .released) : n'.elector.callback = none := by
  by_contra hslot
  have hu := undergoes_of_undergo? hi
  obtain ⟨id', b, there, hattends⟩ := attended_of_live? (live?_concat reached hi) hgate hslot
  have hother : id' ≠ id := by
    rintro rfl
    exact nomatch there.symm.trans ended
  have hactor : i.actor? = some id := by
    rcases hu.ends here ended with ⟨w, rfl, -⟩ | ⟨x, q, rfl, -⟩ <;> rfl
  have hrest := (hcoop.of_concat reached).2
  generalize hasked : false = asked' at there
  cases hu.origin there with
  | aside other before =>
    subst hasked
    have hbusy := (Activity.busy_of_attends (e := n.elector) hattends).1
    exact nomatch hbusy.symm.trans ((mayRest_of_going before).symm.trans (hrest id' other))
  | @call entry => cases entry <;> exact nomatch hattends
  | spawn => exact nomatch hattends
  | step => exact hother (Option.some.inj hactor)
  | ask => exact nomatch hasked
  | answer => exact hother (Option.some.inj hactor)

/-- Against any lock service and any registry, and however calls interleave: a start that returns as
primary has opened the gate and logged the marker, and if nobody is suspended between two steps,
every callback registered so far was called or discarded when it returns.  There is one exception: a
start that does not block and that a stop superseded returns as primary too, behind a gate that is
still pending and never opens.  A start that blocks and was superseded returns stopped. -/
theorem start_outcome {r : StartResult}
    (reached : (fresh (.fresh ident owner port dir)).live? is = some (n, c))
    (hi : n.undergo? i = some n') (here : n.course id = some (.going a asked))
    (ended : n'.course id = some (.ended (.started r))) :
    (r = .ok .running →
      ¬ (fresh (.fresh ident owner port dir)).Meets (Supersedes id false) (is ++ [i]) →
      n'.elector.gate = .released ∧ .acquired ∈ (c ++ n.chronicle i).events ∧
      ((fresh (.fresh ident owner port dir)).Cooperative (is ++ [i]) →
        n'.elector.callback = none ∧
        ((c ++ n.chronicle i).fired ++ (c ++ n.chronicle i).discarded).Perm
          (c ++ n.chronicle i).registered)) ∧
    ((fresh (.fresh ident owner port dir)).Meets (Supersedes id true) (is ++ [i]) →
      r = .ok .stopped) ∧
    ((fresh (.fresh ident owner port dir)).Meets (Supersedes id false) (is ++ [i]) →
      r = .ok .running ∧ n'.elector.gate = .pending ∧
      ∀ js n'' c', n'.live? js = some (n'', c') → n''.elector.gate ≠ .released ∧
        c'.announced = []) := by
  have hu := undergoes_of_undergo? hi
  have hlive := live?_concat reached hi
  refine ⟨fun hr hmeets => ?_, fun hmeets => ?_, fun hmeets => ?_⟩
  · subst hr
    rw [meets_concat reached, not_or] at hmeets
    obtain ⟨hgate, hmarker⟩ := (released_of_running reached hu here ended).resolve_right hmeets.1
    have hgate' := hu.precedes.released hgate
    refine ⟨hgate', List.mem_append_left _ (List.mem_filter.mp hmarker).1, fun hcoop => ?_⟩
    have hslot := callback_of_ended reached hi here ended hcoop hgate'
    have haccount := live?_account hlive
    rw [hslot] at haccount
    refine ⟨hslot, ?_⟩
    have hempty : (fresh (.fresh ident owner port dir)).elector.callback = none := rfl
    rwa [hempty, Option.toList_none, List.append_nil, List.append_nil] at haccount
  · have hended := ended_of_meets hlive hmeets
    cases ended.symm.trans hended
    rfl
  · have hn' := overtaken_of_meets hlive hmeets
    have hr : r = .ok .running := by
      rcases hn'.course with hcourse | hcourse | hcourse
      · cases ended.symm.trans hcourse
      · cases ended.symm.trans hcourse
      · cases ended.symm.trans hcourse
        rfl
    refine ⟨hr, ?_, fun js n'' c' h => hn'.quiet.live h⟩
    rcases (meets_concat reached).mp hmeets with hbefore | ⟨w, x, asked₁, rfl, there, hx⟩
    · exact (overtaken_of_meets reached hbefore).pending_of_ended hn' reached hi here
    · -- the step at which a start is superseded is not its last
      have hcourse := (hu.course_elector_of_step there).1
      simp only [Activity.step, StartPoint.step, Turn.within, hx, StartPoint.afterPromotion]
        at hcourse
      cases ended.symm.trans hcourse

/-- A start wins the lock and is about to return as primary. -/
def primaryMoves : List Incident := secondLife.take 21

/-- A start that blocks has written the record, and a stop has closed the gate meanwhile. -/
def lateStart : List Incident := blockingMoves ++ blockingEnd.dropLast

/-- A callback is registered, and a stop is called while a start writes its endpoints.  The stop
queues up, and the start wins the lock, runs, and is about to look for a request. -/
def overtakenStart : List Incident :=
  List.map .move
    [.call 2 (.notify "callback"), .step 2 9, .step 2 9, .call 0 (.start "memory" false),
     .step 0 9, .step 0 9, .ask 0, .answer 0 (.ok true), .ask 0, .call 1 .stop, .step 1 9,
     .step 1 9, .answer 0 (.ok true), .ask 0, .answer 0 (.ok true), .step 0 9, .ask 0,
     .answer 0 (.ok true), .step 0 9]

/-- It finds the request, and is about to return. -/
def overtakenEnd : List Incident := overtakenStart ++ [.move (.step 0 9)] ++ [.move (.step 0 9)]

theorem meets_overtakenEnd : blank.Meets (Supersedes 0 false) overtakenEnd := by
  have hstart : blank.live? overtakenStart = some (blank.after overtakenStart) := rfl
  have hlook : blank.live? (overtakenStart ++ [.move (.step 0 9)]) =
      some (blank.after (overtakenStart ++ [.move (.step 0 9)])) := rfl
  have hsuperseded : Supersedes 0 false (blank.after overtakenStart).1 (.move (.step 0 9)) :=
    ⟨9, .checkShutdown, false, rfl, rfl, rfl⟩
  exact (meets_concat hlook).mpr (.inl ((meets_concat hstart).mpr (.inr hsuperseded)))

theorem superseded_start_outcome :
    ((blank.after (primaryMoves ++ [.move (.step 0 9)])).1.elector.gate = .released ∧
      (blank.after (primaryMoves ++ [.move (.step 0 9)])).1.elector.callback = none) ∧
    (∃ r, (blank.after (lateStart ++ [.move (.step 0 3)])).1.course 0 =
      some (.ended (.started r)) ∧ r = .ok .stopped) ∧
    (∃ r, (blank.after (overtakenEnd ++ [.move (.step 0 9)])).1.course 0 =
      some (.ended (.started r)) ∧ r = .ok .running) ∧
    (blank.after (overtakenEnd ++ [.move (.step 0 9)])).1.elector.gate = .pending := by
  have hprimary : blank.live? primaryMoves = some (blank.after primaryMoves) := rfl
  have hlate : blank.live? lateStart = some (blank.after lateStart) := rfl
  have hovertaken : blank.live? overtakenEnd = some (blank.after overtakenEnd) := rfl
  have hcoop : blank.Cooperative (primaryMoves ++ [.move (.step 0 9)]) :=
    cooperative_of_isCooperative 10 (fun _ _ => rfl) rfl
  have hreturns : (blank.after primaryMoves).1.undergo? (.move (.step 0 9)) =
      some (blank.after (primaryMoves ++ [.move (.step 0 9)])).1 := rfl
  have hreturnsLate : (blank.after lateStart).1.undergo? (.move (.step 0 3)) =
      some (blank.after (lateStart ++ [.move (.step 0 3)])).1 := rfl
  have hreturnsOvertaken : (blank.after overtakenEnd).1.undergo? (.move (.step 0 9)) =
      some (blank.after (overtakenEnd ++ [.move (.step 0 9)])).1 := rfl
  have hended : (blank.after (primaryMoves ++ [.move (.step 0 9)])).1.course 0 =
      some (.ended (.started (.ok .running))) := rfl
  have hendedLate : (blank.after (lateStart ++ [.move (.step 0 3)])).1.course 0 =
      some (.ended (.started (.ok .stopped))) := rfl
  have hendedOvertaken : (blank.after (overtakenEnd ++ [.move (.step 0 9)])).1.course 0 =
      some (.ended (.started (.ok .running))) := rfl
  obtain ⟨hopen, -, hexcept⟩ := start_outcome hprimary hreturns rfl hended
  -- it was not superseded, since its gate is open
  have hmeets : ¬ blank.Meets (Supersedes 0 false) (primaryMoves ++ [.move (.step 0 9)]) :=
    fun h => nomatch (hexcept h).2.1
  obtain ⟨hgate, -, hslot⟩ := hopen rfl hmeets
  obtain ⟨-, hstopped, -⟩ := start_outcome hlate hreturnsLate rfl hendedLate
  have hlateMeets : blank.Meets (Supersedes 0 true) (lateStart ++ [.move (.step 0 3)]) :=
    (meets_concat hlate).mpr (.inr ⟨3, .openGate, false, rfl, rfl, rfl⟩)
  obtain ⟨-, -, hpending⟩ := start_outcome hovertaken hreturnsOvertaken rfl hendedOvertaken
  obtain ⟨hrunning, hgate', -⟩ :=
    hpending ((meets_concat hovertaken).mpr (.inl meets_overtakenEnd))
  exact ⟨⟨hgate, (hslot hcoop).1⟩, ⟨_, hendedLate, hstopped hlateMeets⟩,
    ⟨_, hendedOvertaken, hrunning⟩, hgate'⟩

/-- A start that does not block returns as primary although a stop superseded it, and although the
gate is not open. -/
theorem running_behind_pending_gate :
    ¬ ∀ (is : List Incident) (n : Node) (c : Chronicle) (i : Incident) (n' : Node) (id : CallId)
      (a : Activity) (asked : Bool) (r : StartResult),
      blank.live? is = some (n, c) → blank.Cooperative (is ++ [i]) → n.undergo? i = some n' →
      n.course id = some (.going a asked) → n'.course id = some (.ended (.started r)) →
      (r = .ok .running → n'.elector.gate = .released) ∧
      ∀ blocking, blank.Meets (Supersedes id blocking) (is ++ [i]) → r = .ok .stopped := by
  intro h
  have hlive : blank.live? overtakenEnd = some (blank.after overtakenEnd) := rfl
  have hcoop : blank.Cooperative (overtakenEnd ++ [.move (.step 0 9)]) :=
    cooperative_of_isCooperative 10 (fun _ _ => rfl) rfl
  have hreturns : (blank.after overtakenEnd).1.undergo? (.move (.step 0 9)) =
      some (blank.after (overtakenEnd ++ [.move (.step 0 9)])).1 := rfl
  have hended : (blank.after (overtakenEnd ++ [.move (.step 0 9)])).1.course 0 =
      some (.ended (.started (.ok .running))) := rfl
  obtain ⟨-, hresult⟩ := h overtakenEnd _ _ _ _ 0 _ _ _ hlive hcoop hreturns rfl hended
  have hmeets := (meets_concat (i := .move (.step 0 9)) hlive).mpr (.inl meets_overtakenEnd)
  exact nomatch hresult false hmeets

end Node

end Primacy.Election
