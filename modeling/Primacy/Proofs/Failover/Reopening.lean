/-
  Primacy.Proofs.Failover.Reopening

  When the gate of a cycle is open again.  A call that returns has opened it, whatever it returns;
  a call that is dropped or breaks down inside leaves it shut for good.
-/
import Primacy.Proofs.Failover.SingleFlight

namespace Primacy.Failover.Cycling

variable {t : Target} {g g' : Cycling t} {m : Move} {id : CallId} {f : Flight}

/-! ## Calls that are over -/

theorem Reachable.trans {allowed : Move → Prop} {g₀ : Cycling t} (h : Reachable allowed g₀ g)
    (h' : Reachable allowed g g') : Reachable allowed g₀ g' := by
  induction h' with
  | refl => exact h
  | move before may made ih => exact .move ih may made

/-- What a move may do to one call. -/
theorem Makes.change (h : g.Makes m g') (here : g.flight id = some f) :
    ∃ f', g'.flight id = some f' ∧ (f' = f ∨ (f.isGoing = true ∧
      (f' = { f with broken := true } ∨
        ∃ x q next r broken, f.rest = .ask q next ∧ f' = f.on next r broken ∧
          Answers g.registry x q r g'.registry))) := by
  have hother : ∀ {id' : CallId} {f₁ : Flight}, id ≠ id' →
      (g.setFlight id' f₁).flight id = some f :=
    fun {_ f₁} hne => (setFlight_flight_other g f₁ hne).trans here
  cases h with
  | @call id' d new =>
    have hid : id ≠ id' := by
      rintro rfl
      exact nomatch new.symm.trans here
    exact ⟨f, hother hid, .inl rfl⟩
  | @answer id' x broken f₁ q next r c here₁ whole rest answers =>
    by_cases hid : id = id'
    · subst hid
      obtain rfl := Option.some.inj (here₁.symm.trans here)
      have hgoing : f₁.isGoing = true := by
        rw [Flight.isGoing, whole, rest]
      exact ⟨_, setFlight_flight_self g id _,
        .inr ⟨hgoing, .inr ⟨x, q, next, r, broken, rest, rfl, answers⟩⟩⟩
    · exact ⟨f, hother hid, .inl rfl⟩
  | @breakOff id' f₁ here₁ going =>
    by_cases hid : id = id'
    · subst hid
      obtain rfl := Option.some.inj (here₁.symm.trans here)
      exact ⟨_, setFlight_flight_self g id _, .inr ⟨going, .inl rfl⟩⟩
    · exact ⟨f, hother hid, .inl rfl⟩
  | outside kept => exact ⟨f, here, .inl rfl⟩

/-- A call that is over stays as it is. -/
theorem Reachable.keeps {allowed : Move → Prop} (h : Reachable allowed g g')
    (here : g.flight id = some f) (ended : f.isGoing = false) : g'.flight id = some f := by
  induction h with
  | refl => exact here
  | move before may made ih =>
    obtain ⟨f', here', rfl | ⟨going, -⟩⟩ := (makes_of_move? made).change ih
    · exact here'
    · exact nomatch ended.symm.trans going

/-- Whoever has won the gate has won it for good. -/
theorem Reachable.won {allowed : Move → Prop} (h : Reachable allowed g g')
    (here : g.flight id = some f) (won : f.Won t) : ∃ f', g'.flight id = some f' ∧ f'.Won t := by
  induction h with
  | refl => exact ⟨f, here, won⟩
  | move before may made ih =>
    obtain ⟨f₁, here₁, won₁⟩ := ih
    obtain ⟨f₂, here₂, hchange⟩ := (makes_of_move? made).change here₁
    refine ⟨f₂, here₂, ?_⟩
    rcases hchange with rfl | ⟨-, rfl | ⟨x, q, next, r, broken, rest, rfl, answers⟩⟩
    · exact won₁
    · exact won₁
    · exact List.mem_append_left _ won₁

/-- A call in progress has not opened the gate yet. -/
theorem Sound.not_reopened (hg : g.Sound) (here : g.flight id = some f)
    (going : f.isGoing = true) : ¬ f.Reopened t := by
  unfold Flight.isGoing at going
  split at going
  · next whole rest =>
    rcases Flight.arriving_or_isInside (hg.stands here) rest with ⟨hpast, -⟩ | hin
    · rintro ⟨r, hr⟩
      rw [hpast] at hr
      exact nomatch hr
    · exact hin.2
  · exact nomatch going

/-- The move that has a call open the gate zeroes the counter. -/
theorem Makes.of_reopened {f' : Flight} (h : g.Makes m g') (hg : g.Sound)
    (here : g.flight id = some f) (going : f.isGoing = true) (here' : g'.flight id = some f')
    (opened : f'.Reopened t) :
    (∃ r, f'.past = f.past ++ [reopening t r]) ∧ g'.registry.counter t.gateCounter = 0 := by
  have hshut := hg.not_reopened here going
  obtain ⟨f₁, here₁, hchange⟩ := h.change here
  obtain rfl := Option.some.inj (here'.symm.trans here₁)
  rcases hchange with rfl | ⟨-, rfl | ⟨x, q, next, r, broken, rest, rfl, answers⟩⟩
  · exact absurd opened hshut
  · exact absurd opened hshut
  · obtain ⟨r', hr'⟩ := opened
    rcases List.mem_append.mp hr' with hr' | hr'
    · exact absurd ⟨r', hr'⟩ hshut
    · have hlast := List.mem_singleton.mp hr'
      obtain rfl := congrArg Primacy.Exchange.request hlast
      exact ⟨⟨r', congrArg (f.past ++ [·]) hlast.symm⟩, answers.zero⟩

/-- A call that got inside and returned has opened the gate. -/
theorem Sound.reopened_of_over (hg : g.Sound) (here : g.flight id = some f)
    (ended : f.isGoing = false) (whole : f.broken = false) (won : f.Won t) : f.Reopened t := by
  cases hrest : f.rest with
  | done result =>
    obtain ⟨past, r, hpast⟩ := Flight.reopening_of_done (hg.stands here) hrest won
    refine ⟨r, ?_⟩
    rw [hpast]
    exact List.mem_append_right _ List.mem_cons_self
  | ask q next =>
    rw [Flight.isGoing, whole, hrest] at ended
    exact nomatch ended

/-- A call that has won the gate is over once another one is inside. -/
theorem Reachable.over_of_other {allowed : Move → Prop} {id' : CallId}
    (h : Reachable allowed g g') (hg' : g'.Sound) (here : g.flight id = some f) (won : f.Won t)
    (other : g'.Inside id') (ne : id ≠ id') :
    ∃ f', g'.flight id = some f' ∧ f'.isGoing = false := by
  obtain ⟨f', here', won'⟩ := h.won here won
  refine ⟨f', here', ?_⟩
  by_contra hgoing
  have hshut := hg'.not_reopened here' (by simpa using hgoing)
  exact ne (hg'.guards.sole id id' ⟨f', here', won', hshut⟩ other)

/-- When a call that got inside is over, the gate is open if and only if the call returned, with
whatever result, or it was broken off at the very request that opens the gate, and the request was
carried out all the same.  If the gate is open the next call gets inside, and if it is not, no
other call ever does. -/
theorem gate_open_iff {c : Registry.Content} {f' : Flight} (hc : c.counter t.gateCounter = 0)
    (h : Reachable (fun _ => True) (fresh t c) g) (made : g.move? m = some g')
    (here : g.flight id = some f) (going : f.isGoing = true) (here' : g'.flight id = some f')
    (ended : f'.isGoing = false) (won : f'.Won t) :
    (g'.registry.counter t.gateCounter = 0 ↔
      f'.broken = false ∨ ∃ r, f'.past = f.past ++ [reopening t r]) ∧
    (g'.registry.counter t.gateCounter = 0 →
      ∀ id' d x, g'.flight id' = none → d.settings.cycleNodes = true →
        ∃ g'', g'.run? [.call id' d, .answer id' x false] = some g'' ∧ g''.Inside id') ∧
    (g'.registry.counter t.gateCounter ≠ 0 →
      ∀ g'', Reachable (fun _ => True) g' g'' →
        g''.registry.counter t.gateCounter ≠ 0 ∧ ∀ id', g''.Inside id' → id' = id) := by
  have hg := h.sound hc
  have hmakes := makes_of_move? made
  have hg' := hmakes.sound hg
  have hshut : g'.registry.counter t.gateCounter ≠ 0 → g'.Inside id := by
    intro hne
    refine ⟨f', here', won, fun hopen => hne ?_⟩
    exact (hmakes.of_reopened hg here going here' hopen).2
  refine ⟨⟨fun hzero => ?_, ?_⟩, ?_, ?_⟩
  · have hopen : f'.Reopened t := by
      by_contra hopen
      exact hg'.guards.eq_zero_iff.mp hzero id ⟨f', here', won, hopen⟩
    exact .inr (hmakes.of_reopened hg here going here' hopen).1
  · rintro (whole | ⟨r, hpast⟩)
    · have hopen := hg'.reopened_of_over here' ended whole won
      exact (hmakes.of_reopened hg here going here' hopen).2
    · refine (hmakes.of_reopened hg here going here' ⟨r, ?_⟩).2
      rw [hpast]
      exact List.mem_append_right _ List.mem_cons_self
  · exact fun hzero id' d x new hd => next_inside hzero new hd x
  · intro hne g'' hlater
    obtain ⟨f₁, here₁, hin⟩ := hshut hne
    have hin'' : g''.Inside id := by
      obtain rfl := Option.some.inj (here'.symm.trans here₁)
      exact ⟨f', hlater.keeps here' ended, hin⟩
    have hg'' := ((h.move trivial made).trans hlater).sound hc
    refine ⟨fun hzero => hg''.guards.eq_zero_iff.mp hzero id hin'', fun id' hid' => ?_⟩
    exact hg''.guards.sole id' id hid' hin''

theorem rivals_gate_open :
    (leadsAfter (rivalMoves ++ finishMoves)).registry.counter Target.lead.gateCounter = 0 ∧
    ∃ g, (leadsAfter (rivalMoves ++ finishMoves)).run? [.call 2 idler, .answer 2 calm false] =
      some g ∧ g.Inside 2 := by
  have hempty : Registry.Content.empty.counter Target.lead.gateCounter = 0 := rfl
  have hrun : (fresh .lead .empty).run? (rivalMoves ++ finishMoves.dropLast) =
      some (leadsAfter (rivalMoves ++ finishMoves.dropLast)) := rfl
  have hlast : (leadsAfter (rivalMoves ++ finishMoves.dropLast)).move? (.answer 0 calm false) =
      some (leadsAfter (rivalMoves ++ finishMoves)) := rfl
  have here : (leadsAfter (rivalMoves ++ finishMoves.dropLast)).flight 0 = some _ := rfl
  obtain ⟨hopen, hnext, -⟩ := gate_open_iff hempty
    (Reachable.refl.run (fun _ _ => trivial) hrun) hlast here rfl rfl rfl List.mem_cons_self
  have hzero := hopen.mpr (.inl rfl)
  exact ⟨hzero, hnext hzero 2 idler calm rfl rfl⟩

/-- A call that is dropped at its first request inside is over, and the gate is shut. -/
theorem not_gate_open_of_drop : ¬ ∀ (t : Target) (c : Registry.Content) (g g' : Cycling t)
    (m : Move) (id : CallId) (f f' : Flight), c.counter t.gateCounter = 0 →
    Reachable (fun _ => True) (fresh t c) g → g.move? m = some g' → g.flight id = some f →
    f.isGoing = true → g'.flight id = some f' → f'.isGoing = false → f'.Won t →
    g'.registry.counter t.gateCounter = 0 := by
  intro hclaim
  have hrun : (fresh .lead .empty).run? enterMoves = some (leadsAfter enterMoves) := rfl
  have hdrop : (leadsAfter enterMoves).move? (.breakOff 0) =
      some (leadsAfter (enterMoves ++ [.breakOff 0])) := rfl
  have hzero := hclaim .lead .empty _ _ _ 0 _ _ rfl
    (Reachable.refl.run (fun _ _ => trivial) hrun) hdrop rfl rfl rfl rfl List.mem_cons_self
  have hone : (leadsAfter (enterMoves ++ [.breakOff 0])).registry.counter
      Target.lead.gateCounter = 1 := rfl
  omega


end Primacy.Failover.Cycling
