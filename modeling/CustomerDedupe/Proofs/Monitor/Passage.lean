import CustomerDedupe.Proofs.Monitor.Steady

/-!
# Passages of time

A timer that is set becomes due again and again, one interval after the other. Time that passes
makes one evaluation for each of these due times (`advance_to_ticks`), whatever the evaluations
come to, and leaves the worker waiting for the first due time still to come (`advance_passed`).
-/

namespace CustomerDedupe.Monitor

variable {σ : Type} (out : Outside σ) (moment : Moment)

/-- Evaluations after one another under the same settings. -/
inductive Evaluations (s : Settings) (moment : Moment) : Nat → List Event → Nat → Prop
  | none (k : Nat) : Evaluations s moment k [] k
  | more {k k₁ k₂ : Nat} {news later : List Event} {r : Except Failure TickOutcome}
      (h : Evaluated s moment k news r k₁) (hrest : Evaluations s moment k₁ later k₂) :
      Evaluations s moment k (later ++ news) k₂

/-- A number is that of the due times of the timer up to some time. The timer becomes due again
and again, one interval after the other. -/
def DueTimes (m : Monitor) (stop n : Nat) : Prop :=
  match m.due? with
  | none => n = 0
  | some due => ∀ j, due + j * interval m.hub.current ≤ stop ↔ j < n

/-- After the due times that have come, the next one comes within an interval. -/
theorem next_due {due stop step n : Nat} (h : ∀ j, due + j * step ≤ stop ↔ j < n)
    (hsoon : due ≤ stop + step) :
    stop < due + n * step ∧ due + n * step ≤ stop + step := by
  have hnext : stop < due + n * step :=
    Nat.lt_of_not_le fun hcome => Nat.lt_irrefl n ((h n).mp hcome)
  refine ⟨hnext, ?_⟩
  cases n with
  | zero => omega
  | succ n =>
      have hlast := (h n).mpr (Nat.lt_succ_self n)
      rw [Nat.succ_mul]
      omega

/-- An evaluation asks for one scan if monitoring is on. -/
theorem Evaluated.length_of_enabled {s : Settings} {k k' : Nat} {news : List Event}
    {r : Except Failure TickOutcome} (h : Evaluated s moment k news r k')
    (hon : s.enabled = true) : news.length = 1 := by
  cases h with
  | disabled hoff => exact absurd (hon.symm.trans hoff) (by decide)
  | scan_failed | no_duplicates | unchanged | refused | notified => rfl

section Advance

variable {s : Watch σ}

/-- One round of letting time pass. -/
theorem advance_to_succ (stop fuel : Nat) (s : Watch σ) :
    (advanceTo out.recorded moment stop (fuel + 1)).run s =
      ExceptT.run (match s.world.monitor.due? with
        | some due =>
          if due ≤ stop then do
            modify fun m => { m with clock := due }
            settle out.recorded moment settleSteps
            advanceTo out.recorded moment stop fuel
          else modify fun m => { m with clock := stop }
        | none => modify fun m => { m with clock := stop }) s := rfl

/-- A session at another time. -/
def atTime (s : Watch σ) (now : Nat) : Watch σ :=
  { s with world := { s.world with monitor := { s.world.monitor with clock := now } } }

/-- Where no timer is set, or not for the time that passes, nothing else happens. -/
theorem advance_to_quiet (stop fuel : Nat)
    (hquiet : ∀ due, s.world.monitor.due? = some due → stop < due) :
    (advanceTo out.recorded moment stop fuel).run s = (.ok (), atTime s stop) := by
  cases fuel with
  | zero => rfl
  | succ fuel =>
      rw [advance_to_succ]
      cases hdue : s.world.monitor.due? with
      | none => rfl
      | some due =>
          simp only [if_neg (Nat.not_le_of_gt (hquiet due hdue))]
          rfl

/-- A timer that is set for later makes no evaluation. -/
theorem advance_to_early (fuel : Nat) {due stop : Nat} (hbefore : stop < due)
    (hworker : s.world.monitor.worker = some ⟨s.world.monitor.hub.version, .armed due⟩)
    (hshown : s.world.monitor.shown = .running) :
    ∃ k news,
      Evaluations s.world.monitor.hub.current moment s.world.monitor.lastCount news k ∧
      (∀ j, due + j * interval s.world.monitor.hub.current ≤ stop ↔ j < news.length) ∧
      Leaves (advanceTo out.recorded moment stop fuel) s (.ok ())
        (s.world.monitor.ticked stop k
          (due + news.length * interval s.world.monitor.hub.current))
        (news ++ s.world.outside.log) := by
  have hdue : s.world.monitor.due? = some due := by simp only [due?, hworker]
  have hquiet : Leaves (advanceTo out.recorded moment stop fuel) s (.ok ())
      { s.world.monitor with clock := stop } s.world.outside.log := by
    refine (Leaves.modify (fun m => { m with clock := stop }) s).of_run_eq ?_
    refine advance_to_quiet out moment stop fuel ?_
    intro due' h
    obtain rfl := Option.some.inj (hdue.symm.trans h)
    exact hbefore
  refine ⟨_, [], .none _, ?_, ?_⟩
  · intro j
    simp only [List.length_nil, Nat.not_lt_zero, iff_false]
    omega
  · have hticked : { s.world.monitor with clock := stop } =
        s.world.monitor.ticked stop s.world.monitor.lastCount due := by
      rw [ticked, ← hworker, ← hshown]
    rw [hticked] at hquiet
    simpa using hquiet

/-- The first due time that comes makes one evaluation, and time goes on with the timer set for
the next one, however long it still passes. -/
theorem advance_to_due {due : Nat}
    (hworker : s.world.monitor.worker = some ⟨s.world.monitor.hub.version, .armed due⟩)
    (hon : s.world.monitor.hub.current.enabled = true) :
    ∃ r k news, Evaluated s.world.monitor.hub.current moment s.world.monitor.lastCount news r k ∧
      ∃ t : Watch σ,
        t.world.monitor =
          s.world.monitor.ticked due k (due + interval s.world.monitor.hub.current) ∧
        t.world.outside.log = news ++ s.world.outside.log ∧
        ∀ stop fuel, due ≤ stop → (advanceTo out.recorded moment stop (fuel + 1)).run s =
          (advanceTo out.recorded moment stop fuel).run t := by
  have hdue : s.world.monitor.due? = some due := by simp only [due?, hworker]
  obtain ⟨r, k, news, hevaluated, hsettled⟩ := settle_tick out moment (s := atTime s due)
    (show 6 ≤ settleSteps by decide) hworker (Nat.le_refl due)
  have hticked : { (atTime s due).world.monitor with lastCount := k }.rearmed =
      s.world.monitor.ticked due k (due + interval s.world.monitor.hub.current) := by
    rw [rearmed, if_pos (show (atTime s due).world.monitor.hub.current.enabled = true from hon)]
    rfl
  refine ⟨r, k, news, hevaluated, _, hsettled.monitor.trans hticked, hsettled.log, ?_⟩
  intro stop fuel hpast
  have hrun := Action.run_bind_ok (Prod.ext hsettled.result rfl) fun _ =>
    advanceTo out.recorded moment stop fuel
  rw [← hrun, advance_to_succ, hdue]
  simp only [if_pos hpast]
  rfl

/-- Each due time of a timer that is set makes one evaluation, and the timer is set for the first
due time that has not come yet. -/
theorem advance_to_ticks {fuel due stop : Nat} (hfuel : stop < due + 60 * fuel)
    (hworker : s.world.monitor.worker = some ⟨s.world.monitor.hub.version, .armed due⟩)
    (hon : s.world.monitor.hub.current.enabled = true)
    (hshown : s.world.monitor.shown = .running) :
    ∃ k news,
      Evaluations s.world.monitor.hub.current moment s.world.monitor.lastCount news k ∧
      (∀ j, due + j * interval s.world.monitor.hub.current ≤ stop ↔ j < news.length) ∧
      Leaves (advanceTo out.recorded moment stop fuel) s (.ok ())
        (s.world.monitor.ticked stop k
          (due + news.length * interval s.world.monitor.hub.current))
        (news ++ s.world.outside.log) := by
  -- each due time takes one unit of fuel, and there is a minute at least between two of them
  induction fuel generalizing due s with
  | zero => exact advance_to_early out moment 0 (by omega) hworker hshown
  | succ fuel ih =>
      rcases Nat.lt_or_ge stop due with hbefore | hpast
      · exact advance_to_early out moment (fuel + 1) hbefore hworker hshown
      · have hminute := interval_ge s.world.monitor.hub.current
        obtain ⟨r, k, news, hevaluated, t, hm, hlog, hgo⟩ :=
          advance_to_due out moment hworker hon
        have hhub : t.world.monitor.hub = s.world.monitor.hub := by
          rw [hm]
          rfl
        have hlast : t.world.monitor.lastCount = k := by
          rw [hm]
          rfl
        have harmed : t.world.monitor.worker = some ⟨t.world.monitor.hub.version,
            .armed (due + interval s.world.monitor.hub.current)⟩ := by
          rw [hm]
          rfl
        obtain ⟨k', later, hlater, htimes, hleaves⟩ :=
          ih (by omega) harmed (by rw [hhub]; exact hon) (by rw [hm]; rfl)
        rw [hhub, hlast] at hlater
        rw [hhub] at htimes
        rw [hhub, hm, hlog] at hleaves
        have hcount : (later ++ news).length = later.length + 1 := by
          rw [List.length_append, hevaluated.length_of_enabled moment hon]
        refine ⟨k', later ++ news, .more hevaluated hlater, ?_, ?_⟩
        · -- the due times after the first are those of the timer that was set anew
          intro j
          rw [hcount]
          cases j with
          | zero => omega
          | succ j =>
              have htime := htimes j
              rw [Nat.succ_mul]
              omega
        · have hnext : due + (later ++ news).length * interval s.world.monitor.hub.current =
              due + interval s.world.monitor.hub.current +
                later.length * interval s.world.monitor.hub.current := by
            rw [hcount, Nat.succ_mul]
            omega
          rw [hnext, List.append_assoc]
          exact hleaves.of_run_eq (hgo stop fuel hpast)

/-- What letting time pass does to a steady monitor without a timer. -/
theorem advance_to_untimed (stop fuel : Nat) (h : s.world.monitor.Steady)
    (hdue : s.world.monitor.due? = none) :
    Leaves (advanceTo out.recorded moment stop fuel) s (.ok ())
        { s.world.monitor with clock := stop } s.world.outside.log ∧
      ({ s.world.monitor with clock := stop } : Monitor).Steady := by
  refine ⟨(Leaves.modify (fun m => { m with clock := stop }) s).of_run_eq
    (advance_to_quiet out moment stop fuel (by simp [hdue])), ?_⟩
  cases h with
  | off hworker hshown => exact .off hworker hshown
  | dormant hworker hoff hshown => exact .dormant hworker hoff hshown
  | armed due hworker _ _ _ => simp [due?, hworker] at hdue

/-- What a passage of time leaves of a steady monitor. -/
structure Passed (before after : Monitor) (moment : Moment) (seconds : Nat)
    (news : List Event) : Prop where
  evaluations : Evaluations before.hub.current moment before.lastCount news after.lastCount
  dueTimes : before.DueTimes (before.clock + seconds) news.length
  steady : after.Steady
  hub : after.hub = before.hub
  view : after.view = before.view
  clock : after.clock = before.clock + seconds
  due : after.due? = before.due?.map fun due => due + news.length * interval before.hub.current

/-- Time that passes by a steady monitor makes one evaluation for each due time that comes. -/
theorem advance_to_passed (seconds : Nat) (h : s.world.monitor.Steady) :
    ∃ m news, Passed s.world.monitor m moment seconds news ∧
      Leaves (advanceTo out.recorded moment (s.world.monitor.clock + seconds) (seconds / 60 + 1))
        s (.ok ()) m (news ++ s.world.outside.log) := by
  cases hdue : s.world.monitor.due? with
  | none =>
      obtain ⟨hleaves, hafter⟩ := advance_to_untimed out moment (s.world.monitor.clock + seconds)
        (seconds / 60 + 1) h hdue
      refine ⟨_, [], ⟨?_, ?_, hafter, rfl, rfl, rfl, ?_⟩, hleaves⟩
      · exact Evaluations.none s.world.monitor.lastCount
      · rw [DueTimes, hdue]
        rfl
      · rw [hdue]
        exact hdue
  | some due =>
      cases h with
      | off hworker _ => simp [due?, hworker] at hdue
      | dormant hworker _ _ => simp [due?, hworker] at hdue
      | armed due' hworker hon hshown hsoon =>
          obtain rfl : due' = due := by simpa [due?, hworker] using hdue
          have hfuel : s.world.monitor.clock + seconds < due' + 60 * (seconds / 60 + 1) := by omega
          obtain ⟨k, news, hevaluations, htimes, hleaves⟩ :=
            advance_to_ticks out moment hfuel hworker hon hshown
          have hnext := next_due htimes (Nat.le_trans hsoon.2
            (Nat.add_le_add_right (Nat.le_add_right _ seconds) _))
          refine ⟨_, news, ⟨?_, ?_, ?_, ?_, ?_, rfl, ?_⟩, hleaves⟩
          · exact hevaluations
          · rw [DueTimes, hdue]
            exact htimes
          · exact .armed _ rfl hon rfl hnext
          · rfl
          · simp only [view, ticked, hworker]
          · rw [hdue]
            rfl

/-- The worker of an orderly monitor catches up and then makes one evaluation for each due time
that comes. -/
theorem advance_passed (seconds : Nat) (h : s.world.monitor.Orderly) :
    ∃ m news, Passed s.world.monitor.caughtUp m moment seconds news ∧
      Leaves (advance out.recorded moment seconds) s (.ok ()) m
        (news ++ s.world.outside.log) := by
  obtain ⟨t, hm, hlog, hgo⟩ := (Leaves.current s).next fun m => do
    settle out.recorded moment settleSteps
    advanceTo out.recorded moment (m.clock + seconds) (seconds / 60 + 1)
  have horderly : t.world.monitor.Orderly := hm ▸ h
  obtain ⟨u, hm', hlog', hgo'⟩ :=
    (settle_orderly out moment (show 2 ≤ settleSteps by decide) horderly).next fun _ =>
      advanceTo out.recorded moment (s.world.monitor.clock + seconds) (seconds / 60 + 1)
  obtain ⟨m, news, hpassed, hleaves⟩ :=
    advance_to_passed out moment (s := u) seconds (hm' ▸ horderly.caught_up_steady)
  rw [hm', hm, caught_up_clock, hlog', hlog] at hleaves
  rw [hm', hm] at hpassed
  exact ⟨m, news, hpassed, hgo (hgo' hleaves)⟩

end Advance

end CustomerDedupe.Monitor
