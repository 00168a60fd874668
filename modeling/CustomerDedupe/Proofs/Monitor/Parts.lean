import CustomerDedupe.Proofs.Monitor.Passage

/-!
# Passages of time in parts

It makes no difference whether time passes at once or in parts. The due times that come are the
same, each makes its evaluation from the state that the one before has left, and so the monitor,
its world and the journal are the same in the end (`advance_add`).
-/

namespace CustomerDedupe.Monitor

variable {σ : Type} (out : Outside σ) (moment : Moment) {s : Watch σ}

/-- Letting time pass does not depend on when it has begun to. -/
theorem advance_to_at_time (stop fuel now : Nat) :
    (advanceTo out.recorded moment stop fuel).run (atTime s now) =
      (advanceTo out.recorded moment stop fuel).run s := by
  cases fuel with
  | zero => rfl
  | succ fuel =>
      rw [advance_to_succ, advance_to_succ,
        show (atTime s now).world.monitor.due? = s.world.monitor.due? from rfl]
      cases s.world.monitor.due? with
      | none => rfl
      | some due =>
          simp only
          split <;> rfl

/-- A timer that is set for later lets time pass quietly. -/
theorem advance_to_before {stop due : Nat} (fuel : Nat) (hbefore : stop < due)
    (hworker : s.world.monitor.worker = some ⟨s.world.monitor.hub.version, .armed due⟩) :
    (advanceTo out.recorded moment stop fuel).run s = (.ok (), atTime s stop) := by
  refine advance_to_quiet out moment stop fuel ?_
  intro due' h
  obtain rfl : due = due' := by simpa only [due?, hworker, Option.some.injEq] using h
  exact hbefore

/-- The session in which a timer that is set has fired is one whose timer is set for an interval
later. -/
theorem advance_to_fired {due : Nat}
    (hworker : s.world.monitor.worker = some ⟨s.world.monitor.hub.version, .armed due⟩)
    (hon : s.world.monitor.hub.current.enabled = true) :
    ∃ t : Watch σ,
      t.world.monitor.worker = some ⟨t.world.monitor.hub.version,
        .armed (due + interval s.world.monitor.hub.current)⟩ ∧
      t.world.monitor.hub.current.enabled = true ∧
      ∀ stop fuel, due ≤ stop → (advanceTo out.recorded moment stop (fuel + 1)).run s =
        (advanceTo out.recorded moment stop fuel).run t := by
  obtain ⟨r, k, news, -, t, hm, -, hgo⟩ := advance_to_due out moment hworker hon
  refine ⟨t, ?_, ?_, hgo⟩
  · rw [hm]
    rfl
  · rw [hm]
    exact hon

/-- Any number of rounds that is large enough for the due times that come does the same. -/
theorem advance_to_fuel {stop due f g : Nat}
    (hworker : s.world.monitor.worker = some ⟨s.world.monitor.hub.version, .armed due⟩)
    (hon : s.world.monitor.hub.current.enabled = true)
    (hf : stop < due + 60 * f) (hg : stop < due + 60 * g) :
    (advanceTo out.recorded moment stop f).run s =
      (advanceTo out.recorded moment stop g).run s := by
  -- both take one round for each due time, the first of which is an interval before the rest
  induction f generalizing s due g with
  | zero =>
      have hbefore : stop < due := by omega
      rw [advance_to_before out moment 0 hbefore hworker,
        advance_to_before out moment g hbefore hworker]
  | succ f ih =>
      rcases Nat.lt_or_ge stop due with hbefore | hpast
      · rw [advance_to_before out moment (f + 1) hbefore hworker,
          advance_to_before out moment g hbefore hworker]
      · obtain ⟨g, rfl⟩ := Nat.exists_eq_add_of_le' (show 1 ≤ g by omega)
        have hminute := interval_ge s.world.monitor.hub.current
        obtain ⟨t, hnext, hstays, hgo⟩ := advance_to_fired out moment hworker hon
        rw [hgo stop f hpast, hgo stop g hpast]
        exact ih hnext hstays (by omega) (by omega)

/-- Where the timer is set for after the first part, only the second part makes evaluations. -/
theorem advance_to_parts_before {first second due f g h : Nat}
    (hworker : s.world.monitor.worker = some ⟨s.world.monitor.hub.version, .armed due⟩)
    (hon : s.world.monitor.hub.current.enabled = true) (hbefore : first < due)
    (hg : second < first + 60 * g) (hh : second < due + 60 * h) :
    (advanceTo out.recorded moment first f >>= fun _ =>
        advanceTo out.recorded moment second g).run s =
      (advanceTo out.recorded moment second h).run s := by
  rw [Action.run_bind_ok (advance_to_before out moment f hbefore hworker), advance_to_at_time]
  exact advance_to_fuel out moment hworker hon (by omega) hh

/-- Time that passes in two parts makes the evaluations of both. -/
theorem advance_to_parts {first second due f g h : Nat}
    (hworker : s.world.monitor.worker = some ⟨s.world.monitor.hub.version, .armed due⟩)
    (hon : s.world.monitor.hub.current.enabled = true) (hle : first ≤ second)
    (hf : first < due + 60 * f) (hg : second < first + 60 * g) (hh : second < due + 60 * h) :
    (advanceTo out.recorded moment first f >>= fun _ =>
        advanceTo out.recorded moment second g).run s =
      (advanceTo out.recorded moment second h).run s := by
  induction f generalizing s due h with
  | zero => exact advance_to_parts_before out moment hworker hon (by omega) hg hh
  | succ f ih =>
      rcases Nat.lt_or_ge first due with hbefore | hpast
      · exact advance_to_parts_before out moment hworker hon hbefore hg hh
      · obtain ⟨h, rfl⟩ := Nat.exists_eq_add_of_le' (show 1 ≤ h by omega)
        have hminute := interval_ge s.world.monitor.hub.current
        obtain ⟨t, hnext, hstays, hgo⟩ := advance_to_fired out moment hworker hon
        rw [hgo second h (Nat.le_trans hpast hle), Action.run_bind, hgo first f hpast,
          ← Action.run_bind]
        exact ih hnext hstays (by omega) (by omega)

/-- So it does where no timer is set. -/
theorem advance_to_parts_untimed (first second f g h : Nat)
    (hdue : s.world.monitor.due? = none) :
    (advanceTo out.recorded moment first f >>= fun _ =>
        advanceTo out.recorded moment second g).run s =
      (advanceTo out.recorded moment second h).run s := by
  have hquiet (t : Watch σ) (ht : t.world.monitor.due? = none) (stop fuel : Nat) :
      (advanceTo out.recorded moment stop fuel).run t = (.ok (), atTime t stop) :=
    advance_to_quiet out moment stop fuel (by simp [ht])
  rw [Action.run_bind_ok (hquiet s hdue first f), hquiet (atTime s first) hdue second g,
    hquiet s hdue second h]
  rfl

/-- A steady monitor is left as it is. -/
theorem settle_steady_run (fuel : Nat) (h : s.world.monitor.Steady) :
    (settle out.recorded moment fuel).run s = (.ok (), s) := by
  cases fuel with
  | zero => rfl
  | succ fuel =>
      rw [settle_succ, h.next_eq_none, h.pending_eq_none]
      rfl

/-- The worker of an orderly monitor catches up before time passes. -/
theorem advance_settled (h : s.world.monitor.Orderly) :
    ∃ t : Watch σ, t.world.monitor.Steady ∧ ∀ seconds,
      (advance out.recorded moment seconds).run s =
        (advanceTo out.recorded moment (t.world.monitor.clock + seconds) (seconds / 60 + 1)).run
          t := by
  have hsettled := settle_orderly out moment (show 2 ≤ settleSteps by decide) h
  refine ⟨((settle out.recorded moment settleSteps).run s).2, ?_, ?_⟩
  · rw [hsettled.monitor]
    exact h.caught_up_steady
  · intro seconds
    rw [hsettled.monitor, caught_up_clock]
    exact Action.run_bind_ok (Prod.ext hsettled.result rfl) _

/-- The worker of a steady monitor has nothing to catch up with. -/
theorem advance_steady (seconds : Nat) (h : s.world.monitor.Steady) :
    (advance out.recorded moment seconds).run s =
      (advanceTo out.recorded moment (s.world.monitor.clock + seconds) (seconds / 60 + 1)).run s :=
  Action.run_bind_ok (settle_steady_run out moment settleSteps h) _

/-- Time that passes by a steady monitor up to some time may stop on the way. -/
theorem advance_to_steady_parts (a b : Nat) (h : s.world.monitor.Steady) :
    (advanceTo out.recorded moment (s.world.monitor.clock + a) (a / 60 + 1) >>= fun _ =>
        advanceTo out.recorded moment (s.world.monitor.clock + a + b) (b / 60 + 1)).run s =
      (advanceTo out.recorded moment (s.world.monitor.clock + (a + b)) ((a + b) / 60 + 1)).run s := by
  rw [Nat.add_assoc]
  cases h with
  | off hworker _ =>
      exact advance_to_parts_untimed out moment _ _ _ _ _ (by simp only [due?, hworker])
  | dormant hworker _ _ =>
      exact advance_to_parts_untimed out moment _ _ _ _ _ (by simp only [due?, hworker])
  | armed due hworker hon _ hsoon =>
      exact advance_to_parts out moment hworker hon (by omega) (by omega) (by omega) (by omega)

/-- Time that passes in two parts leaves an orderly monitor, its world and the journal as time
that passes at once. -/
theorem advance_add (a b : Nat) (h : s.world.monitor.Orderly) :
    (advance out.recorded moment (a + b)).run s =
      (advance out.recorded moment a >>= fun _ => advance out.recorded moment b).run s := by
  obtain ⟨t, hsteady, hgo⟩ := advance_settled out moment h
  rw [hgo (a + b), Action.run_bind, hgo a, ← Action.run_bind]
  -- once the worker has caught up, only the timer matters
  obtain ⟨m, news, hpassed, hleaves⟩ := advance_to_passed out moment a hsteady
  obtain ⟨u, hu⟩ : ∃ u, (advanceTo out.recorded moment (t.world.monitor.clock + a)
      (a / 60 + 1)).run t = (.ok (), u) := ⟨_, Prod.ext hleaves.result rfl⟩
  obtain rfl : u.world.monitor = m := by rw [← hleaves.monitor, hu]
  rw [Action.run_bind_ok hu, advance_steady out moment b hpassed.steady, hpassed.clock,
    ← advance_to_steady_parts out moment a b hsteady, Action.run_bind_ok hu]

end CustomerDedupe.Monitor
