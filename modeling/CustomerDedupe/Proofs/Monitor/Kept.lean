import CustomerDedupe.Proofs.Monitor.History
import CustomerDedupe.Proofs.Settings.Subscribers

/-!
# What commands keep

A monitor that has been given commands is orderly, and the log tells its settings, how far the
worker has taken notice of them, and the count notified last (`Kept`). Each command leaves a
monitor and a log of which this is true again (`perform_keeps`), and so does a history
(`ran_kept`).
-/

namespace CustomerDedupe.Monitor

variable {σ : Type} {m : Monitor}

/-- The monitor with a change of its settings. -/
def changed (m : Monitor) (change : Settings → Settings) : Monitor :=
  { m with hub := (m.hub.update change).2 }

/-- Settings that are the same to the monitor have the same interval. -/
theorem interval_eq {s t : Settings} (hsame : s.monitorSettings = t.monitorSettings) :
    interval s = interval t :=
  congrArg (fun s => 60 * (max 1 s.monitorIntervalMinutes).toNat) hsame

/-- A change that does not matter to the monitor leaves it at rest. -/
theorem Steady.changed {change : Settings → Settings} (h : m.Steady)
    (hsame : (change m.hub.current).monitorSettings = m.hub.current.monitorSettings) :
    (m.changed change).Steady := by
  have hversion : (m.changed change).hub.version = m.hub.version := by
    rw [Monitor.changed, SettingsHub.update_version, if_pos hsame]
  have henabled : (m.changed change).hub.current.enabled = m.hub.current.enabled := by
    rw [Monitor.changed, SettingsHub.update_current]
    exact congrArg Settings.MonitorSettings.enabled hsame
  have hinterval : interval (m.changed change).hub.current = interval m.hub.current := by
    rw [Monitor.changed, SettingsHub.update_current]
    exact interval_eq hsame
  cases h with
  | off hworker hshown => exact .off hworker hshown
  | dormant hworker hoff hshown =>
      exact .dormant (hversion ▸ hworker) (henabled.trans hoff) hshown
  | armed due hworker hon hshown hsoon =>
      refine .armed due (hversion ▸ hworker) (henabled.trans hon) hshown ?_
      rw [hinterval]
      exact hsoon

/-- A monitor at rest falls behind with a change that matters to it, if it has a worker. -/
theorem Steady.changed_behind {change : Settings → Settings} (h : m.Steady)
    (hdiffers : (change m.hub.current).monitorSettings ≠ m.hub.current.monitorSettings) :
    (m.changed change).Orderly := by
  have hversion : m.hub.version < (m.changed change).hub.version := by
    rw [Monitor.changed, SettingsHub.update_version, if_neg hdiffers]
    exact Nat.lt_succ_self _
  cases h with
  | off hworker hshown => exact .steady (.off hworker hshown)
  | dormant hworker _ _ => exact .behind ⟨_, _, hworker, .inl rfl, hversion⟩
  | armed due hworker _ _ _ => exact .behind ⟨_, _, hworker, .inr ⟨due, rfl⟩, hversion⟩

theorem changed_version_le (m : Monitor) (change : Settings → Settings) :
    m.hub.version ≤ (m.changed change).hub.version := by
  rw [Monitor.changed, SettingsHub.update_version]
  split
  · exact Nat.le_refl _
  · exact Nat.le_succ _

/-- A worker that has missed a change has still missed it after the next one. -/
theorem Missed.changed (h : m.Missed) (change : Settings → Settings) :
    (m.changed change).Missed := by
  obtain ⟨seen, phase, hworker, hwaits, hseen⟩ := h
  exact ⟨seen, phase, hworker, hwaits, Nat.lt_of_lt_of_le hseen (changed_version_le m change)⟩

/-- A change of the settings keeps a monitor orderly. -/
theorem Orderly.changed (h : m.Orderly) (change : Settings → Settings) :
    (m.changed change).Orderly := by
  cases h with
  | steady h =>
      by_cases hsame : (change m.hub.current).monitorSettings = m.hub.current.monitorSettings
      · exact .steady (h.changed hsame)
      · exact h.changed_behind hsame
  | fresh hworker hseen =>
      exact .fresh hworker (Nat.le_trans hseen (changed_version_le m change))
  | behind h => exact .behind (h.changed change)

/-- No worker has seen a version that is still to come. -/
theorem Orderly.seen_le (h : m.Orderly) {w : Worker} (hworker : m.worker = some w) :
    w.seen ≤ m.hub.version := by
  have hseen {seen : Nat} {phase : Phase} (h : m.worker = some ⟨seen, phase⟩)
      (hle : seen ≤ m.hub.version) : w.seen ≤ m.hub.version := by
    obtain rfl := Option.some.inj (hworker.symm.trans h)
    exact hle
  cases h with
  | steady h =>
      cases h with
      | off hnone _ => simp [hnone] at hworker
      | dormant h _ _ => exact hseen h (Nat.le_refl _)
      | armed due h _ _ _ => exact hseen h (Nat.le_refl _)
  | fresh h hle => exact hseen h hle
  | behind h =>
      obtain ⟨_, _, h, _, hlt⟩ := h
      exact hseen h (Nat.le_of_lt hlt)

/-- A worker that has looked at the settings misses the changes that matter to the monitor. -/
theorem Orderly.changed_view (h : m.Orderly) (change : Settings → Settings) :
    (m.changed change).view = m.view.after m.hub.current (.updated (change m.hub.current)) := by
  cases hworker : m.worker with
  | none => simp only [Monitor.changed, view, hworker, View.after]
  | some w =>
      obtain ⟨seen, phase⟩ := w
      have hseen : seen ≤ m.hub.version := h.seen_le hworker
      have hmissed : (seen != (m.hub.update change).2.version) =
          (seen != m.hub.version ||
            (change m.hub.current).monitorSettings != m.hub.current.monitorSettings) := by
        rw [SettingsHub.update_version]
        split
        next hsame => simp [hsame]
        next hdiffers =>
          have hnew : (seen != m.hub.version + 1) = true :=
            bne_iff_ne.mpr (Nat.ne_of_lt (Nat.lt_succ_of_le hseen))
          have hchange : ((change m.hub.current).monitorSettings !=
              m.hub.current.monitorSettings) = true := bne_iff_ne.mpr hdiffers
          rw [hnew, hchange, Bool.or_true]
      cases phase with
      | fresh => simp only [Monitor.changed, view, hworker, View.after]
      | dormant | armed _ | evaluating _ =>
          simp only [Monitor.changed, view, hworker, View.after, hmissed]

/-- The count notified last does not matter to the worker between evaluations. -/
theorem Steady.counted (h : m.Steady) (k : Nat) : ({ m with lastCount := k } : Monitor).Steady := by
  cases h with
  | off hworker hshown => exact .off hworker hshown
  | dormant hworker hoff hshown => exact .dormant hworker hoff hshown
  | armed due hworker hon hshown hsoon => exact .armed due hworker hon hshown hsoon

theorem Orderly.counted (h : m.Orderly) (k : Nat) :
    ({ m with lastCount := k } : Monitor).Orderly := by
  cases h with
  | steady h => exact .steady (h.counted k)
  | fresh hworker hseen => exact .fresh hworker hseen
  | behind h => exact .behind h

@[simp] theorem started_hub (m : Monitor) : m.started.hub = m.hub := by
  unfold Monitor.started
  split <;> rfl

@[simp] theorem started_last_count (m : Monitor) : m.started.lastCount = m.lastCount := by
  unfold Monitor.started
  split <;> rfl

@[simp] theorem stopped_hub (m : Monitor) : m.stopped.hub = m.hub := by
  unfold Monitor.stopped
  split <;> rfl

@[simp] theorem stopped_last_count (m : Monitor) : m.stopped.lastCount = m.lastCount := by
  unfold Monitor.stopped
  split <;> rfl

/-- A worker that is put to work is about to look at the settings. -/
theorem Orderly.started (h : m.Orderly) :
    m.started.Orderly ∧ m.started.view = m.view.after m.hub.current .started := by
  unfold Monitor.started
  split
  next w hworker =>
    have hhere : m.view ≠ .away := by simp [view_eq_away_iff, hworker]
    exact ⟨h, by rw [View.after, if_neg hhere]⟩
  next hworker =>
    have haway : m.view = .away := (view_eq_away_iff m).mpr hworker
    exact ⟨.fresh rfl (Nat.le_refl _), by rw [View.after, if_pos haway, view]⟩

/-- A monitor whose worker has been stopped is at rest. -/
theorem Orderly.stopped (h : m.Orderly) :
    m.stopped.Steady ∧ m.stopped.view = m.view.after m.hub.current .stopped := by
  unfold Monitor.stopped
  split
  next hworker =>
    refine ⟨?_, (view_eq_away_iff m).mpr hworker⟩
    cases h with
    | steady h => exact h
    | fresh h _ => simp [hworker] at h
    | behind h =>
        obtain ⟨_, _, h, _⟩ := h
        simp [hworker] at h
  next w hworker => exact ⟨.off rfl rfl, by rw [View.after, view]⟩

/-! ## Commands -/

section Perform

variable (out : Outside σ) (moment : Moment)

/-- A command is carried out with itself in the log. -/
theorem perform_leaves (c : Command) (s : Watch σ) :
    ∃ t : Watch σ, t.world.monitor = s.world.monitor ∧
      t.world.outside.log = c.events s.world.monitor ++ s.world.outside.log ∧
      ∀ {r m log}, Leaves (c.act out.recorded moment) t r m log →
        Leaves (c.perform out moment) s r m log := by
  have hnoted : Leaves (.change fun w : Watched (Recorded σ) =>
      { w with outside := { w.outside with log := c.events w.monitor ++ w.outside.log } }) s
      (.ok ()) s.world.monitor (c.events s.world.monitor ++ s.world.outside.log) :=
    ⟨rfl, rfl, rfl⟩
  exact hnoted.next fun _ => c.act out.recorded moment

theorem perform_run_once (s : Watch σ) :
    ∃ r k news, Evaluated s.world.monitor.hub.current moment s.world.monitor.lastCount news r k ∧
      Leaves (Command.runOnce.perform out moment) s (.ok ())
        { s.world.monitor with lastCount := k } (news ++ s.world.outside.log) := by
  obtain ⟨t, hm, hlog, hgo⟩ := perform_leaves out moment .runOnce s
  obtain ⟨r, k, news, hevaluated, hleaves⟩ := run_once_evaluates out moment t
  rw [hm] at hevaluated
  rw [hm, hlog] at hleaves
  obtain ⟨u, hm', hlog', hgo'⟩ := hleaves.outcome.next fun _ => pure ()
  have hdone := hgo' (Leaves.pure () u)
  rw [hm', hlog'] at hdone
  exact ⟨r, k, news, hevaluated, hgo hdone⟩

theorem perform_turn {s : Watch σ} (h : s.world.monitor.Orderly) :
    Leaves (Command.turn.perform out moment) s (.ok ()) s.world.monitor.caughtUp
      (.turned (s.world.monitor.view = .looked true) :: s.world.outside.log) := by
  obtain ⟨t, hm, hlog, hgo⟩ := perform_leaves out moment .turn s
  have hsettled := settle_orderly out moment (s := t) (show 2 ≤ settleSteps by decide) (hm ▸ h)
  rw [hm, hlog] at hsettled
  exact hgo hsettled

theorem perform_advance (seconds : Nat) {s : Watch σ} (h : s.world.monitor.Orderly) :
    ∃ m news, Passed s.world.monitor.caughtUp m moment seconds news ∧
      Leaves ((Command.advance seconds).perform out moment) s (.ok ()) m
        (news ++ .turned (s.world.monitor.view = .looked true) :: s.world.outside.log) := by
  obtain ⟨t, hm, hlog, hgo⟩ := perform_leaves out moment (.advance seconds) s
  obtain ⟨m, news, hpassed, hleaves⟩ := advance_passed out moment (s := t) seconds (hm ▸ h)
  rw [hm] at hpassed
  rw [hlog] at hleaves
  exact ⟨m, news, hpassed, hgo hleaves⟩

theorem perform_update (change : Settings → Settings) (s : Watch σ) :
    Leaves ((Command.update change).perform out moment) s (.ok ())
      (s.world.monitor.changed change)
      (.updated (change s.world.monitor.hub.current) :: s.world.outside.log) :=
  ⟨rfl, rfl, rfl⟩

theorem perform_start (s : Watch σ) :
    Leaves (Command.start.perform out moment) s (.ok ()) s.world.monitor.started
      (.started :: s.world.outside.log) := by
  obtain ⟨⟨⟨hub, clock, k, shown, worker⟩, outside⟩, journal⟩ := s
  cases worker <;> exact ⟨rfl, rfl, rfl⟩

theorem perform_shutdown (s : Watch σ) :
    Leaves (Command.shutdown.perform out moment) s (.ok ()) s.world.monitor.stopped
      (.stopped :: s.world.outside.log) := by
  obtain ⟨⟨⟨hub, clock, k, shown, worker⟩, outside⟩, journal⟩ := s
  cases worker <;> exact ⟨rfl, rfl, rfl⟩

end Perform

/-! ## What is always true -/

/-- What is true of a monitor that has been given commands, and of the log. -/
structure Kept (initial : Settings) (m : Monitor) (log : List Event) : Prop where
  orderly : m.Orderly
  tells : Tells initial log m.hub.current m.view m.lastCount

namespace Kept

variable {initial : Settings} {log news : List Event} {moment : Moment}

theorem new (hub : SettingsHub) : Kept hub.current (.new hub) [] :=
  ⟨.steady (.off rfl rfl), .nil hub.current⟩

theorem evaluated (h : Kept initial m log) {r : Except Failure TickOutcome} {k : Nat}
    (he : Evaluated m.hub.current moment m.lastCount news r k) :
    Kept initial { m with lastCount := k } (news ++ log) :=
  ⟨h.orderly.counted k, h.tells.evaluated he⟩

/-- The log tells whether a worker that catches up has missed a change. -/
theorem turned (h : Kept initial m log) :
    Kept initial m.caughtUp (.turned (m.view = .looked true) :: log) := by
  have hobeys : Obeys initial log (.turned (m.view = .looked true)) := by
    rw [Obeys, ← h.tells.view, decide_eq_true_iff]
  have htells := h.tells.cons hobeys
  refine ⟨.steady h.orderly.caught_up_steady, ?_⟩
  rw [caught_up_hub, caught_up_view, caught_up_last_count]
  by_cases hmissed : m.view = .looked true
  · simpa [hmissed, Event.settings?, Event.count?, View.after] using htells
  · simpa [hmissed, Event.settings?, Event.count?, View.after] using htells

theorem passed (h : Kept initial m log) {m' : Monitor} {seconds : Nat}
    (hpassed : Passed m.caughtUp m' moment seconds news) :
    Kept initial m' (news ++ .turned (m.view = .looked true) :: log) := by
  refine ⟨.steady hpassed.steady, ?_⟩
  rw [hpassed.hub, hpassed.view]
  exact h.turned.tells.evaluations hpassed.evaluations

theorem updated (h : Kept initial m log) (change : Settings → Settings) :
    Kept initial (m.changed change) (.updated (change m.hub.current) :: log) := by
  refine ⟨h.orderly.changed change, ?_⟩
  rw [h.orderly.changed_view, changed, SettingsHub.update_current]
  exact h.tells.cons trivial

theorem started (h : Kept initial m log) : Kept initial m.started (.started :: log) := by
  refine ⟨h.orderly.started.1, ?_⟩
  rw [h.orderly.started.2, started_hub, started_last_count]
  exact h.tells.cons trivial

theorem stopped (h : Kept initial m log) : Kept initial m.stopped (.stopped :: log) := by
  refine ⟨.steady h.orderly.stopped.1, ?_⟩
  rw [h.orderly.stopped.2, stopped_hub, stopped_last_count]
  exact h.tells.cons trivial

end Kept

variable (out : Outside σ)

/-- A command succeeds and keeps what is true. -/
theorem perform_keeps (moment : Moment) (c : Command) {initial : Settings} {s : Watch σ}
    (h : Kept initial s.world.monitor s.world.outside.log) :
    ∃ m log, Leaves (c.perform out moment) s (.ok ()) m log ∧ Kept initial m log := by
  cases c with
  | runOnce =>
      obtain ⟨r, k, news, hevaluated, hleaves⟩ := perform_run_once out moment s
      exact ⟨_, _, hleaves, h.evaluated hevaluated⟩
  | turn => exact ⟨_, _, perform_turn out moment h.orderly, h.turned⟩
  | advance seconds =>
      obtain ⟨m, news, hpassed, hleaves⟩ := perform_advance out moment seconds h.orderly
      exact ⟨_, _, hleaves, h.passed hpassed⟩
  | update change => exact ⟨_, _, perform_update out moment change s, h.updated change⟩
  | start => exact ⟨_, _, perform_start out moment s, h.started⟩
  | shutdown => exact ⟨_, _, perform_shutdown out moment s, h.stopped⟩

/-- So do commands after one another. -/
theorem perform_all_keeps (history : List (Moment × Command)) {initial : Settings} {s : Watch σ}
    (h : Kept initial s.world.monitor s.world.outside.log) :
    ∃ m log, Leaves (performAll out history) s (.ok ()) m log ∧ Kept initial m log := by
  induction history generalizing s with
  | nil => exact ⟨_, _, Leaves.pure () s, h⟩
  | cons step rest ih =>
      obtain ⟨moment, c⟩ := step
      obtain ⟨m, log, hleaves, hkept⟩ := perform_keeps out moment c h
      obtain ⟨t, hm, hlog, hgo⟩ := hleaves.next fun _ => performAll out rest
      rw [← hm, ← hlog] at hkept
      obtain ⟨m', log', hleaves', hkept'⟩ := ih hkept
      exact ⟨m', log', hgo hleaves', hkept'⟩

/-- What is true after every history. -/
theorem ran_kept (hub : SettingsHub) (o : σ) (history : List (Moment × Command)) :
    Kept hub.current (ran out hub o history).monitor (ran out hub o history).outside.log := by
  obtain ⟨m, log, hleaves, hkept⟩ := perform_all_keeps out history
    (s := ⟨⟨.new hub, ⟨o, []⟩⟩, []⟩) (Kept.new hub)
  rw [← hleaves.monitor, ← hleaves.log] at hkept
  exact hkept

end CustomerDedupe.Monitor
