import CustomerDedupe.Proofs.Monitor.Parts
import CustomerDedupe.Proofs.Monitor.RunState

/-!
# The schedule of scans

When a monitor scans is told by its commands alone. The intervals count from the start of the
worker or from the last change of what matters to the monitor, whichever is later; at the end of
each the worker scans, if monitoring is on (`Plan.Due`). Every command keeps a monitor `OnPlan`,
whatever the scans come to, and so time that passes after any history makes exactly the scans that
are due (`scans_on_schedule`).
-/

namespace CustomerDedupe.Monitor

variable {σ : Type}

/-- What commands tell of the scans to come: the time, the settings, and since when the intervals
count, if a worker is at work. -/
structure Plan where
  clock : Nat
  settings : Settings
  since? : Option Nat

namespace Plan

/-- Before any command. -/
def new (hub : SettingsHub) : Plan :=
  ⟨0, hub.current, none⟩

/-- The plan after a command. -/
def after (p : Plan) : Command → Plan
  | .runOnce | .turn => p
  | .advance seconds => { p with clock := p.clock + seconds }
  | .update change =>
    { p with
      settings := change p.settings
      since? :=
        if (change p.settings).monitorSettings = p.settings.monitorSettings then p.since?
        else p.since?.map fun _ => p.clock }
  | .start => { p with since? := p.since?.or (some p.clock) }
  | .shutdown => { p with since? := none }

/-- A scan is due at some time. -/
def Due (p : Plan) (t : Nat) : Prop :=
  p.settings.enabled = true ∧
    ∃ t₀, p.since? = some t₀ ∧ ∃ j, t = t₀ + (j + 1) * interval p.settings

end Plan

/-- The plan of a history. -/
def planned (hub : SettingsHub) (history : List (Moment × Command)) : Plan :=
  history.foldl (fun p step => p.after step.2) (.new hub)

/-- A monitor goes by a plan: once its worker has caught up, the timer is set for a time at which
a scan is due. -/
structure OnPlan (m : Monitor) (p : Plan) : Prop where
  clock : m.clock = p.clock
  settings : m.hub.current = p.settings
  atWork : m.worker.isSome = p.since?.isSome
  due : ∀ due, m.caughtUp.due? = some due → p.Due due

/-! ## The timer of a worker that has caught up -/

variable {m : Monitor}

/-- Only a worker that waits for the timer has one set. -/
theorem due_eq_some_iff {due : Nat} :
    m.due? = some due ↔ ∃ seen, m.worker = some ⟨seen, .armed due⟩ := by
  unfold due?
  split
  next seen due' hworker => simp [hworker]
  next hother =>
    simp only [reduceCtorEq, false_iff, not_exists]
    exact fun seen hworker => hother seen due hworker

/-- A worker that looks at the settings sets the timer for an interval later, if monitoring is
on. -/
theorem rearmed_due (m : Monitor) :
    m.rearmed.due? =
      if m.hub.current.enabled then some (m.clock + interval m.hub.current) else none := by
  unfold rearmed
  split <;> rfl

/-- There is a worker after catching up if there was one before. -/
theorem caught_up_worker (m : Monitor) : m.caughtUp.worker.isSome = m.worker.isSome := by
  have haway : m.caughtUp.view = .away ↔ m.view = .away := by
    rw [caught_up_view]
    split <;> simp_all
  rw [view_eq_away_iff, view_eq_away_iff] at haway
  cases hafter : m.caughtUp.worker <;> cases hbefore : m.worker <;> simp_all

/-- A worker that catches up sets the timer anew if it is about to look at the settings or has
missed a change, and otherwise leaves it as it is. -/
theorem caught_up_due (m : Monitor) :
    m.caughtUp.due? =
      if m.view = .fresh ∨ m.view = .looked true then
        if m.hub.current.enabled then some (m.clock + interval m.hub.current) else none
      else m.due? := by
  unfold caughtUp
  split
  next hview => simp [hview]
  next hview => simp [hview]
  next hview => simp [hview, rearmed_due]
  next hview => simp [hview, rearmed_due]

/-- The count notified last has nothing to do with the timer. -/
theorem counted_due (m : Monitor) (k : Nat) :
    ({ m with lastCount := k } : Monitor).caughtUp.due? = m.caughtUp.due? := by
  rw [caught_up_due, caught_up_due]
  rfl

/-- A change that does not matter to the monitor leaves the timer as it is. -/
theorem changed_due (h : m.Orderly) {change : Settings → Settings}
    (hsame : (change m.hub.current).monitorSettings = m.hub.current.monitorSettings) :
    (m.changed change).caughtUp.due? = m.caughtUp.due? := by
  have hview : (m.changed change).view = m.view := by
    rw [h.changed_view]
    cases hview : m.view <;> simp [View.after, hsame]
  have henabled : (m.changed change).hub.current.enabled = m.hub.current.enabled := by
    rw [Monitor.changed, SettingsHub.update_current]
    exact congrArg Settings.MonitorSettings.enabled hsame
  have hinterval : interval (m.changed change).hub.current = interval m.hub.current := by
    rw [Monitor.changed, SettingsHub.update_current]
    exact interval_eq hsame
  rw [caught_up_due, caught_up_due, hview, henabled, hinterval]
  rfl

/-- A worker that is about to look at the settings or has missed a change sets the timer for an
interval later, if it sets one. -/
theorem due_of_caught_up_anew {due : Nat} (hview : m.view = .fresh ∨ m.view = .looked true)
    (hdue : m.caughtUp.due? = some due) :
    m.hub.current.enabled = true ∧ due = m.clock + interval m.hub.current := by
  rw [caught_up_due, if_pos hview] at hdue
  split at hdue
  next hon => exact ⟨hon, (Option.some.inj hdue).symm⟩
  next => simp at hdue

/-- A worker, if there is one, is about to look at settings that have changed for it, or has
missed the change. -/
theorem changed_view_anew (h : m.Orderly) {change : Settings → Settings}
    (hdiffers : (change m.hub.current).monitorSettings ≠ m.hub.current.monitorSettings)
    (hworker : m.worker.isSome = true) :
    (m.changed change).view = .fresh ∨ (m.changed change).view = .looked true := by
  rw [h.changed_view]
  cases hview : m.view with
  | away => simp [(view_eq_away_iff m).mp hview] at hworker
  | fresh => exact .inl rfl
  | looked changed => exact .inr (by simp [View.after, hdiffers])

/-- The timer is set only by a worker. -/
theorem worker_of_due {due : Nat} (hdue : m.caughtUp.due? = some due) :
    m.worker.isSome = true := by
  obtain ⟨seen, hworker⟩ := due_eq_some_iff.mp hdue
  rw [← caught_up_worker, hworker]
  rfl

/-! ## Commands and plans -/

namespace OnPlan

variable {p : Plan}

theorem new (hub : SettingsHub) : OnPlan (.new hub) (.new hub) :=
  ⟨rfl, rfl, rfl, nofun⟩

theorem counted (h : OnPlan m p) (k : Nat) : OnPlan { m with lastCount := k } p :=
  ⟨h.clock, h.settings, h.atWork, fun due hdue => h.due due (counted_due m k ▸ hdue)⟩

theorem turned (h : OnPlan m p) (horderly : m.Orderly) : OnPlan m.caughtUp p where
  clock := (caught_up_clock m).trans h.clock
  settings := (congrArg SettingsHub.current (caught_up_hub m)).trans h.settings
  atWork := (caught_up_worker m).trans h.atWork
  due due hdue := by
    rw [horderly.caught_up_steady.caught_up_eq] at hdue
    exact h.due due hdue

theorem changed (h : OnPlan m p) (horderly : m.Orderly) (change : Settings → Settings) :
    OnPlan (m.changed change) (p.after (.update change)) where
  clock := h.clock
  settings := by
    rw [Monitor.changed, SettingsHub.update_current, h.settings]
    rfl
  atWork := by
    rw [Plan.after]
    split
    · exact h.atWork
    · rw [Option.isSome_map]
      exact h.atWork
  due due hdue := by
    rw [Plan.Due, Plan.after, ← h.settings]
    by_cases hsame : (change m.hub.current).monitorSettings = m.hub.current.monitorSettings
    · rw [changed_due horderly hsame] at hdue
      obtain ⟨hon, t₀, hsince, j, rfl⟩ := h.due due hdue
      rw [← h.settings] at hon ⊢
      refine ⟨(congrArg Settings.MonitorSettings.enabled hsame).trans hon, t₀, ?_, j, ?_⟩
      · rw [if_pos hsame]
        exact hsince
      · rw [interval_eq hsame]
    · have hworker : m.worker.isSome = true := worker_of_due (m := m.changed change) hdue
      obtain ⟨hon, hanew⟩ :=
        due_of_caught_up_anew (changed_view_anew horderly hsame hworker) hdue
      rw [Monitor.changed, SettingsHub.update_current] at hon hanew
      obtain ⟨t₀, hsince⟩ := Option.isSome_iff_exists.mp (h.atWork.symm.trans hworker)
      refine ⟨hon, m.clock, ?_, 0, ?_⟩
      · rw [if_neg hsame, hsince, h.clock]
        rfl
      · rw [hanew, Nat.zero_add, Nat.one_mul]

theorem started (h : OnPlan m p) : OnPlan m.started (p.after .start) := by
  have hwork := h.atWork
  cases hworker : m.worker with
  | some w =>
      rw [hworker, eq_comm, Option.isSome_some, Option.isSome_iff_exists] at hwork
      obtain ⟨t₀, hsince⟩ := hwork
      have hplan : p.after .start = p := by
        rw [Plan.after, hsince, Option.some_or, ← hsince]
      rw [hplan, Monitor.started, hworker]
      exact h
  | none =>
      rw [hworker, eq_comm, Option.isSome_none, Option.isSome_eq_false_iff,
        Option.isNone_iff_eq_none] at hwork
      rw [Monitor.started, hworker, Plan.after, hwork, Option.none_or]
      refine ⟨h.clock, h.settings, rfl, ?_⟩
      intro due hdue
      obtain ⟨hon, rfl⟩ := due_of_caught_up_anew (.inl rfl) hdue
      rw [Plan.Due, ← h.settings]
      exact ⟨hon, p.clock, rfl, 0, by rw [Nat.zero_add, Nat.one_mul, ← h.clock]⟩

theorem stopped (h : OnPlan m p) : OnPlan m.stopped (p.after .shutdown) := by
  have hworker : m.stopped.worker = none := by
    unfold Monitor.stopped
    split
    next hnone => exact hnone
    next => rfl
  refine ⟨?_, ?_, ?_, ?_⟩
  · rw [Plan.after, ← h.clock, Monitor.stopped]
    split <;> rfl
  · rw [stopped_hub]
    exact h.settings
  · rw [hworker]
    rfl
  · intro due hdue
    have hsome := worker_of_due hdue
    simp [hworker] at hsome

theorem passed (h : OnPlan m p) {m' : Monitor} {moment : Moment} {seconds : Nat}
    {news : List Event} (hpassed : Passed m.caughtUp m' moment seconds news) :
    OnPlan m' (p.after (.advance seconds)) where
  clock := by
    rw [hpassed.clock, caught_up_clock, h.clock]
    rfl
  settings := by
    rw [hpassed.hub, caught_up_hub]
    exact h.settings
  atWork := by
    have haway : m'.worker = none ↔ m.caughtUp.worker = none := by
      rw [← view_eq_away_iff, ← view_eq_away_iff, hpassed.view]
    have hsame : m'.worker.isSome = m.caughtUp.worker.isSome := by
      cases hafter : m'.worker <;> cases hbefore : m.caughtUp.worker <;> simp_all
    rw [hsame, caught_up_worker]
    exact h.atWork
  due due hdue := by
    rw [hpassed.steady.caught_up_eq, hpassed.due] at hdue
    obtain ⟨first, hfirst, rfl⟩ := Option.map_eq_some_iff.mp hdue
    obtain ⟨hon, t₀, hsince, j, rfl⟩ := h.due first hfirst
    refine ⟨hon, t₀, hsince, j + news.length, ?_⟩
    rw [caught_up_hub, h.settings, Nat.add_assoc, ← Nat.add_mul, Nat.add_right_comm]
    rfl

end OnPlan

/-- The timer of a worker that has caught up is set for the next second exactly if a scan is due
then. -/
theorem OnPlan.due_next_iff {p : Plan} (h : OnPlan m p) (horderly : m.Orderly) :
    m.caughtUp.due? = some (p.clock + 1) ↔ p.Due (p.clock + 1) := by
  refine ⟨h.due _, ?_⟩
  intro hnext
  obtain ⟨hon, t₀, hsince, j, hj⟩ := hnext
  cases horderly.caught_up_steady with
  | off hworker _ =>
      have hwork := h.atWork
      rw [← caught_up_worker, hworker, hsince] at hwork
      simp at hwork
  | dormant _ hoff _ =>
      rw [caught_up_hub, h.settings, hon] at hoff
      simp at hoff
  | armed due hworker _ _ hsoon =>
      have hdue : m.caughtUp.due? = some due := by simp only [due?, hworker]
      obtain ⟨-, t₁, hsince', i, rfl⟩ := h.due due hdue
      obtain rfl : t₁ = t₀ := Option.some.inj (hsince'.symm.trans hsince)
      rw [caught_up_clock, caught_up_hub, h.clock, h.settings] at hsoon
      rw [hdue, hj]
      rcases Nat.lt_trichotomy i j with hlt | rfl | hlt
      · have hstep : (i + 1 + 1) * interval p.settings ≤ (j + 1) * interval p.settings :=
          Nat.mul_le_mul_right _ (Nat.succ_le_succ hlt)
        rw [Nat.succ_mul] at hstep
        omega
      · rfl
      · -- the timer would be set for more than an interval later
        have hstep : (j + 1 + 1) * interval p.settings ≤ (i + 1) * interval p.settings :=
          Nat.mul_le_mul_right _ (Nat.succ_le_succ hlt)
        rw [Nat.succ_mul] at hstep
        omega

/-- The scans of evaluations ask for what the settings say. -/
theorem Evaluations.looks {s : Settings} {moment : Moment} {k k' : Nat} {news : List Event}
    (h : Evaluations s moment k news k') :
    ∀ e ∈ news, ∃ look, e = .looked look ∧ look.days = s.days ∧
      look.includeFuzzy = s.includeFuzzy := by
  induction h with
  | none k =>
      intro e hmem
      simp at hmem
  | @more k k₁ k₂ news later r he hrest ih =>
      intro e hmem
      rcases List.mem_append.mp hmem with hmem | hmem
      · exact ih e hmem
      · have hasked := he.reports.asked
        cases he with
        | disabled => simp at hmem
        | scan_failed | no_duplicates | unchanged | refused | notified =>
            obtain rfl := List.mem_singleton.mp hmem
            exact ⟨_, rfl, hasked _ List.mem_cons_self⟩

end CustomerDedupe.Monitor
