import CustomerDedupe.Proofs.Monitor.Course

/-!
# The worker between evaluations

A monitor is `Steady` when its worker has nothing left to do, and `Orderly` when no evaluation is
under way and no timer is due. `settle` leaves a steady monitor alone, and takes an orderly one to
rest (`settle_orderly`). A timer that is due makes one evaluation and is set anew
(`settle_tick`).
-/

namespace CustomerDedupe.Monitor

/-- The monitor once its worker has looked at the settings and set the timer, if monitoring is
on. -/
def rearmed (m : Monitor) : Monitor :=
  if m.hub.current.enabled then
    { m with
      shown := .running
      worker := some ⟨m.hub.version, .armed (m.clock + interval m.hub.current)⟩ }
  else { m with shown := .idle, worker := some ⟨m.hub.version, .dormant⟩ }

/-- The monitor at some time, with a count notified last and the timer set. -/
def ticked (m : Monitor) (now k due : Nat) : Monitor :=
  { m with
    clock := now
    lastCount := k
    shown := .running
    worker := some ⟨m.hub.version, .armed due⟩ }

/-- The worker, if there is one, has seen the settings and waits for monitoring to be switched on,
or for a timer that will be due within an interval. -/
inductive Steady (m : Monitor) : Prop
  | off (hworker : m.worker = none) (hshown : m.shown = .idle)
  | dormant (hworker : m.worker = some ⟨m.hub.version, .dormant⟩)
      (hoff : m.hub.current.enabled = false) (hshown : m.shown = .idle)
  | armed (due : Nat) (hworker : m.worker = some ⟨m.hub.version, .armed due⟩)
      (hon : m.hub.current.enabled = true) (hshown : m.shown = .running)
      (hsoon : m.clock < due ∧ due ≤ m.clock + interval m.hub.current)

/-- A worker that is about to look at the settings does so. -/
theorem next_of_fresh {m : Monitor} {seen : Nat} (hworker : m.worker = some ⟨seen, .fresh⟩) :
    m.next? = some m.rearmed := by
  simp only [next?, hworker, rearmed]
  split <;> rfl

/-- How far the worker has taken notice of the settings. -/
inductive View where
  /-- There is no worker. -/
  | away
  /-- It is about to look at them. -/
  | fresh
  /-- It has looked at them. The flag tells whether they have changed since. -/
  | looked (changed : Bool)
  deriving DecidableEq, Repr

/-- How far the worker has taken notice of the settings. -/
def view (m : Monitor) : View :=
  match m.worker with
  | none => .away
  | some ⟨_, .fresh⟩ => .fresh
  | some ⟨seen, _⟩ => .looked (seen != m.hub.version)

/-- The monitor once its worker has done what is ready between two evaluations: if it has
missed a change, it forgets the count notified last and looks at the settings again. -/
def caughtUp (m : Monitor) : Monitor :=
  match m.view with
  | .away | .looked false => m
  | .fresh => m.rearmed
  | .looked true => { m with lastCount := 0 }.rearmed

/-- A worker waits for a timer, or for monitoring to be switched on. -/
def Phase.Waits (phase : Phase) : Prop :=
  phase = .dormant ∨ ∃ due, phase = .armed due

/-- The worker has missed a change of the settings while it was waiting. -/
def Missed (m : Monitor) : Prop :=
  ∃ seen phase, m.worker = some ⟨seen, phase⟩ ∧ phase.Waits ∧ seen < m.hub.version

/-- The worker has nothing left to do, or is about to look at the settings, or has missed a
change of them. -/
inductive Orderly (m : Monitor) : Prop
  | steady (h : m.Steady)
  | fresh {seen : Nat} (hworker : m.worker = some ⟨seen, .fresh⟩) (hseen : seen ≤ m.hub.version)
  | behind (h : m.Missed)

/-- Between two evaluations there is at least a minute. -/
theorem interval_ge (s : Settings) : 60 ≤ interval s := by
  unfold interval
  omega

@[simp] theorem rearmed_hub (m : Monitor) : m.rearmed.hub = m.hub := by
  unfold rearmed
  split <;> rfl

@[simp] theorem rearmed_clock (m : Monitor) : m.rearmed.clock = m.clock := by
  unfold rearmed
  split <;> rfl

@[simp] theorem rearmed_last_count (m : Monitor) : m.rearmed.lastCount = m.lastCount := by
  unfold rearmed
  split <;> rfl

/-- A worker that has looked at the settings has missed nothing. -/
theorem rearmed_view (m : Monitor) : m.rearmed.view = .looked false := by
  unfold rearmed
  split <;> simp only [view, bne_self_eq_false]

/-- A worker that has looked at the settings is at rest. -/
theorem rearmed_steady (m : Monitor) : m.rearmed.Steady := by
  have hminute := interval_ge m.hub.current
  unfold rearmed
  split
  next hon =>
    exact .armed (m.clock + interval m.hub.current) rfl hon rfl
      ⟨Nat.lt_add_of_pos_right (by omega), Nat.le_refl _⟩
  next hoff => exact .dormant rfl (Bool.eq_false_iff.mpr hoff) rfl

/-- The worker is away exactly if there is none. -/
theorem view_eq_away_iff (m : Monitor) : m.view = .away ↔ m.worker = none := by
  unfold view
  split <;> simp_all

/-- The worker of a steady monitor has missed nothing. -/
theorem Steady.view_eq {m : Monitor} (h : m.Steady) : m.view = .away ∨ m.view = .looked false := by
  cases h with
  | off hworker _ => exact .inl (by simp only [view, hworker])
  | dormant hworker _ _ => exact .inr (by simp only [view, hworker, bne_self_eq_false])
  | armed due hworker _ _ _ => exact .inr (by simp only [view, hworker, bne_self_eq_false])

theorem Steady.caught_up_eq {m : Monitor} (h : m.Steady) : m.caughtUp = m := by
  rcases h.view_eq with hview | hview <;> simp only [caughtUp, hview]

theorem Missed.view_eq {m : Monitor} (h : m.Missed) : m.view = .looked true := by
  obtain ⟨seen, phase, hworker, hwaits, hseen⟩ := h
  have hchanged : (seen != m.hub.version) = true := bne_iff_ne.mpr (Nat.ne_of_lt hseen)
  rcases hwaits with rfl | ⟨due, rfl⟩ <;> simp only [view, hworker, hchanged]

@[simp] theorem caught_up_hub (m : Monitor) : m.caughtUp.hub = m.hub := by
  unfold caughtUp
  split <;> simp

@[simp] theorem caught_up_clock (m : Monitor) : m.caughtUp.clock = m.clock := by
  unfold caughtUp
  split <;> simp

/-- A worker that catches up forgets the count notified last if it has missed a change. -/
theorem caught_up_last_count (m : Monitor) :
    m.caughtUp.lastCount = if m.view = .looked true then 0 else m.lastCount := by
  unfold caughtUp
  split <;> simp_all

/-- The worker has missed nothing once it has caught up. -/
theorem caught_up_view (m : Monitor) :
    m.caughtUp.view = if m.view = .away then .away else .looked false := by
  unfold caughtUp
  split <;> simp_all [rearmed_view]

/-- A worker that has caught up is at rest. -/
theorem Orderly.caught_up_steady {m : Monitor} (h : m.Orderly) : m.caughtUp.Steady := by
  cases h with
  | steady h =>
      rw [h.caught_up_eq]
      exact h
  | fresh hworker _ =>
      have hview : m.view = .fresh := by simp only [view, hworker]
      simp only [caughtUp, hview]
      exact rearmed_steady m
  | behind h =>
      simp only [caughtUp, h.view_eq]
      exact rearmed_steady _

/-- The worker of a steady monitor takes no step by itself. -/
theorem Steady.next_eq_none {m : Monitor} (h : m.Steady) : m.next? = none := by
  cases h with
  | off hworker _ => simp only [next?, hworker]
  | dormant hworker _ _ => simp only [next?, hworker, if_pos]
  | armed due hworker _ _ hsoon =>
      simp only [next?, hworker, ne_eq, not_true_eq_false, if_false]
      rw [if_neg (Nat.not_le_of_gt hsoon.1)]

/-- A steady monitor has no evaluation under way. -/
theorem Steady.pending_eq_none {m : Monitor} (h : m.Steady) : m.pending? = none := by
  cases h with
  | off hworker _ => simp only [pending?, hworker]
  | dormant hworker _ _ => simp only [pending?, hworker]
  | armed due hworker _ _ _ => simp only [pending?, hworker]

/-- A steady monitor is shown as running exactly if there is a worker and monitoring is on. -/
theorem Steady.shown_running_iff {m : Monitor} (h : m.Steady) :
    m.shown = .running ↔ m.worker.isSome = true ∧ m.hub.current.enabled = true := by
  cases h with
  | off hworker hshown => simp [hworker, hshown]
  | dormant hworker hoff hshown => simp [hworker, hoff, hshown]
  | armed due hworker hon hshown _ => simp [hworker, hon, hshown]

/-- An evaluation that is under way keeps the worker waiting for an answer. -/
theorem next_eq_none_of_evaluating {m : Monitor} {seen : Nat} {stage : Stage}
    (hworker : m.worker = some ⟨seen, .evaluating stage⟩) (hwaits : 0 < stage.rank) :
    m.next? = none ∧ m.pending? = some stage := by
  cases stage with
  | done r => exact absurd hwaits (Nat.lt_irrefl 0)
  | scanning _ | posting _ _ | storing _ => simp only [next?, pending?, hworker, and_self]

variable {σ : Type} (out : Outside σ) (moment : Moment)

section Settle

variable {s : Watch σ}

/-- One round of letting the worker do what is ready. -/
theorem settle_succ (fuel : Nat) (s : Watch σ) :
    (settle out.recorded moment (fuel + 1)).run s =
      ExceptT.run (match s.world.monitor.next?, s.world.monitor.pending? with
        | some next, _ => do
          noteStep s.world.monitor
          modify fun _ => next
          settle out.recorded moment fuel
        | none, some stage => do
          let stage ← stage.proceed out.recorded moment
          modify fun m => m.withStage stage
          settle out.recorded moment fuel
        | none, none => pure ()) s := rfl

/-- Nothing happens where nothing is ready. -/
theorem settle_rest (fuel : Nat) (hnext : s.world.monitor.next? = none)
    (hpending : s.world.monitor.pending? = none) :
    Leaves (settle out.recorded moment fuel) s (.ok ()) s.world.monitor s.world.outside.log := by
  cases fuel with
  | zero => exact Leaves.pure () s
  | succ fuel =>
      refine (Leaves.pure () s).of_run_eq ?_
      rw [settle_succ, hnext, hpending]

/-- A step of the worker that is ready is taken. -/
theorem settle_next (fuel : Nat) {next : Monitor} (hnext : s.world.monitor.next? = some next) :
    ∃ t : Watch σ, t.world.monitor = next ∧ t.world.outside.log = s.world.outside.log ∧
      ∀ {r m log}, Leaves (settle out.recorded moment fuel) t r m log →
        Leaves (settle out.recorded moment (fuel + 1)) s r m log := by
  have hnote : Leaves (noteStep s.world.monitor) s (.ok ()) s.world.monitor
      s.world.outside.log := by
    unfold noteStep
    split
    · exact Leaves.note _ _ s
    · exact Leaves.note _ _ s
    · split
      · exact Leaves.pure () s
      · exact Leaves.note _ _ s
    · exact Leaves.pure () s
  obtain ⟨t, hm, hlog, hgo⟩ := hnote.next fun _ => do
    modify fun _ => next
    settle out.recorded moment fuel
  obtain ⟨u, hm', hlog', hgo'⟩ := (Leaves.modify (fun _ => next) t).next fun _ =>
    settle out.recorded moment fuel
  refine ⟨u, hm', hlog'.trans hlog, ?_⟩
  intro r m log h
  refine (hgo (hgo' h)).of_run_eq ?_
  rw [settle_succ, hnext]

/-- An evaluation that is under way takes a step. -/
theorem settle_pending (fuel : Nat) {seen : Nat} {stage : Stage}
    (hworker : s.world.monitor.worker = some ⟨seen, .evaluating stage⟩)
    (hwaits : 0 < stage.rank) :
    ∃ signal next k, stage.Step moment s.world.monitor.lastCount signal next k ∧
      ∃ t : Watch σ,
        t.world.monitor = { s.world.monitor with
          lastCount := k, worker := some ⟨seen, .evaluating next⟩ } ∧
        t.world.outside.log = signal.log s.world.outside.log ∧
        ∀ {r m log}, Leaves (settle out.recorded moment fuel) t r m log →
          Leaves (settle out.recorded moment (fuel + 1)) s r m log := by
  obtain ⟨hnext, hpending⟩ := next_eq_none_of_evaluating hworker hwaits
  obtain ⟨signal, next, k, hstep, hleaves⟩ := proceed_step out moment stage hwaits s
  refine ⟨signal, next, k, hstep, ?_⟩
  obtain ⟨t, hm, hlog, hgo⟩ := hleaves.next fun stage => do
    modify fun m => m.withStage stage
    settle out.recorded moment fuel
  obtain ⟨u, hm', hlog', hgo'⟩ := (Leaves.modify (fun m => m.withStage next) t).next fun _ =>
    settle out.recorded moment fuel
  refine ⟨u, ?_, hlog'.trans hlog, ?_⟩
  · rw [hm', hm, withStage, hworker]
    rfl
  · intro r m log h
    refine (hgo (hgo' h)).of_run_eq ?_
    rw [settle_succ, hnext, hpending]

/-- An evaluation that is under way is taken to its end, along a course. -/
theorem settle_course {fuel seen : Nat} {stage : Stage} (hfuel : stage.rank ≤ fuel)
    (hworker : s.world.monitor.worker = some ⟨seen, .evaluating stage⟩) :
    ∃ r k log, Course moment stage s.world.monitor.lastCount s.world.outside.log r k log ∧
      ∃ (t : Watch σ) (left : Nat), fuel ≤ left + stage.rank ∧
        t.world.monitor = { s.world.monitor with
          lastCount := k, worker := some ⟨seen, .evaluating (.done r)⟩ } ∧
        t.world.outside.log = log ∧
        ∀ {r' m log'}, Leaves (settle out.recorded moment left) t r' m log' →
          Leaves (settle out.recorded moment fuel) s r' m log' := by
  -- each step takes one unit of fuel and brings the evaluation at least as much closer to its end
  induction fuel generalizing stage s with
  | zero =>
      rcases stage.done_or_rank_pos with ⟨r, rfl⟩ | hwaits
      · exact ⟨r, _, _, .done r _ _, s, 0, Nat.zero_le _, by rw [← hworker], rfl, id⟩
      · omega
  | succ fuel ih =>
      rcases stage.done_or_rank_pos with ⟨r, rfl⟩ | hwaits
      · exact ⟨r, _, _, .done r _ _, s, fuel + 1, Nat.le_add_right _ _, by rw [← hworker], rfl, id⟩
      · obtain ⟨signal, next, k, hstep, t, hm, hlog, hgo⟩ :=
          settle_pending out moment fuel hworker hwaits
        have hcloser := hstep.rank_lt
        have hnext : t.world.monitor.worker = some ⟨seen, .evaluating next⟩ := by rw [hm]
        obtain ⟨r, k', log', hcourse, u, left, hleft, hm', hlog', hgo'⟩ :=
          ih (Nat.le_of_lt_succ (Nat.lt_of_lt_of_le hcloser hfuel)) hnext
        rw [hm, hlog] at hcourse
        rw [hm] at hm'
        exact ⟨r, k', log', .step hstep hcourse, u, left, by omega, hm', hlog',
          fun h => hgo (hgo' h)⟩

/-- A steady monitor is left alone. -/
theorem settle_steady (fuel : Nat) (h : s.world.monitor.Steady) :
    Leaves (settle out.recorded moment fuel) s (.ok ()) s.world.monitor s.world.outside.log :=
  settle_rest out moment fuel h.next_eq_none h.pending_eq_none

/-- A worker that is about to look at the settings comes to rest. -/
theorem settle_fresh {fuel seen : Nat} (hfuel : 1 ≤ fuel)
    (hworker : s.world.monitor.worker = some ⟨seen, .fresh⟩) :
    Leaves (settle out.recorded moment fuel) s (.ok ()) s.world.monitor.rearmed
      s.world.outside.log := by
  obtain ⟨fuel, rfl⟩ := Nat.exists_eq_add_of_le' hfuel
  obtain ⟨t, hm, hlog, hgo⟩ := settle_next out moment fuel (next_of_fresh hworker)
  refine hgo ?_
  rw [← hm, ← hlog]
  refine settle_steady out moment fuel ?_
  rw [hm]
  exact rearmed_steady _

/-- A worker that has missed a change forgets the count notified last and looks at the settings. -/
theorem settle_notice {fuel : Nat} (hfuel : 2 ≤ fuel) (h : s.world.monitor.Missed) :
    Leaves (settle out.recorded moment fuel) s (.ok ())
      { s.world.monitor with lastCount := 0 }.rearmed s.world.outside.log := by
  obtain ⟨fuel, rfl⟩ := Nat.exists_eq_add_of_le' (Nat.le_of_succ_le hfuel)
  obtain ⟨seen, phase, hworker, hwaits, hseen⟩ := h
  have hchange : seen ≠ s.world.monitor.hub.version := Nat.ne_of_lt hseen
  have hnext : s.world.monitor.next? =
      some { s.world.monitor with lastCount := 0, worker := some ⟨seen, .fresh⟩ } := by
    rcases hwaits with rfl | ⟨due, rfl⟩
    · simp only [next?, hworker, if_neg hchange]
    · simp only [next?, hworker, ne_eq, hchange, not_false_eq_true, if_true]
  obtain ⟨t, hm, hlog, hgo⟩ := settle_next out moment fuel hnext
  have hfresh := settle_fresh out moment (Nat.le_of_succ_le_succ hfuel) (s := t) (by rw [hm])
  rw [hm, hlog] at hfresh
  refine hgo ?_
  have hrearmed : ({ s.world.monitor with
      lastCount := 0, worker := some ⟨seen, .fresh⟩ } : Monitor).rearmed =
      { s.world.monitor with lastCount := 0 }.rearmed := rfl
  rw [← hrearmed]
  exact hfresh

/-- The worker of an orderly monitor catches up. -/
theorem settle_orderly {fuel : Nat} (hfuel : 2 ≤ fuel) (h : s.world.monitor.Orderly) :
    Leaves (settle out.recorded moment fuel) s (.ok ()) s.world.monitor.caughtUp
      s.world.outside.log := by
  cases h with
  | steady h =>
      rw [h.caught_up_eq]
      exact settle_steady out moment fuel h
  | fresh hworker _ =>
      have hview : s.world.monitor.view = .fresh := by simp only [view, hworker]
      simp only [caughtUp, hview]
      exact settle_fresh out moment (Nat.le_of_succ_le hfuel) hworker
  | behind h =>
      simp only [caughtUp, h.view_eq]
      exact settle_notice out moment hfuel h

/-- A timer that is due makes one evaluation, after which the worker is at rest again. -/
theorem settle_tick {fuel due : Nat} (hfuel : 6 ≤ fuel)
    (hworker : s.world.monitor.worker = some ⟨s.world.monitor.hub.version, .armed due⟩)
    (hdue : due ≤ s.world.monitor.clock) :
    ∃ r k news, Evaluated s.world.monitor.hub.current moment s.world.monitor.lastCount news r k ∧
      Leaves (settle out.recorded moment fuel) s (.ok ())
        { s.world.monitor with lastCount := k }.rearmed (news ++ s.world.outside.log) := by
  obtain ⟨fuel, rfl⟩ := Nat.exists_eq_add_of_le' (Nat.le_trans (by decide : 1 ≤ 6) hfuel)
  have hnext : s.world.monitor.next? = some { s.world.monitor with
      worker := some ⟨s.world.monitor.hub.version,
        .evaluating (.start s.world.monitor.hub.current)⟩ } := by
    simp only [next?, hworker, ne_eq, not_true_eq_false, if_false, if_pos hdue]
  obtain ⟨t, hm, hlog, hgo⟩ := settle_next out moment fuel hnext
  have hrank : (Stage.start s.world.monitor.hub.current).rank ≤ 3 := by
    unfold Stage.start
    split <;> simp [Stage.rank]
  have henough : (Stage.start s.world.monitor.hub.current).rank ≤ fuel := by omega
  have hbegun : t.world.monitor.worker = some ⟨s.world.monitor.hub.version,
      .evaluating (.start s.world.monitor.hub.current)⟩ := by rw [hm]
  obtain ⟨r, k, log, hcourse, u, left, hleft, hm', hlog', hgo'⟩ :=
    settle_course out moment henough hbegun
  rw [hm, hlog] at hcourse
  rw [hm] at hm'
  obtain ⟨news, rfl, hevaluated⟩ := evaluated_of_course hcourse
  -- the evaluation is over, and the worker goes back to the settings
  obtain ⟨left, rfl⟩ := Nat.exists_eq_add_of_le' (show 1 ≤ left by omega)
  have hover : u.world.monitor.next? = some { u.world.monitor with
      worker := some ⟨s.world.monitor.hub.version, .fresh⟩ } := by
    rw [hm']
    rfl
  obtain ⟨v, hm'', hlog'', hgo''⟩ := settle_next out moment left hover
  have hfresh := settle_fresh out moment (show 1 ≤ left by omega) (s := v) (by rw [hm''])
  rw [hm'', hm', hlog'', hlog'] at hfresh
  exact ⟨r, k, news, hevaluated, hgo (hgo' (hgo'' hfresh))⟩

end Settle

end CustomerDedupe.Monitor
