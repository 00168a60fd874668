import CustomerDedupe.Proofs.Monitor.LastCount

/-!
# What a monitor shows of itself

After every history, once everything that is ready has been done, the monitor is shown as running
exactly if a worker has been started and not stopped since and monitoring is on. There is one
worker at most, and it scans once for each time at which its timer is due.
-/

namespace CustomerDedupe.Monitor

variable {σ : Type}

def Event.work? : Event → Option Bool
  | .started => some true
  | .stopped => some false
  | _ => none

/-- Whether a worker has been started and not stopped since. -/
def atWork (log : List Event) : Bool :=
  latest Event.work? false log

@[simp] theorem at_work_cons (e : Event) (log : List Event) :
    atWork (e :: log) = e.work?.getD (atWork log) :=
  latest_cons _ _ _ _

/-- A worker is away unless it is at work. -/
theorem view_at_eq_away_iff (initial : Settings) (log : List Event) :
    viewAt initial log = .away ↔ atWork log = false := by
  induction log with
  | nil => simp [viewAt, atWork, latest]
  | cons e log ih =>
      rw [viewAt, at_work_cons]
      cases e with
      | updated s =>
          cases hview : viewAt initial log <;>
            simp [View.after, Event.work?, ← ih, hview]
      | started => by_cases haway : viewAt initial log = .away <;> simp [View.after, Event.work?, haway]
      | stopped => simp [View.after, Event.work?]
      | turned noticed =>
          by_cases haway : viewAt initial log = .away <;>
            simp [View.after, Event.work?, ← ih, haway]
      | looked _ | posted _ _ => exact ih

/-- A monitor has a worker exactly if one is at work by its log. -/
theorem Kept.worker_is_some_iff {initial : Settings} {m : Monitor} {log : List Event}
    (h : Kept initial m log) : m.worker.isSome = true ↔ atWork log = true := by
  have haway := view_at_eq_away_iff initial log
  rw [← h.tells.view, view_eq_away_iff] at haway
  cases hworker : m.worker <;> simp_all

variable (out : Outside σ) (hub : SettingsHub) (o : σ) (history : List (Moment × Command))

theorem perform_all_append (first later : List (Moment × Command)) :
    performAll out (first ++ later) = performAll out first >>= fun _ => performAll out later := by
  induction first with
  | nil => simp [performAll]
  | cons step first ih => simp [performAll, ih]

/-- A history goes on with one more command where it was left. -/
theorem ran_snoc (moment : Moment) (c : Command) :
    ∃ t : Watch σ, t.world = ran out hub o history ∧ ∀ {m log},
      Leaves (c.perform out moment) t (.ok ()) m log →
        (ran out hub o (history ++ [(moment, c)])).monitor = m ∧
          (ran out hub o (history ++ [(moment, c)])).outside.log = log := by
  obtain ⟨m, log, hleaves, -⟩ := perform_all_keeps out history
    (s := ⟨⟨.new hub, ⟨o, []⟩⟩, []⟩) (Kept.new hub)
  obtain ⟨t, ht⟩ : ∃ t, (performAll out history).run ⟨⟨.new hub, ⟨o, []⟩⟩, []⟩ = (.ok (), t) :=
    ⟨_, Prod.ext hleaves.result rfl⟩
  refine ⟨t, (congrArg (fun answer => answer.2.world) ht).symm, ?_⟩
  intro m' log' hlast
  obtain ⟨u, hm, hlog, hone⟩ := hlast.next fun _ => performAll out []
  have hdone := hone (Leaves.pure () u)
  have hrun : (performAll out (history ++ [(moment, c)])).run ⟨⟨.new hub, ⟨o, []⟩⟩, []⟩ =
      (performAll out [(moment, c)]).run t := by
    rw [perform_all_append]
    exact Action.run_bind_ok ht _
  have hworld : ran out hub o (history ++ [(moment, c)]) =
      ((performAll out [(moment, c)]).run t).2.world :=
    congrArg (fun answer => answer.2.world) hrun
  rw [hworld]
  exact ⟨hdone.monitor.trans hm, hdone.log.trans hlog⟩

/-- What is left once everything that is ready has been done. -/
theorem ran_turn (moment : Moment) :
    (ran out hub o (history ++ [(moment, .turn)])).monitor =
      (ran out hub o history).monitor.caughtUp := by
  obtain ⟨t, hworld, hgo⟩ := ran_snoc out hub o history moment .turn
  have horderly : t.world.monitor.Orderly := by
    rw [hworld]
    exact (ran_kept out hub o history).orderly
  rw [← hworld]
  exact (hgo (perform_turn out moment horderly)).1

theorem ran_start (moment : Moment) :
    (ran out hub o (history ++ [(moment, .start)])).monitor =
      (ran out hub o history).monitor.started := by
  obtain ⟨t, hworld, hgo⟩ := ran_snoc out hub o history moment .start
  rw [← hworld]
  exact (hgo (perform_start out moment t)).1

theorem ran_shutdown (moment : Moment) :
    (ran out hub o (history ++ [(moment, .shutdown)])).monitor =
      (ran out hub o history).monitor.stopped := by
  obtain ⟨t, hworld, hgo⟩ := ran_snoc out hub o history moment .shutdown
  rw [← hworld]
  exact (hgo (perform_shutdown out moment t)).1

/-- All that an evaluation adds to a log is a scan. -/
theorem Evaluations.answers_length {s : Settings} {moment : Moment} {k k' : Nat}
    {news : List Event} (h : Evaluations s moment k news k') :
    (answersIn news).length = news.length := by
  induction h with
  | none k => rfl
  | @more k k₁ k₂ news later r he hrest ih =>
      have hone : (answersIn news).length = news.length := by cases he <;> rfl
      have happend : answersIn (later ++ news) = answersIn later ++ answersIn news :=
        List.filterMap_append
      rw [happend, List.length_append, List.length_append, ih, hone]

/-- What a monitor shows and does by the commands that it has been given. -/
structure FollowsCommands : Prop where
  /-- Once everything that is ready has been done, the monitor is shown as running exactly if a
  worker is at work and monitoring is on. -/
  running_iff : ∀ moment,
    (ran out hub o (history ++ [(moment, .turn)])).monitor.next? = none ∧
    (ran out hub o (history ++ [(moment, .turn)])).monitor.pending? = none ∧
    ((ran out hub o (history ++ [(moment, .turn)])).monitor.shown = .running ↔
      atWork (ran out hub o history).outside.log = true ∧
        (ran out hub o history).monitor.hub.current.enabled = true)
  /-- The timer of a monitor that is shown as running will be due within an interval. -/
  timer : ∀ moment,
    (ran out hub o (history ++ [(moment, .turn)])).monitor.shown = .running →
    ∃ due, (ran out hub o (history ++ [(moment, .turn)])).monitor.due? = some due ∧
      (ran out hub o history).monitor.clock < due ∧
      due ≤ (ran out hub o history).monitor.clock +
        interval (ran out hub o history).monitor.hub.current
  /-- Time that passes makes one scan for each time at which the timer is due. -/
  scans : ∀ moment seconds, ∃ news,
    (ran out hub o (history ++ [(moment, .advance seconds)])).outside.log =
      news ++ (ran out hub o history).outside.log ∧
    DueTimes (ran out hub o (history ++ [(moment, .turn)])).monitor
      ((ran out hub o history).monitor.clock + seconds) (answersIn news).length
  /-- Starting a monitor whose worker is at work changes nothing. -/
  start_again : atWork (ran out hub o history).outside.log = true → ∀ journal,
    ExceptT.run start (⟨lived out hub o history, journal⟩ : Session (Watched σ)) =
      (.ok (), ⟨lived out hub o history, journal⟩)
  /-- Nor does shutting down a monitor without a worker. -/
  shutdown_idle : atWork (ran out hub o history).outside.log = false → ∀ journal,
    ExceptT.run shutdown (⟨lived out hub o history, journal⟩ : Session (Watched σ)) =
      (.ok (), ⟨lived out hub o history, journal⟩)
  /-- A monitor that is shut down and started again has kept the count notified last. -/
  restarted : ∀ first second third,
    (ran out hub o (history ++ [(first, .shutdown), (second, .start)])).monitor.lastCount =
        (ran out hub o history).monitor.lastCount ∧
      (ran out hub o
          (history ++ [(first, .shutdown), (second, .start), (third, .turn)])).monitor.lastCount =
        (ran out hub o history).monitor.lastCount

/-- The timer of a steady monitor that is shown as running will be due within an interval. -/
theorem Steady.due_soon {m : Monitor} (h : m.Steady) (hshown : m.shown = .running) :
    ∃ due, m.due? = some due ∧ m.clock < due ∧ due ≤ m.clock + interval m.hub.current := by
  cases h with
  | off hworker hidle => exact absurd (hidle.symm.trans hshown) (by decide)
  | dormant hworker hoff hidle => exact absurd (hidle.symm.trans hshown) (by decide)
  | armed due hworker hon _ hsoon => exact ⟨due, by simp only [due?, hworker], hsoon⟩

/-- Once everything that is ready has been done, nothing is ready, and the monitor is shown as
running exactly if a worker is at work and monitoring is on. -/
theorem Kept.running_iff {initial : Settings} {m : Monitor} {log : List Event}
    (h : Kept initial m log) :
    m.caughtUp.next? = none ∧ m.caughtUp.pending? = none ∧
      (m.caughtUp.shown = .running ↔ atWork log = true ∧ m.hub.current.enabled = true) := by
  have hsteady := h.orderly.caught_up_steady
  have hworker : m.caughtUp.worker.isSome = true ↔ atWork log = true := h.turned.worker_is_some_iff
  rw [hsteady.shown_running_iff, hworker, caught_up_hub]
  exact ⟨hsteady.next_eq_none, hsteady.pending_eq_none, Iff.rfl⟩

theorem start_of_worker {m : Monitor} (h : m.worker.isSome = true) (o : σ)
    (journal : List Written) :
    ExceptT.run start (⟨⟨m, o⟩, journal⟩ : Session (Watched σ)) = (.ok (), ⟨⟨m, o⟩, journal⟩) := by
  obtain ⟨hub, clock, k, shown, worker⟩ := m
  cases worker with
  | none => simp at h
  | some w => rfl

theorem shutdown_of_no_worker {m : Monitor} (h : ¬m.worker.isSome = true) (o : σ)
    (journal : List Written) :
    ExceptT.run shutdown (⟨⟨m, o⟩, journal⟩ : Session (Watched σ)) =
      (.ok (), ⟨⟨m, o⟩, journal⟩) := by
  obtain ⟨hub, clock, k, shown, worker⟩ := m
  cases worker with
  | none => rfl
  | some w => exact absurd rfl h

/-- The worker of a monitor that is stopped and started again is about to look at the settings. -/
theorem stopped_started_view (m : Monitor) : m.stopped.started.view = .fresh := by
  obtain ⟨hub, clock, k, shown, worker⟩ := m
  cases worker <;> rfl

/-- The monitor follows its commands, whatever they are. -/
theorem shown_follows_commands : FollowsCommands out hub o history where
  running_iff moment := by
    rw [ran_turn]
    exact (ran_kept out hub o history).running_iff
  timer moment hshown := by
    rw [ran_turn] at hshown ⊢
    have hsoon := (ran_kept out hub o history).orderly.caught_up_steady.due_soon hshown
    rwa [caught_up_clock, caught_up_hub] at hsoon
  scans moment seconds := by
    obtain ⟨t, hworld, hgo⟩ := ran_snoc out hub o history moment (.advance seconds)
    have horderly : t.world.monitor.Orderly := by
      rw [hworld]
      exact (ran_kept out hub o history).orderly
    obtain ⟨m, news, hpassed, hleaves⟩ := perform_advance out moment seconds horderly
    rw [hworld] at hpassed hleaves
    have hcount : (answersIn (news ++ [.turned
        ((ran out hub o history).monitor.view = .looked true)])).length = news.length := by
      rw [← hpassed.evaluations.answers_length]
      simp [answersIn]
    refine ⟨_, (hgo hleaves).2.trans (List.append_cons _ _ _), ?_⟩
    rw [ran_turn, hcount, ← caught_up_clock]
    exact hpassed.dueTimes
  start_again hwork journal := by
    rw [ran_unlogged]
    exact start_of_worker ((ran_kept out hub o history).worker_is_some_iff.mpr hwork) _ journal
  shutdown_idle hidle journal := by
    rw [ran_unlogged]
    refine shutdown_of_no_worker (fun hworker => ?_) _ journal
    rw [(ran_kept out hub o history).worker_is_some_iff.mp hworker] at hidle
    exact absurd hidle (by decide)
  restarted first second third := by
    have hrestarted : (ran out hub o
        (history ++ [(first, .shutdown), (second, .start)])).monitor =
        (ran out hub o history).monitor.stopped.started := by
      rw [List.append_cons, ran_start, ran_shutdown]
    have hturned : (ran out hub o
        (history ++ [(first, .shutdown), (second, .start), (third, .turn)])).monitor =
        (ran out hub o history).monitor.stopped.started.caughtUp := by
      rw [List.append_cons, List.append_cons, ran_turn, ran_start, ran_shutdown]
    rw [hrestarted, hturned, caught_up_last_count, stopped_started_view, started_last_count,
      stopped_last_count]
    exact ⟨rfl, rfl⟩

end CustomerDedupe.Monitor
