import CustomerDedupe.Proofs.Monitor.History

/-!
# Histories without a log

Keeping a log changes nothing: an action over a recorded outside `Mirrors` the same action over the
outside alone. Each part of the monitor does so, and so the monitor and the world that a history
leaves are those that it leaves without a log (`ran_unlogged`).
-/

namespace CustomerDedupe.Monitor

variable {σ α β : Type}

/-- A session without its log. -/
def unlogged (s : Watch σ) : Session (Watched σ) :=
  ⟨⟨s.world.monitor, s.world.outside.outside⟩, s.journal⟩

/-- An action does what another one does without a log. -/
def Mirrors (a : Action (Watched (Recorded σ)) α) (b : Action (Watched σ) α) : Prop :=
  ∀ s : Watch σ, b.run (unlogged s) = ((a.run s).1, unlogged (a.run s).2)

namespace Mirrors

theorem pure (x : α) :
    Mirrors (Pure.pure x : Action (Watched (Recorded σ)) α) (Pure.pure x) :=
  fun _ => rfl

theorem of_except (r : Except Failure α) :
    Mirrors (.ofExcept r : Action (Watched (Recorded σ)) α) (.ofExcept r) :=
  fun _ => rfl

theorem current : Mirrors (σ := σ) current current :=
  fun _ => rfl

theorem modify (f : Monitor → Monitor) : Mirrors (σ := σ) (modify f) (modify f) :=
  fun _ => rfl

theorem note (level : Level) (message : String) :
    Mirrors (σ := σ) (note level message) (note level message) :=
  fun _ => rfl

/-- Sequences mirror each other if their parts do. -/
theorem bind {a : Action (Watched (Recorded σ)) α} {b : Action (Watched σ) α} (h : Mirrors a b)
    {f : α → Action (Watched (Recorded σ)) β} {g : α → Action (Watched σ) β}
    (hf : ∀ x, Mirrors (f x) (g x)) : Mirrors (a >>= f) (b >>= g) := by
  intro s
  have hs := h s
  rw [Action.run_bind, Action.run_bind, hs]
  rcases a.run s with ⟨e | x, after⟩
  · rfl
  · exact hf x after

theorem outcome {a : Action (Watched (Recorded σ)) α} {b : Action (Watched σ) α}
    (h : Mirrors a b) : Mirrors a.outcome b.outcome := by
  intro s
  change (Except.ok (b.run (unlogged s)).1, (b.run (unlogged s)).2) = _
  rw [h s]
  rfl

theorem scan (out : Outside σ) (days : Int) (includeFuzzy : Bool) :
    Mirrors (outward (out.recorded.scan days includeFuzzy)) (outward (out.scan days includeFuzzy)) :=
  fun _ => rfl

theorem post (out : Outside σ) (item : NotificationItem) :
    Mirrors (outward (out.recorded.post item)) (outward (out.post item)) :=
  fun _ => rfl

end Mirrors

variable (out : Outside σ) (moment : Moment)

theorem proceed_mirrors (stage : Stage) :
    Mirrors (stage.proceed out.recorded moment) (stage.proceed out moment) := by
  cases stage with
  | scanning s =>
      exact (Mirrors.scan out s.days s.includeFuzzy).outcome.bind fun r =>
        Mirrors.current.bind fun m => .pure (Stage.afterScan s m.lastCount r)
  | posting s n =>
      exact (Mirrors.post out (notification moment s n)).outcome.bind fun r =>
        .pure (Stage.afterPost n r)
  | storing n =>
      exact (Mirrors.modify _).bind fun _ => (Mirrors.note _ _).bind fun _ => .pure _
  | done r => exact .pure _

theorem finish_mirrors (fuel : Nat) (stage : Stage) :
    Mirrors (finish out.recorded moment fuel stage) (finish out moment fuel stage) := by
  induction fuel generalizing stage with
  | zero =>
      cases stage with
      | done r => exact .of_except r
      | scanning _ | posting _ _ | storing _ => exact .pure _
  | succ fuel ih =>
      cases stage with
      | done r => exact .of_except r
      | scanning _ | posting _ _ | storing _ => exact (proceed_mirrors out moment _).bind ih

theorem run_once_mirrors : Mirrors (runOnce out.recorded moment) (runOnce out moment) :=
  Mirrors.current.bind fun m => finish_mirrors out moment maxStages (.start m.hub.current)

theorem note_step_mirrors (m : Monitor) : Mirrors (σ := σ) (noteStep m) (noteStep m) := by
  unfold noteStep
  split
  · exact .note _ _
  · exact .note _ _
  · split
    · exact .pure ()
    · exact .note _ _
  · exact .pure ()

theorem settle_mirrors (fuel : Nat) :
    Mirrors (settle out.recorded moment fuel) (settle out moment fuel) := by
  induction fuel with
  | zero => exact .pure ()
  | succ fuel ih =>
      refine Mirrors.current.bind fun m => ?_
      split
      · exact (note_step_mirrors m).bind fun _ => (Mirrors.modify _).bind fun _ => ih
      · exact (proceed_mirrors out moment _).bind fun _ => (Mirrors.modify _).bind fun _ => ih
      · exact .pure ()

theorem advance_to_mirrors (stop fuel : Nat) :
    Mirrors (advanceTo out.recorded moment stop fuel) (advanceTo out moment stop fuel) := by
  induction fuel with
  | zero => exact .modify _
  | succ fuel ih =>
      refine Mirrors.current.bind fun m => ?_
      split
      · split
        · exact (Mirrors.modify _).bind fun _ =>
            (settle_mirrors out moment settleSteps).bind fun _ => ih
        · exact .modify _
      · exact .modify _

theorem advance_mirrors (seconds : Nat) :
    Mirrors (advance out.recorded moment seconds) (advance out moment seconds) :=
  Mirrors.current.bind fun _ =>
    (settle_mirrors out moment settleSteps).bind fun _ => advance_to_mirrors out moment _ _

theorem start_mirrors : Mirrors (σ := σ) start start := by
  refine Mirrors.current.bind fun m => ?_
  split
  · exact (Mirrors.modify _).bind fun _ => .note _ _
  · exact .pure ()

theorem shutdown_mirrors : Mirrors (σ := σ) shutdown shutdown := by
  refine Mirrors.current.bind fun m => ?_
  split
  · exact (Mirrors.modify _).bind fun _ => .note _ _
  · exact .pure ()

/-- A command does what it does without a log. -/
theorem act_mirrors (c : Command) : Mirrors (c.act out.recorded moment) (c.act out moment) := by
  cases c with
  | runOnce => exact (run_once_mirrors out moment).outcome.bind fun _ => .pure ()
  | turn => exact settle_mirrors out moment settleSteps
  | advance seconds => exact advance_mirrors out moment seconds
  | update change => exact Mirrors.modify fun m => { m with hub := (m.hub.update change).2 }
  | start => exact start_mirrors
  | shutdown => exact shutdown_mirrors

theorem perform_mirrors (c : Command) : Mirrors (c.perform out moment) (c.act out moment) :=
  fun s => act_mirrors out moment c
    { s with world := { s.world with outside := { s.world.outside with
        log := c.events s.world.monitor ++ s.world.outside.log } } }

theorem perform_all_mirrors (history : List (Moment × Command)) :
    Mirrors (performAll out history) (actAll out history) := by
  induction history with
  | nil => exact .pure ()
  | cons step rest ih => exact (perform_mirrors out step.1 step.2).bind fun _ => ih

/-- A history leaves the same monitor and the same world with a log. -/
theorem ran_unlogged (hub : SettingsHub) (o : σ) (history : List (Moment × Command)) :
    lived out hub o history =
      ⟨(ran out hub o history).monitor, (ran out hub o history).outside.outside⟩ := by
  have hmirrors := perform_all_mirrors out history ⟨⟨.new hub, ⟨o, []⟩⟩, []⟩
  exact congrArg (fun answer => answer.2.world) hmirrors

end CustomerDedupe.Monitor
