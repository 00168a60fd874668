import Mathlib.Data.List.Induction
import CustomerDedupe.Proofs.Monitor.Schedule

/-!
# The times of scans

A second that passes brings one scan or none, as the plan has it (`advance_second`). Since time
may be taken apart, the scans of a longer passage stand on a timeline of which each second is one
point (`advance_timeline`). Every history leaves the monitor on its plan (`ran_on_plan`), and so
the monitor keeps the schedule (`scans_on_schedule`).
-/

namespace CustomerDedupe.Monitor

variable {σ : Type}

/-! ## Histories that go on -/

section Histories

variable (out : Outside σ) (hub : SettingsHub) (o : σ) (history : List (Moment × Command))

theorem act_all_append (first later : List (Moment × Command)) :
    actAll out (first ++ later) = actAll out first >>= fun _ => actAll out later := by
  induction first with
  | nil => simp [actAll]
  | cons step first ih => simp [actAll, ih]

/-- Nothing of a history fails. -/
theorem act_all_ok : ((actAll out history).run ⟨⟨.new hub, o⟩, []⟩).1 = .ok () := by
  obtain ⟨m, log, hleaves, -⟩ := perform_all_keeps out history
    (s := ⟨⟨.new hub, ⟨o, []⟩⟩, []⟩) (Kept.new hub)
  have hmirrors := perform_all_mirrors out history ⟨⟨.new hub, ⟨o, []⟩⟩, []⟩
  exact (congrArg Prod.fst hmirrors).trans hleaves.result

/-- A history goes on where it was left. -/
theorem lived_append :
    ∃ t : Session (Watched σ), t.world = lived out hub o history ∧ ∀ later,
      lived out hub o (history ++ later) = ((actAll out later).run t).2.world := by
  refine ⟨((actAll out history).run ⟨⟨.new hub, o⟩, []⟩).2, rfl, ?_⟩
  intro later
  have hrun : (actAll out (history ++ later)).run ⟨⟨.new hub, o⟩, []⟩ =
      (actAll out later).run ((actAll out history).run ⟨⟨.new hub, o⟩, []⟩).2 := by
    rw [act_all_append]
    exact Action.run_bind_ok (Prod.ext (act_all_ok out hub o history) rfl) _
  exact congrArg (fun answer => answer.2.world) hrun

theorem act_all_single (moment : Moment) (c : Command) :
    actAll out [(moment, c)] = c.act out moment :=
  bind_pure_unit

/-- A history does what it does without a log of the scans. -/
theorem act_all_mirrors : Mirrors (actAll out.recorded history) (actAll out history) := by
  induction history with
  | nil => exact .pure ()
  | cons step rest ih => exact (act_mirrors out step.1 step.2).bind fun _ => ih

/-! ## Histories on plan -/

theorem planned_snoc (moment : Moment) (c : Command) :
    planned hub (history ++ [(moment, c)]) = (planned hub history).after c :=
  List.foldl_concat _ _ _ _

/-- Every history leaves the monitor on its plan. -/
theorem ran_on_plan : OnPlan (ran out hub o history).monitor (planned hub history) := by
  induction history using List.reverseRecOn with
  | nil => exact .new hub
  | append_singleton history step ih =>
      obtain ⟨moment, c⟩ := step
      have horderly := (ran_kept out hub o history).orderly
      obtain ⟨t, hworld, hgo⟩ := ran_snoc out hub o history moment c
      rw [← hworld] at ih horderly
      rw [planned_snoc]
      cases c with
      | runOnce =>
          obtain ⟨r, k, news, -, hleaves⟩ := perform_run_once out moment t
          rw [(hgo hleaves).1]
          exact ih.counted k
      | turn =>
          rw [(hgo (perform_turn out moment horderly)).1]
          exact ih.turned horderly
      | advance seconds =>
          obtain ⟨m, news, hpassed, hleaves⟩ := perform_advance out moment seconds horderly
          rw [(hgo hleaves).1]
          exact ih.passed hpassed
      | update change =>
          rw [(hgo (perform_update out moment change t)).1]
          exact ih.changed horderly change
      | start =>
          rw [(hgo (perform_start out moment t)).1]
          exact ih.started
      | shutdown =>
          rw [(hgo (perform_shutdown out moment t)).1]
          exact ih.stopped

end Histories

/-! ## Seconds -/

/-- The timer of a steady monitor comes due at most once in a second. -/
theorem Steady.due_times_second {m : Monitor} (h : m.Steady) {n : Nat}
    (htimes : m.DueTimes (m.clock + 1) n) :
    n = 1 ∧ m.due? = some (m.clock + 1) ∨ n = 0 ∧ m.due? ≠ some (m.clock + 1) := by
  rw [DueTimes] at htimes
  cases h with
  | off hworker _ | dormant hworker _ _ =>
      have hdue : m.due? = none := by simp only [due?, hworker]
      rw [hdue] at htimes
      exact .inr ⟨htimes, by simp [hdue]⟩
  | armed due hworker _ _ hsoon =>
      have hdue : m.due? = some due := by simp only [due?, hworker]
      rw [hdue] at htimes
      have hminute := interval_ge m.hub.current
      have hfirst := htimes 0
      have hsecond := htimes 1
      rw [hdue, Option.some.injEq, Ne, Option.some.injEq]
      omega

/-- The timer of a steady monitor does not come due in no time. -/
theorem Steady.due_times_now {m : Monitor} (h : m.Steady) {n : Nat}
    (htimes : m.DueTimes m.clock n) : n = 0 := by
  rw [DueTimes] at htimes
  cases h with
  | off hworker _ | dormant hworker _ _ =>
      have hdue : m.due? = none := by simp only [due?, hworker]
      rwa [hdue] at htimes
  | armed due hworker _ _ hsoon =>
      have hdue : m.due? = some due := by simp only [due?, hworker]
      rw [hdue] at htimes
      have hfirst := htimes 0
      omega

/-- A scan asks for what settings say. -/
def Look.Asks (look : Look) (s : Settings) : Prop :=
  look.days = s.days ∧ look.includeFuzzy = s.includeFuzzy

section Seconds

variable (out : Outside σ) (moment : Moment) {s : Watch σ} {p : Plan}

/-- A second that passes brings a scan exactly if one is due at its end. -/
theorem advance_second (h : OnPlan s.world.monitor p) (horderly : s.world.monitor.Orderly) :
    ∃ scan? : Option Look,
      (scan?.isSome = true ↔ p.Due (p.clock + 1)) ∧
      (∀ look, scan? = some look → look.Asks p.settings) ∧
      ((advance out.recorded moment 1).run s).2.world.outside.log =
        scan?.toList.map .looked ++ s.world.outside.log := by
  obtain ⟨m, news, hpassed, hleaves⟩ := advance_passed out moment 1 horderly
  have hlooks := hpassed.evaluations.looks
  rw [caught_up_hub, h.settings] at hlooks
  have hnext := h.due_next_iff horderly
  rw [hleaves.log, ← hnext, ← h.clock, ← caught_up_clock]
  rcases horderly.caught_up_steady.due_times_second hpassed.dueTimes with
    ⟨hone, hdue⟩ | ⟨hnone, hdue⟩
  · obtain ⟨e, rfl⟩ := List.length_eq_one_iff.mp hone
    obtain ⟨look, rfl, hasks⟩ := hlooks e List.mem_cons_self
    refine ⟨some look, iff_of_true rfl hdue, ?_, rfl⟩
    intro look' hlook
    obtain rfl := Option.some.inj hlook
    exact hasks
  · obtain rfl := List.length_eq_zero_iff.mp hnone
    exact ⟨none, iff_of_false (by decide) hdue, by simp, rfl⟩

/-- What time that passes leaves on plan. -/
theorem advance_on_plan (seconds : Nat) (h : OnPlan s.world.monitor p)
    (horderly : s.world.monitor.Orderly) :
    ∃ t : Watch σ, (advance out.recorded moment seconds).run s = (.ok (), t) ∧
      OnPlan t.world.monitor (p.after (.advance seconds)) ∧ t.world.monitor.Orderly := by
  obtain ⟨m, news, hpassed, hleaves⟩ := advance_passed out moment seconds horderly
  refine ⟨((advance out.recorded moment seconds).run s).2, Prod.ext hleaves.result rfl, ?_, ?_⟩
  · rw [hleaves.monitor]
    exact h.passed hpassed
  · rw [hleaves.monitor]
    exact .steady hpassed.steady

/-- No scan is made in no time. -/
theorem advance_none_log (horderly : s.world.monitor.Orderly) :
    ((advance out.recorded moment 0).run s).2.world.outside.log = s.world.outside.log := by
  obtain ⟨m, news, hpassed, hleaves⟩ := advance_passed out moment 0 horderly
  have hnone := horderly.caught_up_steady.due_times_now hpassed.dueTimes
  rw [hleaves.log, List.length_eq_zero_iff.mp hnone]
  rfl

/-- There is a timeline of the scans that a passage of time brings, however long it is. -/
theorem advance_timeline (h : OnPlan s.world.monitor p) (horderly : s.world.monitor.Orderly) :
    ∃ scanAt : Nat → Option Look,
      (∀ t, p.clock < t → ((scanAt t).isSome = true ↔ p.Due t)) ∧
      (∀ t look, scanAt t = some look → look.Asks p.settings) ∧
      ∀ seconds, ((advance out.recorded moment seconds).run s).2.world.outside.log =
        (((List.range' (p.clock + 1) seconds).filterMap scanAt).map .looked).reverse ++
          s.world.outside.log := by
  choose after hafter hplan hsteady using fun seconds =>
    advance_on_plan out moment seconds h horderly
  choose scan? hdue hasks hlog using fun seconds =>
    advance_second out moment (hplan seconds) (hsteady seconds)
  refine ⟨fun t => scan? (t - (p.clock + 1)), ?_, fun t => hasks _, ?_⟩
  · intro t ht
    have hthen : p.clock + (t - (p.clock + 1)) + 1 = t := by omega
    have hdue' := hdue (t - (p.clock + 1))
    rwa [show (p.after (.advance (t - (p.clock + 1)))).clock + 1 = t from hthen] at hdue'
  · intro seconds
    induction seconds with
    | zero => exact advance_none_log out moment horderly
    | succ seconds ih =>
        have hrun : (advance out.recorded moment (seconds + 1)).run s =
            (advance out.recorded moment 1).run (after seconds) := by
          rw [advance_add out moment seconds 1 horderly]
          exact Action.run_bind_ok (hafter seconds) _
        have hsecond : p.clock + 1 + 1 * seconds - (p.clock + 1) = seconds := by omega
        rw [hafter seconds] at ih
        rw [hrun, hlog seconds, ih, List.range'_concat, List.filterMap_append, List.map_append,
          List.reverse_append, List.append_assoc, List.filterMap_cons, List.filterMap_nil, hsecond]
        cases scan? seconds <;> rfl

end Seconds

theorem start_log (s : Watch σ) :
    (ExceptT.run start s).2.world.outside.log = s.world.outside.log := by
  obtain ⟨⟨⟨hub, clock, k, shown, worker⟩, outside⟩, journal⟩ := s
  cases worker <;> rfl

theorem shutdown_log (s : Watch σ) :
    (ExceptT.run shutdown s).2.world.outside.log = s.world.outside.log := by
  obtain ⟨⟨⟨hub, clock, k, shown, worker⟩, outside⟩, journal⟩ := s
  cases worker <;> rfl

/-! ## The schedule -/

variable (out : Outside σ) (hub : SettingsHub) (o : σ) (history : List (Moment × Command))

/-- What a history leaves of a new monitor and its world, with a log of the scans. -/
def watched : Watched (Recorded σ) :=
  lived out.recorded hub ⟨o, []⟩ history

/-- The scans of a monitor follow from the commands that it has been given. -/
structure KeepsSchedule : Prop where
  /-- The log of the scans changes nothing. -/
  unlogged : lived out hub o history =
    ⟨(watched out hub o history).monitor, (watched out hub o history).outside.outside⟩
  /-- The plan has the time. -/
  clock : (watched out hub o history).monitor.clock = (planned hub history).clock
  /-- The plan has the settings. -/
  settings : (watched out hub o history).monitor.hub.current = (planned hub history).settings
  /-- Time that passes makes a scan at every time at which one is due and at no other, for what
  the settings say. -/
  scans : ∀ moment, ∃ scanAt : Nat → Option Look,
    (∀ t, (planned hub history).clock < t →
      ((scanAt t).isSome = true ↔ (planned hub history).Due t)) ∧
    (∀ t look, scanAt t = some look → look.Asks (planned hub history).settings) ∧
    ∀ seconds, (watched out hub o (history ++ [(moment, .advance seconds)])).outside.log =
      (((List.range' ((planned hub history).clock + 1) seconds).filterMap scanAt).map
        .looked).reverse ++ (watched out hub o history).outside.log
  /-- It makes no difference whether time passes at once or in parts. -/
  parts : ∀ moment a b,
    watched out hub o (history ++ [(moment, .advance (a + b))]) =
      watched out hub o (history ++ [(moment, .advance a), (moment, .advance b)])
  /-- Commands by which no time passes make no scans, unless they ask for one. -/
  still : ∀ moment c, c ≠ .runOnce → (∀ seconds, c ≠ .advance seconds) →
    (watched out hub o (history ++ [(moment, c)])).outside.log =
      (watched out hub o history).outside.log

/-- A monitor makes its scans on schedule, whatever it has been commanded and whatever its scans
have come to. -/
theorem scans_on_schedule : KeepsSchedule out hub o history := by
  obtain ⟨t, hworld, hgo⟩ := lived_append out.recorded hub ⟨o, []⟩ history
  have hran : t.world.monitor = (ran out.recorded hub ⟨o, []⟩ history).monitor := by
    rw [hworld, ran_unlogged]
  have hplan : OnPlan t.world.monitor (planned hub history) := by
    rw [hran]
    exact ran_on_plan out.recorded hub ⟨o, []⟩ history
  have horderly : t.world.monitor.Orderly := by
    rw [hran]
    exact (ran_kept out.recorded hub ⟨o, []⟩ history).orderly
  have hone (moment : Moment) (c : Command) : watched out hub o (history ++ [(moment, c)]) =
      ((c.act out.recorded moment).run t).2.world := by
    rw [watched, hgo, act_all_single]
  have hbefore : watched out hub o history = t.world := hworld.symm
  refine ⟨?_, ?_, ?_, ?_, ?_, ?_⟩
  · have hmirrors := act_all_mirrors out history ⟨⟨.new hub, ⟨o, []⟩⟩, []⟩
    exact congrArg (fun answer => answer.2.world) hmirrors
  · rw [hbefore]
    exact hplan.clock
  · rw [hbefore]
    exact hplan.settings
  · intro moment
    obtain ⟨scanAt, hdue, hasks, hlog⟩ := advance_timeline out moment hplan horderly
    refine ⟨scanAt, hdue, hasks, ?_⟩
    intro seconds
    rw [hone, hbefore]
    exact hlog seconds
  · intro moment a b
    have hboth : actAll out.recorded [(moment, .advance a), (moment, .advance b)] =
        advance out.recorded moment a >>= fun _ => advance out.recorded moment b := by
      exact congrArg (fun rest => advance out.recorded moment a >>= fun _ => rest)
        (act_all_single out.recorded moment (.advance b))
    rw [hone, watched, hgo, hboth]
    exact congrArg (fun answer => answer.2.world) (advance_add out moment a b horderly)
  · intro moment c hask htime
    rw [hone, hbefore]
    cases c with
    | runOnce => exact absurd rfl hask
    | turn => exact (settle_orderly out moment (by decide) horderly).log
    | advance seconds => exact absurd rfl (htime seconds)
    | update change => rfl
    | start => exact start_log t
    | shutdown => exact shutdown_log t

end CustomerDedupe.Monitor
