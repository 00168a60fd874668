import CustomerDedupe.Proofs.Monitor.Recorded

/-!
# The course of an evaluation

`Stage.Step` is one step of an evaluation, and `Course` is an evaluation from one of its stages to
its end. `Stage.proceed` takes such a step, whatever the world answers, so that `finish` follows a
course. `Evaluated` lists the six ways in which a whole evaluation can go, and `evaluated_of_course`
says that there are no others.
-/

namespace CustomerDedupe.Monitor

/-- What takes an evaluation to its next stage. -/
inductive Signal where
  | scanned (s : Settings) (answer : Except Failure Nat)
  | posted (item : NotificationItem) (answer : Except Failure Unit)
  | stored (count : Nat)

/-- A log after a signal. -/
def Signal.log : Signal → List Event → List Event
  | .scanned s answer, log => .looked ⟨s.days, s.includeFuzzy, answer, []⟩ :: log
  | .posted item answer, log => handedOver item answer log
  | .stored _, log => log

/-- A step of an evaluation, from a stage and the count notified last to a stage and such a count.
Only the last step changes the count. -/
inductive Stage.Step (moment : Moment) : Stage → Nat → Signal → Stage → Nat → Prop
  | scanned (s : Settings) (k : Nat) (answer : Except Failure Nat) :
      Step moment (.scanning s) k (.scanned s answer) (.afterScan s k answer) k
  | posted (s : Settings) (n k : Nat) (answer : Except Failure Unit) :
      Step moment (.posting s n) k (.posted (notification moment s n) answer)
        (.afterPost n answer) k
  | stored (n k : Nat) : Step moment (.storing n) k (.stored n) (.done (.ok (.notified n))) n

/-- How many steps an evaluation still takes at most. -/
def Stage.rank : Stage → Nat
  | .scanning _ => 3
  | .posting _ _ => 2
  | .storing _ => 1
  | .done _ => 0

/-- An evaluation is over or still takes a step. -/
theorem Stage.done_or_rank_pos (stage : Stage) : (∃ r, stage = .done r) ∨ 0 < stage.rank := by
  cases stage with
  | done r => exact .inl ⟨r, rfl⟩
  | scanning _ | posting _ _ | storing _ => exact .inr (Nat.succ_pos _)

/-- A step brings an evaluation closer to its end. -/
theorem Stage.Step.rank_lt {moment : Moment} {stage next : Stage} {k k' : Nat} {signal : Signal}
    (h : stage.Step moment k signal next k') : next.rank < stage.rank := by
  cases h with
  | scanned s k answer =>
      unfold afterScan
      split
      · simp [rank]
      · simp [rank]
      · split <;> simp [rank]
  | posted s n k answer => cases answer <;> simp [afterPost, rank]
  | stored n k => simp [rank]

/-- The evaluation goes on to the end with a result, from a count notified last and a log to a
count and a log. -/
inductive Course (moment : Moment) : Stage → Nat → List Event →
    Except Failure TickOutcome → Nat → List Event → Prop
  | done (r : Except Failure TickOutcome) (k : Nat) (log : List Event) :
      Course moment (.done r) k log r k log
  | step {stage next : Stage} {k k₁ k₂ : Nat} {signal : Signal} {log log₂ : List Event}
      {r : Except Failure TickOutcome} (h : stage.Step moment k signal next k₁)
      (hrest : Course moment next k₁ (signal.log log) r k₂ log₂) :
      Course moment stage k log r k₂ log₂

/-- How an evaluation under some settings can go: what it adds to the log, its result, and the
count notified last before and after it. -/
inductive Evaluated (s : Settings) (moment : Moment) (k : Nat) :
    List Event → Except Failure TickOutcome → Nat → Prop
  | disabled (hoff : s.enabled = false) : Evaluated s moment k [] (.ok .disabled) k
  | scan_failed (hon : s.enabled = true) (e : Failure) :
      Evaluated s moment k [.looked ⟨s.days, s.includeFuzzy, .error e, []⟩] (.error e) k
  | no_duplicates (hon : s.enabled = true) :
      Evaluated s moment k [.looked ⟨s.days, s.includeFuzzy, .ok 0, []⟩] (.ok .noDuplicates) k
  | unchanged (hon : s.enabled = true) (hpos : 0 < k) (hquiet : s.notifyOnSameCount = false) :
      Evaluated s moment k [.looked ⟨s.days, s.includeFuzzy, .ok k, []⟩] (.ok (.unchanged k)) k
  | refused (hon : s.enabled = true) {n : Nat} (hpos : 0 < n)
      (hdue : s.notifyOnSameCount = true ∨ n ≠ k) (e : Failure) :
      Evaluated s moment k
        [.looked ⟨s.days, s.includeFuzzy, .ok n, [(notification moment s n, .error e)]⟩]
        (.error e) k
  | notified (hon : s.enabled = true) {n : Nat} (hpos : 0 < n)
      (hdue : s.notifyOnSameCount = true ∨ n ≠ k) :
      Evaluated s moment k
        [.looked ⟨s.days, s.includeFuzzy, .ok n, [(notification moment s n, .ok ())]⟩]
        (.ok (.notified n)) n

/-- An evaluation that is over goes no further. -/
theorem Course.of_done {moment : Moment} {r r' : Except Failure TickOutcome} {k k' : Nat}
    {log log' : List Event} (h : Course moment (.done r) k log r' k' log') :
    r' = r ∧ k' = k ∧ log' = log := by
  cases h with
  | done r k log => exact ⟨rfl, rfl, rfl⟩
  | step h hrest => cases h

/-- An evaluation that has handed over its notification. -/
theorem Course.of_posting {moment : Moment} {s : Settings} {n k k' : Nat}
    {r : Except Failure TickOutcome} {log log' : List Event}
    (h : Course moment (.posting s n) k log r k' log') :
    (∃ e, r = .error e ∧ k' = k ∧ log' = handedOver (notification moment s n) (.error e) log) ∨
      r = .ok (.notified n) ∧ k' = n ∧ log' = handedOver (notification moment s n) (.ok ()) log := by
  cases h with
  | step h hrest =>
      cases h with
      | posted s n k answer =>
          cases answer with
          | error e =>
              obtain ⟨rfl, rfl, rfl⟩ := hrest.of_done
              exact .inl ⟨e, rfl, rfl, rfl⟩
          | ok _ =>
              cases hrest with
              | step h hrest =>
                  cases h with
                  | stored n k =>
                      obtain ⟨rfl, rfl, rfl⟩ := hrest.of_done
                      exact .inr ⟨rfl, rfl, rfl⟩

/-- A whole evaluation goes in one of the six ways. -/
theorem evaluated_of_course {moment : Moment} {s : Settings} {k k' : Nat}
    {r : Except Failure TickOutcome} {log log' : List Event}
    (h : Course moment (.start s) k log r k' log') :
    ∃ news, log' = news ++ log ∧ Evaluated s moment k news r k' := by
  unfold Stage.start at h
  split at h
  next hon =>
    cases h with
    | step h hrest =>
        cases h with
        | scanned s k answer =>
            unfold Stage.afterScan at hrest
            split at hrest
            next e =>
              obtain ⟨rfl, rfl, rfl⟩ := hrest.of_done
              exact ⟨_, rfl, .scan_failed hon e⟩
            next =>
              obtain ⟨rfl, rfl, rfl⟩ := hrest.of_done
              exact ⟨_, rfl, .no_duplicates hon⟩
            next n hn =>
              have hpos : 0 < n := Nat.pos_of_ne_zero fun h => hn (h ▸ rfl)
              split at hrest
              next hsame =>
                obtain ⟨hquiet, rfl⟩ : s.notifyOnSameCount = false ∧ n = k := by
                  simpa using hsame
                obtain ⟨rfl, rfl, rfl⟩ := hrest.of_done
                exact ⟨_, rfl, .unchanged hon hpos hquiet⟩
              next hdiffers =>
                have hdue : s.notifyOnSameCount = true ∨ n ≠ k := by
                  cases hquiet : s.notifyOnSameCount with
                  | true => exact .inl rfl
                  | false => exact .inr (by simpa [hquiet] using hdiffers)
                rcases hrest.of_posting with ⟨e, rfl, rfl, rfl⟩ | ⟨rfl, rfl, rfl⟩
                · exact ⟨_, rfl, .refused hon hpos hdue e⟩
                · exact ⟨_, rfl, .notified hon hpos hdue⟩
  next hoff =>
    obtain ⟨rfl, rfl, rfl⟩ := h.of_done
    exact ⟨[], rfl, .disabled (Bool.eq_false_iff.mpr hoff)⟩

variable {σ : Type} (out : Outside σ) (moment : Moment)

/-- Doing what an evaluation waits for is a step of it. -/
theorem proceed_step (stage : Stage) (hstage : 0 < stage.rank) (s : Watch σ) :
    ∃ signal next k, stage.Step moment s.world.monitor.lastCount signal next k ∧
      Leaves (stage.proceed out.recorded moment) s (.ok next)
        { s.world.monitor with lastCount := k } (signal.log s.world.outside.log) := by
  cases stage with
  | scanning st =>
      obtain ⟨answer, hscan⟩ := Leaves.scan out st.days st.includeFuzzy s
      obtain ⟨t, hm, hlog, hnext⟩ := hscan.next fun r => do
        return Stage.afterScan st (← current).lastCount r
      refine ⟨_, _, _, .scanned st _ answer, hnext ?_⟩
      obtain ⟨u, hm', hlog', hnext'⟩ := (Leaves.current t).next fun m =>
        Pure.pure (Stage.afterScan st m.lastCount answer)
      have hdone := hnext' (Leaves.pure _ u)
      rw [hm', hlog', hm, hlog] at hdone
      exact hdone
  | posting st n =>
      obtain ⟨answer, hpost⟩ := Leaves.post out (notification moment st n) s
      obtain ⟨t, hm, hlog, hnext⟩ := hpost.next fun r => Pure.pure (Stage.afterPost n r)
      have hdone := hnext (Leaves.pure _ t)
      rw [hm, hlog] at hdone
      exact ⟨_, _, _, .posted st n _ answer, hdone⟩
  | storing n => exact ⟨_, _, _, .stored n _, ⟨rfl, rfl, rfl⟩⟩
  | done r => exact absurd hstage (Nat.lt_irrefl 0)

/-- Taking an evaluation to its end follows a course. -/
theorem finish_course (fuel : Nat) (stage : Stage) (hfuel : stage.rank ≤ fuel) (s : Watch σ) :
    ∃ r k log, Course moment stage s.world.monitor.lastCount s.world.outside.log r k log ∧
      Leaves (finish out.recorded moment fuel stage) s r { s.world.monitor with lastCount := k }
        log := by
  induction fuel generalizing stage s with
  | zero =>
      rcases stage.done_or_rank_pos with ⟨r, rfl⟩ | hwaits
      · exact ⟨_, _, _, .done r _ _, Leaves.of_except r s⟩
      · omega
  | succ fuel ih =>
      rcases stage.done_or_rank_pos with ⟨r, rfl⟩ | hwaits
      · exact ⟨_, _, _, .done r _ _, Leaves.of_except r s⟩
      · obtain ⟨signal, next, k, hstep, hleaves⟩ := proceed_step out moment stage hwaits s
        obtain ⟨t, hm, hlog, hgo⟩ := hleaves.next fun stage =>
          finish out.recorded moment fuel stage
        have hcloser := hstep.rank_lt
        obtain ⟨r, k', log', hcourse, hdone⟩ := ih next (by omega) t
        rw [hm, hlog] at hcourse
        rw [hm] at hdone
        have hfinish : finish out.recorded moment (fuel + 1) stage =
            stage.proceed out.recorded moment >>= fun stage =>
              finish out.recorded moment fuel stage := by
          cases stage with
          | done r => exact absurd hwaits (Nat.lt_irrefl 0)
          | scanning _ | posting _ _ | storing _ => rfl
        rw [hfinish]
        exact ⟨r, k', log', .step hstep hcourse, hgo hdone⟩

/-- An evaluation at any time goes in one of the six ways. -/
theorem run_once_evaluates (s : Watch σ) :
    ∃ r k news, Evaluated s.world.monitor.hub.current moment s.world.monitor.lastCount news r k ∧
      Leaves (runOnce out.recorded moment) s r { s.world.monitor with lastCount := k }
        (news ++ s.world.outside.log) := by
  obtain ⟨t, hm, hlog, hgo⟩ := (Leaves.current s).next fun m =>
    finish out.recorded moment maxStages (.start m.hub.current)
  have hfuel : (Stage.start s.world.monitor.hub.current).rank ≤ maxStages := by
    unfold Stage.start
    split <;> simp [Stage.rank, maxStages]
  obtain ⟨r, k, log, hcourse, hdone⟩ := finish_course out moment maxStages _ hfuel t
  rw [hm, hlog] at hcourse
  rw [hm] at hdone
  obtain ⟨news, rfl, hevaluated⟩ := evaluated_of_course hcourse
  exact ⟨r, k, news, hevaluated, hgo hdone⟩

end CustomerDedupe.Monitor
