import CustomerDedupe.Proofs.Monitor.FoundCount
import CustomerDedupe.Proofs.Monitor.Interleaving

/-!
# Changes that are heeded

A change of the settings that comes while the worker waits makes it forget the count notified last
before its next evaluation compares a count with it, unless the timer overtakes the change. The
evaluation then notifies what it finds, but for a count that an evaluation asked for has notified
in the meantime (`heeded_of_waits`). A change that comes while an evaluation of the worker is under
way has no such effect: the worker takes it as seen when it sets its timer again, and keeps the
count (`unheeded_of_busy`). `change_heeded` is about both.
-/

namespace CustomerDedupe.Monitor

variable {a b c : Scene} {move : Move}

/-- No worker has seen a version that is still to come. -/
theorem Step.seen_le (h : Step a move b)
    (ha : ∀ w, a.monitor.worker = some w → w.seen ≤ a.monitor.hub.version) :
    ∀ w, b.monitor.worker = some w → w.seen ≤ b.monitor.hub.version := by
  have hseen {seen : Nat} {phase phase' : Phase} (hworker : a.monitor.worker = some ⟨seen, phase⟩)
      (w : Worker) (hw : some (⟨seen, phase'⟩ : Worker) = some w) :
      w.seen ≤ a.monitor.hub.version := by
    obtain rfl := Option.some.inj hw
    exact ha ⟨seen, phase⟩ hworker
  cases h with
  | updated change =>
      exact fun w hw => Nat.le_trans (ha w hw) (changed_version_le a.monitor change)
  | waited | asked | replied => exact ha
  | started =>
      unfold Monitor.started
      split
      · exact ha
      · rintro w ⟨⟩
        exact Nat.le_refl _
  | worked h =>
      cases h with
      | looked hworker =>
          rw [rearmed]
          split <;> (rintro w ⟨⟩; exact Nat.le_refl _)
      | noticed hworker | fired hworker | ended hworker => exact hseen hworker
  | overtook hworker | ticked hworker => exact hseen hworker

/-- A worker that has missed a change notices it before it does anything else, unless the timer
overtakes the change. -/
theorem Step.missed (h : Step a move b) (ha : a.monitor.Missed) (hmove : move ≠ .overtake) :
    (∀ answer, move ≠ .tick answer) ∧
      (move ≠ .work ∧ b.monitor.Missed ∨
        b.monitor.lastCount = 0 ∧ ∃ seen, b.monitor.worker = some ⟨seen, .fresh⟩) := by
  have hmissed := ha
  obtain ⟨seen, phase, hwaiting, hwaits, hseen⟩ := ha
  have hphase {seen' : Nat} {phase' : Phase} (h : a.monitor.worker = some ⟨seen', phase'⟩) :
      seen' = seen ∧ phase' = phase := by simpa [hwaiting, eq_comm] using h
  cases h with
  | updated change => exact ⟨by simp, .inl ⟨by simp, hmissed.changed change⟩⟩
  | waited | asked | replied => exact ⟨by simp, .inl ⟨by simp, hmissed⟩⟩
  | started =>
      have hsame : a.monitor.started = a.monitor := by rw [Monitor.started, hwaiting]
      refine ⟨by simp, .inl ⟨by simp, ?_⟩⟩
      change a.monitor.started.Missed
      rw [hsame]
      exact hmissed
  | worked h =>
      refine ⟨by simp, ?_⟩
      cases h with
      | looked hworker =>
          obtain ⟨rfl, rfl⟩ := hphase hworker
          simp [Phase.Waits] at hwaits
      | noticed hworker => exact .inr ⟨rfl, _, rfl⟩
      | fired hworker hlatest =>
          obtain ⟨rfl, rfl⟩ := hphase hworker
          exact absurd hlatest (Nat.ne_of_lt hseen)
      | ended hworker =>
          obtain ⟨rfl, rfl⟩ := hphase hworker
          simp [Phase.Waits] at hwaits
  | overtook => exact absurd rfl hmove
  | ticked hworker =>
      obtain ⟨rfl, rfl⟩ := hphase hworker
      simp [Phase.Waits] at hwaits

/-- Moves after a missed change, of which the worker's first is not that it takes the timer, either
leave it missed or go by way of a scene in which the worker has forgotten the count notified last,
and has not got any answer before. -/
theorem run_missed {moves : List Move} (ha : a.monitor.Missed)
    (hmoves : ∀ first later, moves = first ++ .overtake :: later → .work ∈ first)
    (hrun : Scene.run moves a = some b) :
    b.monitor.Missed ∨ ∃ first later c, moves = first ++ later ∧
      (∀ answer, .tick answer ∉ first) ∧ Scene.run first a = some c ∧
      Scene.run later c = some b ∧ c.monitor.lastCount = 0 ∧
      ∃ seen, c.monitor.worker = some ⟨seen, .fresh⟩ := by
  -- the change stays missed up to the worker's first move, which notices it
  induction moves generalizing a with
  | nil =>
      obtain rfl := Option.some.inj hrun
      exact .inl ha
  | cons move moves ih =>
      obtain ⟨next, hnext, hrest⟩ := Option.bind_eq_some_iff.mp hrun
      have hmove : move ≠ .overtake := by
        rintro rfl
        simpa using hmoves [] moves rfl
      obtain ⟨hquiet, ⟨hwork, hmissed⟩ | ⟨hzero, hfresh⟩⟩ :=
        (step_of_after hnext).missed ha hmove
      · have hmoves' (first later : List Move) (h : moves = first ++ .overtake :: later) :
            .work ∈ first :=
          (List.mem_cons.mp (hmoves (move :: first) later (congrArg _ h))).resolve_left hwork.symm
        refine (ih hmissed hmoves' hrest).imp_right ?_
        rintro ⟨first, later, c, rfl, htick, hfirst, hlater, hc⟩
        refine ⟨move :: first, later, c, rfl, ?_, ?_, hlater, hc⟩
        · intro answer
          exact List.mem_cons.not.mpr (not_or.mpr ⟨(hquiet answer).symm, htick answer⟩)
        · exact (Scene.run_cons hnext first).trans hfirst
      · refine .inr ⟨[move], moves, next, rfl, ?_, ?_, hrest, hzero, hfresh⟩
        · intro answer
          simpa using (hquiet answer).symm
        · exact Scene.run_cons hnext []

/-- An evaluation asked for has ended with a result. -/
def Scene.Ended (a : Scene) (i : Nat) (r : Except Failure TickOutcome) : Prop :=
  a.asked[i]? = some (.done r)

/-- An evaluation that has ended gets no more answers. -/
theorem receive_done (k : Nat) (r : Except Failure TickOutcome) (answer : Answer) :
    (Stage.done r).receive k answer = none := by
  cases answer <;> rfl

/-- An evaluation asked for that has ended stays so. -/
theorem Step.ended {i : Nat} {r : Except Failure TickOutcome} (h : Step a move b)
    (ha : a.Ended i r) : b.Ended i r := by
  cases h with
  | updated | waited | started | worked | overtook | ticked => exact ha
  | asked =>
      obtain ⟨hi, -⟩ := List.getElem?_eq_some_iff.mp ha
      exact (List.getElem?_append_left hi).trans ha
  | @replied j k answer stage next hj hreceive =>
      have hne : j ≠ i := by
        rintro rfl
        obtain rfl := Option.some.inj (hj.symm.trans ha)
        rw [receive_done] at hreceive
        exact absurd hreceive (by simp)
      exact (List.getElem?_set_ne hne).trans ha

/-- An answer changes the count notified last only where it ends the evaluation that notified
it. -/
theorem receive_count {k k' : Nat} {answer : Answer} {stage next : Stage}
    (h : stage.receive k answer = some (next, k')) :
    k' = k ∨ stage = .storing k' ∧ next = .done (.ok (.notified k')) := by
  unfold Stage.receive at h
  split at h
  · obtain ⟨-, rfl⟩ := Prod.mk.inj (Option.some.inj h)
    exact .inl rfl
  · obtain ⟨-, rfl⟩ := Prod.mk.inj (Option.some.inj h)
    exact .inl rfl
  · obtain ⟨rfl, rfl⟩ := Prod.mk.inj (Option.some.inj h)
    exact .inr ⟨rfl, rfl⟩
  · simp at h

/-- The worker has no notification to hand over or to remember. -/
def Unposted (m : Monitor) : Prop :=
  ∀ seen stage, m.worker = some ⟨seen, .evaluating stage⟩ →
    (∃ s, stage = .scanning s ∧ s.enabled = true) ∨ ∃ r, stage = .done r

/-- An evaluation begins with a scan if monitoring is on, and is over if it is off. -/
theorem start_scanning_or_done (s : Settings) :
    (∃ s', Stage.start s = .scanning s' ∧ s'.enabled = true) ∨ ∃ r, Stage.start s = .done r := by
  unfold Stage.start
  split
  next hon => exact .inl ⟨s, rfl, hon⟩
  next hoff => exact .inr ⟨_, rfl⟩

/-- The worker's evaluation after a move is as it was, or has just begun, or has got an answer. -/
theorem Step.evaluating (h : Step a move b) {seen : Nat} {stage : Stage}
    (hb : b.monitor.worker = some ⟨seen, .evaluating stage⟩) :
    a.monitor.worker = some ⟨seen, .evaluating stage⟩ ∨
      stage = .start a.monitor.hub.current ∨
      ∃ earlier answer k, move = .tick answer ∧
        a.monitor.worker = some ⟨seen, .evaluating earlier⟩ ∧
        earlier.receive a.monitor.lastCount answer = some (stage, k) := by
  cases h with
  | updated | waited | asked | replied => exact .inl hb
  | started =>
      change a.monitor.started.worker = _ at hb
      unfold Monitor.started at hb
      split at hb
      · exact .inl hb
      · simp at hb
  | worked h =>
      cases h with
      | looked =>
          change a.monitor.rearmed.worker = _ at hb
          unfold rearmed at hb
          split at hb <;> simp at hb
      | noticed | ended => simp at hb
      | fired =>
          obtain ⟨-, heq⟩ := Worker.mk.inj (Option.some.inj hb)
          exact .inr (.inl (Phase.evaluating.inj heq).symm)
  | overtook =>
      obtain ⟨-, heq⟩ := Worker.mk.inj (Option.some.inj hb)
      exact .inr (.inl (Phase.evaluating.inj heq).symm)
  | @ticked answer _ k earlier next hworker hreceive =>
      obtain ⟨rfl, heq⟩ := Worker.mk.inj (Option.some.inj hb)
      obtain rfl := Phase.evaluating.inj heq
      exact .inr (.inr ⟨earlier, answer, k, rfl, hworker, hreceive⟩)

/-- The worker has nothing to hand over as long as it finds nothing. -/
theorem Step.unposted (h : Step a move b) (ha : a.monitor.Unposted)
    (hmove : ∀ n, move = .tick (.scanned (.ok n)) → n = 0) : b.monitor.Unposted := by
  intro seen stage hb
  rcases h.evaluating hb with hsame | rfl | ⟨earlier, answer, k, rfl, hworker, hreceive⟩
  · exact ha seen stage hsame
  · exact start_scanning_or_done a.monitor.hub.current
  · rcases ha seen earlier hworker with ⟨s, rfl, -⟩ | ⟨r, rfl⟩
    · cases answer with
      | posted r | stored => simp [Stage.receive] at hreceive
      | scanned r =>
          obtain ⟨rfl, -⟩ := Prod.mk.inj (Option.some.inj hreceive)
          cases r with
          | error e => exact .inr ⟨_, rfl⟩
          | ok n =>
              obtain rfl := hmove n rfl
              exact .inr ⟨_, rfl⟩
    · rw [receive_done] at hreceive
      exact absurd hreceive (by simp)

/-- As long as the worker has nothing to hand over, the count notified last changes only where it
is forgotten, or an evaluation asked for ends with it. -/
theorem Step.last_count (h : Step a move b) (ha : a.monitor.Unposted) :
    b.monitor.lastCount = a.monitor.lastCount ∨ b.monitor.lastCount = 0 ∨
      ∃ i, b.Ended i (.ok (.notified b.monitor.lastCount)) ∧
        ¬a.Ended i (.ok (.notified b.monitor.lastCount)) := by
  cases h with
  | updated | waited | asked | overtook => exact .inl rfl
  | started => exact .inl (started_last_count a.monitor)
  | worked h =>
      cases h with
      | looked => exact .inl (rearmed_last_count a.monitor)
      | noticed => exact .inr (.inl rfl)
      | fired | ended => exact .inl rfl
  | ticked hworker hreceive =>
      rcases receive_count hreceive with hsame | ⟨rfl, -⟩
      · exact .inl hsame
      · -- the worker has no count to remember
        rcases ha _ _ hworker with ⟨s, hstage, -⟩ | ⟨r, hstage⟩ <;> simp at hstage
  | @replied i k answer stage next hi hreceive =>
      rcases receive_count hreceive with hsame | ⟨rfl, rfl⟩
      · exact .inl hsame
      · obtain ⟨hlt, -⟩ := List.getElem?_eq_some_iff.mp hi
        refine .inr (.inr ⟨i, List.getElem?_set_self hlt, ?_⟩)
        intro hended
        simp [Scene.Ended, hi] at hended

/-- What holds since a scene in which the worker had forgotten the count notified last, as long as
its own evaluations find nothing: it is zero, or that of an evaluation asked for that has ended
since. -/
structure Since (c b : Scene) : Prop where
  count : b.monitor.lastCount = 0 ∨ ∃ i, b.Ended i (.ok (.notified b.monitor.lastCount)) ∧
    ¬c.Ended i (.ok (.notified b.monitor.lastCount))
  ended : ∀ i r, c.Ended i r → b.Ended i r
  unposted : b.monitor.Unposted

theorem Since.step (ha : Since c a) (h : Step a move b)
    (hmove : ∀ n, move = .tick (.scanned (.ok n)) → n = 0) : Since c b where
  count := by
    rcases h.last_count ha.unposted with hsame | hzero | ⟨i, hnew, hold⟩
    · rw [hsame]
      exact ha.count.imp_right fun ⟨i, hi, hnew⟩ => ⟨i, h.ended hi, hnew⟩
    · exact .inl hzero
    · exact .inr ⟨i, hnew, fun hc => hold (ha.ended i _ hc)⟩
  ended i r hc := h.ended (ha.ended i r hc)
  unposted := h.unposted ha.unposted hmove

/-- The settings are these, also for the worker's scan if there is one. -/
def Scene.Under (a : Scene) (s : Settings) : Prop :=
  a.monitor.hub.current = s ∧
    ∀ seen s', a.monitor.worker = some ⟨seen, .evaluating (.scanning s')⟩ → s' = s

/-- A scan does not begin with an answer. -/
theorem receive_ne_scanning {k k' : Nat} {answer : Answer} {stage next : Stage}
    (h : stage.receive k answer = some (next, k')) (s : Settings) : next ≠ .scanning s := by
  rintro rfl
  unfold Stage.receive at h
  split at h
  next st r =>
    obtain ⟨hnext, -⟩ := Prod.mk.inj (Option.some.inj h)
    unfold Stage.afterScan at hnext
    split at hnext
    · simp at hnext
    · simp at hnext
    · split at hnext <;> simp at hnext
  next n r =>
    obtain ⟨hnext, -⟩ := Prod.mk.inj (Option.some.inj h)
    cases r <;> simp [Stage.afterPost] at hnext
  next n => simp at h
  next => simp at h

/-- Only a change changes the settings. -/
theorem Step.hub_eq (h : Step a move b) (hmove : ∀ change, move ≠ .update change) :
    b.monitor.hub = a.monitor.hub := by
  cases h with
  | updated change => exact absurd rfl (hmove change)
  | waited | asked | replied | overtook | ticked => rfl
  | started => exact started_hub a.monitor
  | worked h =>
      cases h with
      | looked => exact rearmed_hub a.monitor
      | noticed | fired | ended => rfl

/-- As long as nobody changes them, the settings stay those of the worker's scans. -/
theorem Step.under {s : Settings} (h : Step a move b) (ha : a.Under s)
    (hmove : ∀ change, move ≠ .update change) : b.Under s := by
  refine ⟨(congrArg SettingsHub.current (h.hub_eq hmove)).trans ha.1, ?_⟩
  intro seen s' hb
  rcases h.evaluating hb with hsame | hbegun | ⟨earlier, answer, k, rfl, hworker, hreceive⟩
  · exact ha.2 seen s' hsame
  · unfold Stage.start at hbegun
    split at hbegun
    · rw [Stage.scanning.inj hbegun, ha.1]
    · simp at hbegun
  · exact absurd rfl (receive_ne_scanning hreceive s')

/-- Subscribers are notified of a change exactly if it raises the version. -/
theorem version_lt_of_update {m : Monitor} {change : Settings → Settings}
    (h : (m.hub.update change).1 = true) : m.hub.version < (m.changed change).hub.version := by
  simp only [SettingsHub.update] at h
  split at h
  next hsame => simp at h
  next hdiffers =>
    rw [changed, SettingsHub.update_version, if_neg hdiffers]
    exact Nat.lt_succ_self _

/-- What a positive count leads to once a scan has found it: the notification is handed over
unless it is that of the count notified last. -/
theorem after_tick_posting {s : Settings} {n : Nat}
    (hscanning : b.monitor.pending? = some (.scanning s)) (hpos : 0 < n)
    (hdue : s.notifyOnSameCount = true ∨ n ≠ b.monitor.lastCount) :
    ∃ b', b.after (.tick (.scanned (.ok n))) = some b' ∧
      b'.monitor.pending? = some (.posting s n) := by
  obtain ⟨⟨seen, hworker⟩, hwaits⟩ := pending_eq_some hscanning
  have hposting : Stage.afterScan s b.monitor.lastCount (.ok n) = .posting s n := by
    obtain ⟨n, rfl⟩ := Nat.exists_eq_succ_of_ne_zero (Nat.ne_of_gt hpos)
    refine if_neg ?_
    rcases hdue with hnotify | hne
    · simp [hnotify]
    · simp [hne]
  refine ⟨_, Scene.after_tick hworker hwaits rfl, ?_⟩
  rw [hposting]
  rfl

/-- A change that comes while the worker waits makes it forget the count notified last before it
gets any answer, unless the first thing that it does is to take the timer. The first of its
evaluations after that which finds duplicates hands over a notification, unless an evaluation
asked for has since notified the same count, which the settings do not ask for again. -/
theorem heeded_of_waits {hub : SettingsHub} {before moves : List Move} {seen : Nat} {phase : Phase}
    {change : Settings → Settings} {s : Settings} (ha : Scene.run before (.new hub) = some a)
    (hworker : a.monitor.worker = some ⟨seen, phase⟩) (hwaits : phase.Waits)
    (hchange : (a.monitor.hub.update change).1 = true)
    (hmoves : ∀ first later, moves = first ++ .overtake :: later → .work ∈ first)
    (hrun : Scene.run moves { a with monitor := a.monitor.changed change } = some b)
    (hscanning : b.monitor.pending? = some (.scanning s)) :
    ((∀ later, .update later ∉ moves) → s = change a.monitor.hub.current) ∧
    ∃ first later c, moves = first ++ later ∧ (∀ answer, .tick answer ∉ first) ∧
      Scene.run first { a with monitor := a.monitor.changed change } = some c ∧
      Scene.run later c = some b ∧ c.monitor.lastCount = 0 ∧
      ((∀ n, .tick (.scanned (.ok n)) ∈ moves → n = 0) → s.enabled = true ∧ ∀ n, 0 < n →
        (∃ b', b.after (.tick (.scanned (.ok n))) = some b' ∧
          b'.monitor.pending? = some (.posting s n)) ∨
        s.notifyOnSameCount = false ∧
          ∃ i, b.Ended i (.ok (.notified n)) ∧ ¬c.Ended i (.ok (.notified n))) := by
  obtain ⟨⟨seenByTick, hticking⟩, -⟩ := pending_eq_some hscanning
  have hseen : seen ≤ a.monitor.hub.version :=
    run_preserves (P := fun a => ∀ w, a.monitor.worker = some w → w.seen ≤ a.monitor.hub.version)
      (fun a b move _ h => h.seen_le) (by simp [Scene.new, Monitor.new]) ha _ hworker
  have hmissed : (a.monitor.changed change).Missed :=
    ⟨seen, phase, hworker, hwaits, Nat.lt_of_le_of_lt hseen (version_lt_of_update hchange)⟩
  constructor
  · intro hnone
    have hbegin : Scene.Under { a with monitor := a.monitor.changed change }
        (change a.monitor.hub.current) := by
      refine ⟨SettingsHub.update_current a.monitor.hub change, ?_⟩
      intro seen' s' h
      obtain ⟨-, rfl⟩ := Worker.mk.inj (Option.some.inj (hworker.symm.trans h))
      simp [Phase.Waits] at hwaits
    have hunder : b.Under (change a.monitor.hub.current) :=
      run_preserves (fun a b move hmem h hunder => h.under hunder (by
        rintro later rfl
        exact hnone later hmem)) hbegin hrun
    exact hunder.2 seenByTick s hticking
  · -- a scene in which the worker scans does not miss a change, so it has been noticed
    rcases run_missed hmissed hmoves hrun with
      ⟨seen', phase', hworker', hwaits', -⟩ |
      ⟨first, later, c, rfl, hquiet, hfirst, hlater, hzero, seenBefore, hfresh⟩
    · obtain ⟨-, rfl⟩ := Worker.mk.inj (Option.some.inj (hworker'.symm.trans hticking))
      simp [Phase.Waits] at hwaits'
    · refine ⟨first, later, c, rfl, hquiet, hfirst, hlater, hzero, ?_⟩
      intro hnone
      have hbegin : Since c c := by
        refine ⟨.inl hzero, fun i r h => h, ?_⟩
        intro seen' stage h
        simp [hfresh] at h
      have hsince : Since c b :=
        run_preserves (fun a b move hmem h hsince => hsince.step h (by
          rintro n rfl
          exact hnone n (List.mem_append_right first hmem))) hbegin hlater
      have hon : s.enabled = true := by
        rcases hsince.unposted seenByTick _ hticking with ⟨s', hs, hon⟩ | ⟨r, hdone⟩
        · rw [Stage.scanning.inj hs]
          exact hon
        · simp at hdone
      refine ⟨hon, ?_⟩
      intro n hpos
      by_cases hdue : s.notifyOnSameCount = true ∨ n ≠ b.monitor.lastCount
      · exact .inl (after_tick_posting hscanning hpos hdue)
      · obtain ⟨hquiet, hsame⟩ := not_or.mp hdue
        obtain rfl := Decidable.not_not.mp hsame
        exact .inr ⟨Bool.eq_false_iff.mpr hquiet,
          hsince.count.resolve_left (Nat.ne_of_gt hpos)⟩

/-! ## Changes that come while the worker is busy -/

/-- The worker is busy, or has seen the latest settings. -/
def UpToDate (m : Monitor) : Prop :=
  ∃ seen phase, m.worker = some ⟨seen, phase⟩ ∧ (phase.Waits → seen = m.hub.version)

/-- An evaluation has had the notification of a count accepted, and is about to remember it. -/
def Scene.Storing (a : Scene) (n : Nat) : Prop :=
  (∃ seen, a.monitor.worker = some ⟨seen, .evaluating (.storing n)⟩) ∨ .storing n ∈ a.asked

theorem evaluating_up_to_date {m : Monitor} {seen : Nat} {stage : Stage}
    (h : m.worker = some ⟨seen, .evaluating stage⟩) : m.UpToDate :=
  ⟨seen, _, h, fun hwaits => by simp [Phase.Waits] at hwaits⟩

/-- A worker that looks at the settings has then seen the latest. -/
theorem rearmed_up_to_date (m : Monitor) : m.rearmed.UpToDate := by
  unfold rearmed
  split
  · exact ⟨_, _, rfl, fun _ => rfl⟩
  · exact ⟨_, _, rfl, fun _ => rfl⟩

/-- A worker that is up to date stays so until the settings change, and the count notified last
changes only where an evaluation remembers its own. -/
theorem Step.up_to_date (h : Step a move b) (ha : a.monitor.UpToDate)
    (hmove : ∀ change, move ≠ .update change) :
    b.monitor.UpToDate ∧
      (b.monitor.lastCount = a.monitor.lastCount ∨ a.Storing b.monitor.lastCount) := by
  cases h with
  | updated change => exact absurd rfl (hmove change)
  | waited | asked => exact ⟨ha, .inl rfl⟩
  | started =>
      obtain ⟨seen, phase, hworker, hlatest⟩ := ha
      have hsame : a.monitor.started = a.monitor := by rw [Monitor.started, hworker]
      show a.monitor.started.UpToDate ∧ (a.monitor.started.lastCount = _ ∨ _)
      rw [hsame]
      exact ⟨⟨seen, phase, hworker, hlatest⟩, .inl rfl⟩
  | worked h =>
      cases h with
      | looked => exact ⟨rearmed_up_to_date a.monitor, .inl (rearmed_last_count a.monitor)⟩
      | noticed hworker hwaits hseen =>
          obtain ⟨seen, phase, hworker', hlatest⟩ := ha
          obtain ⟨rfl, rfl⟩ := Worker.mk.inj (Option.some.inj (hworker.symm.trans hworker'))
          exact absurd (hlatest hwaits) hseen
      | fired => exact ⟨evaluating_up_to_date rfl, .inl rfl⟩
      | ended =>
          exact ⟨⟨_, .fresh, rfl, fun hwaits => by simp [Phase.Waits] at hwaits⟩, .inl rfl⟩
  | overtook => exact ⟨evaluating_up_to_date rfl, .inl rfl⟩
  | ticked hworker hreceive =>
      refine ⟨evaluating_up_to_date rfl, (receive_count hreceive).imp_right ?_⟩
      rintro ⟨rfl, -⟩
      exact .inl ⟨_, hworker⟩
  | replied hi hreceive =>
      refine ⟨ha, (receive_count hreceive).imp_right ?_⟩
      rintro ⟨rfl, -⟩
      exact .inr (List.mem_of_getElem? hi)

/-- Moves among which there is no change leave a worker up to date that was so before, and the
count notified last as it was, unless an evaluation has remembered its own in between. -/
theorem run_up_to_date {moves : List Move} (ha : a.monitor.UpToDate)
    (hmoves : ∀ change, .update change ∉ moves) (hrun : Scene.run moves a = some b) :
    b.monitor.UpToDate ∧ (b.monitor.lastCount = a.monitor.lastCount ∨
      ∃ first later c, moves = first ++ later ∧ Scene.run first a = some c ∧
        c.Storing b.monitor.lastCount) := by
  induction moves generalizing a with
  | nil =>
      obtain rfl := Option.some.inj hrun
      exact ⟨ha, .inl rfl⟩
  | cons move moves ih =>
      obtain ⟨next, hnext, hrest⟩ := Option.bind_eq_some_iff.mp hrun
      have hmove (change : Settings → Settings) : move ≠ .update change := by
        rintro rfl
        exact hmoves change List.mem_cons_self
      obtain ⟨hupToDate, hcount⟩ := (step_of_after hnext).up_to_date ha hmove
      obtain ⟨hb, hlater⟩ := ih hupToDate
        (fun change hmem => hmoves change (List.mem_cons_of_mem move hmem)) hrest
      refine ⟨hb, ?_⟩
      rcases hlater with hkept | ⟨first, later, c, rfl, hfirst, hstoring⟩
      · rw [hkept]
        exact hcount.imp_right fun hstoring => ⟨[], move :: moves, a, rfl, rfl, hstoring⟩
      · exact .inr ⟨move :: first, later, c, rfl, (Scene.run_cons hnext first).trans hfirst,
          hstoring⟩

/-- A scan that finds the count notified last ends the evaluation, unless the settings ask for the
same count again. -/
theorem after_tick_unchanged {s : Settings} (hscanning : b.monitor.pending? = some (.scanning s))
    (hpos : 0 < b.monitor.lastCount) (hquiet : s.notifyOnSameCount = false) :
    ∃ b' seen, b.after (.tick (.scanned (.ok b.monitor.lastCount))) = some b' ∧
      b'.monitor.worker =
        some ⟨seen, .evaluating (.done (.ok (.unchanged b.monitor.lastCount)))⟩ := by
  obtain ⟨⟨seen, hworker⟩, hwaits⟩ := pending_eq_some hscanning
  have hdone : Stage.afterScan s b.monitor.lastCount (.ok b.monitor.lastCount) =
      .done (.ok (.unchanged b.monitor.lastCount)) := by
    obtain ⟨n, hn⟩ := Nat.exists_eq_succ_of_ne_zero (Nat.ne_of_gt hpos)
    rw [hn]
    exact if_pos (by simp [hquiet])
  refine ⟨_, seen, Scene.after_tick hworker hwaits rfl, ?_⟩
  rw [hdone]

/-- A change that comes while the worker is busy does not make it forget the count notified last:
it has seen the change when it waits again, and the count is that of before or one that was
notified since. A scan of the worker that finds it notifies nothing, unless the settings ask for
the same count again. -/
theorem unheeded_of_busy {moves : List Move} {seen : Nat} {phase : Phase}
    {change : Settings → Settings} (hworker : a.monitor.worker = some ⟨seen, phase⟩)
    (hbusy : ¬phase.Waits) (hmoves : ∀ later, .update later ∉ moves)
    (hrun : Scene.run moves { a with monitor := a.monitor.changed change } = some b) :
    b.monitor.UpToDate ∧
    (b.monitor.lastCount = a.monitor.lastCount ∨
      ∃ first later c, moves = first ++ later ∧
        Scene.run first { a with monitor := a.monitor.changed change } = some c ∧
        c.Storing b.monitor.lastCount) ∧
    ∀ s, b.monitor.pending? = some (.scanning s) → 0 < b.monitor.lastCount →
      s.notifyOnSameCount = false →
      ∃ b' seen', b.after (.tick (.scanned (.ok b.monitor.lastCount))) = some b' ∧
        b'.monitor.worker =
          some ⟨seen', .evaluating (.done (.ok (.unchanged b.monitor.lastCount)))⟩ := by
  have hbegin : (a.monitor.changed change).UpToDate :=
    ⟨seen, phase, hworker, fun hwaits => absurd hwaits hbusy⟩
  obtain ⟨hb, hcount⟩ := run_up_to_date hbegin hmoves hrun
  exact ⟨hb, hcount, fun s hscanning hpos hquiet => after_tick_unchanged hscanning hpos hquiet⟩

/-- A change that comes while the worker waits makes it forget the count notified last before it
gets any answer, unless the first thing that it does is to take the timer. The first of its
evaluations after that which finds duplicates hands over a notification, unless an evaluation
asked for has since notified the same count, which the settings do not ask for again. A change that
comes while the worker is busy, as during an evaluation, does not make it forget the count: it has
seen the change when it waits again, and its next evaluation notifies nothing if it finds the count
notified last. -/
theorem change_heeded {hub : SettingsHub} {before moves : List Move} {seen : Nat} {phase : Phase}
    {change : Settings → Settings} (ha : Scene.run before (.new hub) = some a)
    (hworker : a.monitor.worker = some ⟨seen, phase⟩)
    (hchange : (a.monitor.hub.update change).1 = true)
    (hrun : Scene.run moves { a with monitor := a.monitor.changed change } = some b) :
    (phase.Waits → (∀ first later, moves = first ++ .overtake :: later → .work ∈ first) →
      ∀ s, b.monitor.pending? = some (.scanning s) →
      ((∀ later, .update later ∉ moves) → s = change a.monitor.hub.current) ∧
      ∃ first later c, moves = first ++ later ∧ (∀ answer, .tick answer ∉ first) ∧
        Scene.run first { a with monitor := a.monitor.changed change } = some c ∧
        Scene.run later c = some b ∧ c.monitor.lastCount = 0 ∧
        ((∀ n, .tick (.scanned (.ok n)) ∈ moves → n = 0) → s.enabled = true ∧ ∀ n, 0 < n →
          (∃ b', b.after (.tick (.scanned (.ok n))) = some b' ∧
            b'.monitor.pending? = some (.posting s n)) ∨
          s.notifyOnSameCount = false ∧
            ∃ i, b.Ended i (.ok (.notified n)) ∧ ¬c.Ended i (.ok (.notified n)))) ∧
    (¬phase.Waits → (∀ later, .update later ∉ moves) →
      b.monitor.UpToDate ∧
      (b.monitor.lastCount = a.monitor.lastCount ∨
        ∃ first later c, moves = first ++ later ∧
          Scene.run first { a with monitor := a.monitor.changed change } = some c ∧
          c.Storing b.monitor.lastCount) ∧
      ∀ s, b.monitor.pending? = some (.scanning s) → 0 < b.monitor.lastCount →
        s.notifyOnSameCount = false →
        ∃ b' seen', b.after (.tick (.scanned (.ok b.monitor.lastCount))) = some b' ∧
          b'.monitor.worker =
            some ⟨seen', .evaluating (.done (.ok (.unchanged b.monitor.lastCount)))⟩) :=
  ⟨fun hwaits hmoves _ hscanning =>
      heeded_of_waits ha hworker hwaits hchange hmoves hrun hscanning,
    fun hbusy hmoves => unheeded_of_busy hworker hbusy hmoves hrun⟩

/-- A change of the window. -/
def weekly (s : Settings) : Settings :=
  { s with days := 7 }

/-- A week's window is set while the worker waits for its timer, and the next evaluation notifies
what it finds. If it is set while the worker waits for a scan, the next evaluation that finds the
count notified before keeps quiet about it. -/
theorem weekly_change_heeded :
    (∃ a b, Scene.run [.start, .work] (.new watchful) = some a ∧
      (∃ seen phase, a.monitor.worker = some ⟨seen, phase⟩ ∧ phase.Waits) ∧
      (a.monitor.hub.update weekly).1 = true ∧
      Scene.run [.work, .work, .wait 600, .work]
        { a with monitor := a.monitor.changed weekly } = some b ∧
      b.monitor.pending? = some (.scanning (weekly watchful.current)) ∧
      ∃ b', b.after (.tick (.scanned (.ok 1))) = some b' ∧
        b'.monitor.pending? = some (.posting (weekly watchful.current) 1)) ∧
    ∃ a b, Scene.run [.start, .work, .wait 600, .work, .tick (.scanned (.ok 1)),
        .tick (.posted (.ok ())), .tick .stored, .work, .work, .wait 600, .work]
        (.new watchful) = some a ∧
      (∃ seen phase, a.monitor.worker = some ⟨seen, phase⟩ ∧ ¬phase.Waits) ∧
      (a.monitor.hub.update weekly).1 = true ∧
      Scene.run [.tick (.scanned (.ok 0)), .work, .work, .wait 600, .work]
        { a with monitor := a.monitor.changed weekly } = some b ∧
      b.monitor.pending? = some (.scanning (weekly watchful.current)) ∧ b.monitor.UpToDate ∧
      ∃ b' seen, b.after (.tick (.scanned (.ok 1))) = some b' ∧
        b'.monitor.worker = some ⟨seen, .evaluating (.done (.ok (.unchanged 1)))⟩ := by
  constructor
  · obtain ⟨a, b, ha, ⟨seen, due, hworker⟩, hchange, hrun, hscanning, hasked⟩ :
        ∃ a b, Scene.run [.start, .work] (.new watchful) = some a ∧
          (∃ seen due, a.monitor.worker = some ⟨seen, .armed due⟩) ∧
          (a.monitor.hub.update weekly).1 = true ∧
          Scene.run [.work, .work, .wait 600, .work]
            { a with monitor := a.monitor.changed weekly } = some b ∧
          b.monitor.pending? = some (.scanning (weekly watchful.current)) ∧ b.asked = [] :=
      ⟨_, _, rfl, ⟨_, _, rfl⟩, rfl, rfl, rfl, rfl⟩
    have hmoves (first later : List Move)
        (h : [.work, .work, .wait 600, .work] = first ++ .overtake :: later) : .work ∈ first := by
      have hovertake : Move.overtake ∈ [.work, .work, .wait 600, .work] :=
        h ▸ List.mem_append_right first List.mem_cons_self
      simp at hovertake
    have hwaits : (Phase.armed due).Waits := .inr ⟨due, rfl⟩
    obtain ⟨hheeded, -⟩ := change_heeded ha hworker hchange hrun
    obtain ⟨-, first, later, c, -, -, -, -, -, hnotified⟩ := hheeded hwaits hmoves _ hscanning
    refine ⟨a, b, ha, ⟨seen, _, hworker, hwaits⟩, hchange, hrun, hscanning, ?_⟩
    rcases (hnotified (by simp)).2 1 Nat.one_pos with hposting | ⟨-, i, hended, -⟩
    · exact hposting
    · simp [Scene.Ended, hasked] at hended
  · obtain ⟨a, b, ha, ⟨seen, stage, hworker⟩, hchange, hrun, hscanning, hlast⟩ :
        ∃ a b, Scene.run [.start, .work, .wait 600, .work, .tick (.scanned (.ok 1)),
            .tick (.posted (.ok ())), .tick .stored, .work, .work, .wait 600, .work]
            (.new watchful) = some a ∧
          (∃ seen stage, a.monitor.worker = some ⟨seen, .evaluating stage⟩) ∧
          (a.monitor.hub.update weekly).1 = true ∧
          Scene.run [.tick (.scanned (.ok 0)), .work, .work, .wait 600, .work]
            { a with monitor := a.monitor.changed weekly } = some b ∧
          b.monitor.pending? = some (.scanning (weekly watchful.current)) ∧
          b.monitor.lastCount = 1 :=
      ⟨_, _, rfl, ⟨_, _, rfl⟩, rfl, rfl, rfl, rfl⟩
    have hbusy : ¬(Phase.evaluating stage).Waits := by simp [Phase.Waits]
    obtain ⟨-, hunheeded⟩ := change_heeded ha hworker hchange hrun
    obtain ⟨hupToDate, -, hquiet⟩ := hunheeded hbusy (by simp)
    rw [hlast] at hquiet
    exact ⟨a, b, ha, ⟨seen, _, hworker, hbusy⟩, hchange, hrun, hscanning, hupToDate,
      hquiet _ hscanning Nat.one_pos rfl⟩

/-- An evaluation that is asked for notifies a count after the change has been noticed, and the
worker's next one keeps quiet about it. A change that is made while the worker waits for a scan is
not noticed at all: the next evaluation keeps quiet about the count notified before the change. -/
theorem changes_lost :
    (∃ a b b', Scene.run [.start, .work] (.new watchful) = some a ∧
      (a.monitor.hub.update weekly).1 = true ∧
      Scene.run [.work, .work, .ask, .reply 0 (.scanned (.ok 1)), .reply 0 (.posted (.ok ())),
        .reply 0 .stored, .wait 600, .work]
        { a with monitor := a.monitor.changed weekly } = some b ∧
      b.monitor.pending? = some (.scanning (weekly watchful.current)) ∧
      b.after (.tick (.scanned (.ok 1))) = some b' ∧
      b'.monitor.worker = some ⟨1, .evaluating (.done (.ok (.unchanged 1)))⟩) ∧
    ∃ a b b', Scene.run [.start, .work, .wait 600, .work, .tick (.scanned (.ok 1)),
        .tick (.posted (.ok ())), .tick .stored, .work, .work, .wait 600, .work]
        (.new watchful) = some a ∧
      (a.monitor.hub.update weekly).1 = true ∧
      Scene.run [.tick (.scanned (.ok 0)), .work, .work, .wait 600, .work]
        { a with monitor := a.monitor.changed weekly } = some b ∧
      b.monitor.pending? = some (.scanning (weekly watchful.current)) ∧
      b.after (.tick (.scanned (.ok 1))) = some b' ∧
      b'.monitor.worker = some ⟨1, .evaluating (.done (.ok (.unchanged 1)))⟩ :=
  ⟨⟨_, _, _, rfl, rfl, rfl, rfl, rfl, rfl⟩, ⟨_, _, _, rfl, rfl, rfl, rfl, rfl, rfl⟩⟩

end CustomerDedupe.Monitor
