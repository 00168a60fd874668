import CustomerDedupe.Proofs.Monitor.Kept
import CustomerDedupe.Proofs.Monitor.Unlogged

/-!
# The count notified last

After every history, the count that a monitor remembers is that of the last notification that was
accepted, or zero if none has been since its worker noticed a change of the settings. An evaluation
asks for one scan if monitoring is on, and for nothing if it is off (`Reports`). It hands over one
notification if it finds duplicates and their number is not the one remembered, or the settings ask
for the same number again, and otherwise none.
-/

namespace CustomerDedupe.Monitor

variable {σ : Type}

/-- The notifications handed over, last first, with their answers. -/
def handedIn (log : List Event) : List (NotificationItem × Except Failure Unit) :=
  log.flatMap fun
    | .looked look => look.handed
    | .posted item answer => [(item, answer)]
    | _ => []

/-- The notifications that were accepted, last first. -/
def acceptedIn (log : List Event) : List NotificationItem :=
  (handedIn log).filterMap fun (item, answer) =>
    match answer with
    | .ok () => some item
    | .error _ => none

/-- The answers of scans, last first. -/
def answersIn (log : List Event) : List (Except Failure Nat) :=
  log.filterMap fun
    | .looked look => some look.answer
    | _ => none

@[simp] theorem handed_in_looked (look : Look) : handedIn [.looked look] = look.handed := by
  simp [handedIn]

@[simp] theorem answers_in_looked (look : Look) : answersIn [.looked look] = [look.answer] := rfl

/-- What an evaluation under some settings asks for, hands over, returns and remembers, given the
count that was notified last. -/
structure Reports (s : Settings) (moment : Moment) (k : Nat) (news : List Event)
    (r : Except Failure TickOutcome) (k' : Nat) : Prop where
  asked : ∀ look, .looked look ∈ news → look.days = s.days ∧ look.includeFuzzy = s.includeFuzzy
  /-- It asks for one scan and for nothing else, if monitoring is on. -/
  scanned : s.enabled = true → ∃ look, news = [.looked look]
  /-- It asks for nothing and hands over nothing, if monitoring is off. -/
  idle : s.enabled = false → news = []
  handed_le : (handedIn news).length ≤ 1
  handed_iff : (handedIn news).length = 1 ↔ s.enabled = true ∧
    ∃ n, 0 < n ∧ .ok n ∈ answersIn news ∧ (s.notifyOnSameCount = true ∨ n ≠ k)
  /-- What it hands over is the notification of the count that the scan has found. -/
  handed : ∀ item answer, (item, answer) ∈ handedIn news →
    ∃ n, .ok n ∈ answersIn news ∧ item = notification moment s n
  disabled : r = .ok .disabled ↔ s.enabled = false
  noDuplicates : r = .ok .noDuplicates ↔ .ok 0 ∈ answersIn news
  unchanged : ∀ n, r = .ok (.unchanged n) ↔
    0 < n ∧ n = k ∧ .ok n ∈ answersIn news ∧ s.notifyOnSameCount = false
  failed : ∀ e, r = .error e ↔
    .error e ∈ answersIn news ∨ ∃ item, (item, .error e) ∈ handedIn news
  notified : ∀ n, r = .ok (.notified n) →
    k' = n ∧ .ok n ∈ answersIn news ∧ acceptedIn news = [notification moment s n]
  quiet : (∀ n, r ≠ .ok (.notified n)) → k' = k ∧ acceptedIn news = []

/-- An evaluation that finds duplicates whose number is due hands over one notification. -/
theorem handed_iff_of_due {s : Settings} {k n : Nat} {look : Look} (hon : s.enabled = true)
    (hpos : 0 < n) (hdue : s.notifyOnSameCount = true ∨ n ≠ k) (hanswer : look.answer = .ok n)
    (hone : look.handed.length = 1) :
    (handedIn [.looked look]).length = 1 ↔ s.enabled = true ∧
      ∃ n, 0 < n ∧ .ok n ∈ answersIn [.looked look] ∧ (s.notifyOnSameCount = true ∨ n ≠ k) := by
  rw [handed_in_looked, answers_in_looked, hanswer]
  exact iff_of_true hone ⟨hon, n, hpos, List.mem_singleton_self _, hdue⟩

/-- A count that is due does not go unchanged. -/
theorem not_unchanged_of_due {s : Settings} {k n m : Nat}
    (hdue : s.notifyOnSameCount = true ∨ n ≠ k) :
    ¬(0 < m ∧ m = k ∧ (.ok m : Except Failure Nat) ∈ [.ok n] ∧ s.notifyOnSameCount = false) := by
  rintro ⟨-, rfl, hmem, hquiet⟩
  obtain rfl := Except.ok.inj (List.mem_singleton.mp hmem)
  rcases hdue with hnotify | hne
  · rw [hquiet] at hnotify
    exact Bool.false_ne_true hnotify
  · exact hne rfl

/-- Every evaluation reports so. -/
theorem Evaluated.reports {s : Settings} {moment : Moment} {k k' : Nat} {news : List Event}
    {r : Except Failure TickOutcome} (h : Evaluated s moment k news r k') :
    Reports s moment k news r k' := by
  cases h with
  | disabled hoff =>
      constructor
      all_goals simp [handedIn, acceptedIn, answersIn, hoff]
  | scan_failed hon e =>
      constructor
      case failed => simp [eq_comm]
      all_goals simp [acceptedIn, hon]
  | no_duplicates hon =>
      constructor
      case unchanged =>
        refine fun m => iff_of_false (by simp) ?_
        rintro ⟨hpos, -, hfound, -⟩
        obtain rfl : m = 0 := by simpa using hfound
        exact Nat.lt_irrefl 0 hpos
      all_goals simp +contextual [acceptedIn, hon]
  | unchanged hon hpos hquiet =>
      constructor
      case noDuplicates => simp [Nat.ne_of_lt hpos]
      case unchanged =>
        intro m
        constructor
        · intro hsame
          obtain rfl : k = m := by simpa using hsame
          exact ⟨hpos, rfl, List.mem_singleton_self _, hquiet⟩
        · rintro ⟨-, rfl, -⟩
          rfl
      all_goals simp [acceptedIn, hon, hquiet]
  | refused hon hpos hdue e =>
      constructor
      case handed_iff => exact handed_iff_of_due hon hpos hdue rfl rfl
      case noDuplicates => simp [Nat.ne_of_lt hpos]
      case unchanged => exact fun m => iff_of_false (by simp) (not_unchanged_of_due hdue)
      case failed => simp [eq_comm]
      all_goals simp [acceptedIn, hon]
  | notified hon hpos hdue =>
      constructor
      case handed_iff => exact handed_iff_of_due hon hpos hdue rfl rfl
      case noDuplicates => simp [Nat.ne_of_lt hpos]
      case unchanged => exact fun m => iff_of_false (by simp) (not_unchanged_of_due hdue)
      all_goals simp [acceptedIn, hon]

/-- An evaluation scans only if monitoring is on. -/
theorem Evaluated.enabled_of_looked {s : Settings} {moment : Moment} {k k' : Nat} {look : Look}
    {r : Except Failure TickOutcome} (h : Evaluated s moment k [.looked look] r k') :
    s.enabled = true := by
  cases h with
  | scan_failed hon | no_duplicates hon | unchanged hon | refused hon | notified hon => exact hon

/-- An evaluation whose notification was accepted was due, and found the count of it. -/
theorem Evaluated.of_accepted {s : Settings} {moment : Moment} {k k' n : Nat} {look : Look}
    {r : Except Failure TickOutcome} (h : Evaluated s moment k [.looked look] r k')
    (haccepted : look.accepted? = some n) : s.notifyOnSameCount = true ∨ n ≠ k := by
  cases h with
  | scan_failed | no_duplicates | unchanged | refused => simp [Look.accepted?] at haccepted
  | notified hon hpos hdue =>
      obtain rfl : k' = n := by simpa [Look.accepted?] using haccepted
      exact hdue

/-- A positive count is not the one notified last as long as it is not accepted. -/
theorem last_accepted_append_ne {between log : List Event} {n : Nat} (hpos : 0 < n)
    (hbetween : ∀ look, .looked look ∈ between → look.accepted? ≠ some n)
    (hlog : lastAccepted log ≠ n) : lastAccepted (between ++ log) ≠ n := by
  induction between with
  | nil => exact hlog
  | cons e between ih =>
      have hrest := ih fun look h => hbetween look (List.mem_cons_of_mem e h)
      have hcount : e.count? ≠ some n := by
        cases e with
        | looked look => exact hbetween look List.mem_cons_self
        | turned noticed =>
            cases noticed with
            | true => simpa [Event.count?] using Nat.ne_of_lt hpos
            | false => simp [Event.count?]
        | updated _ | started | stopped | posted _ _ => simp [Event.count?]
      rw [List.cons_append, last_accepted_cons]
      cases h : e.count? with
      | none => exact hrest
      | some k => exact fun heq => hcount (h.trans (congrArg some heq))

/-- What the count that a monitor remembers has to do with the log. -/
structure CountsAccepted (initial : Settings) (m : Monitor) (log : List Event) : Prop where
  /-- It is the count of the last notification accepted since a change was noticed. -/
  lastCount : m.lastCount = lastAccepted log
  /-- A change is noticed when the worker can do what is ready and has missed one. -/
  noticed : ∀ noticed earlier, .turned noticed :: earlier <:+ log →
    (noticed = true ↔ viewAt initial earlier = .looked true)
  /-- Every scan belongs to an evaluation that reports what is due. -/
  reports : ∀ look earlier, .looked look :: earlier <:+ log → ∃ moment r k,
    Reports (settingsAt initial earlier) moment (lastAccepted earlier) [.looked look] r k
  /-- Nothing is handed over without a scan. -/
  scanned : ∀ item answer, .posted item answer ∉ log
  /-- Of two notifications accepted one after the other, without a change noticed between them,
  the second has another count unless the settings ask for the same. -/
  differ : ∀ first second between earlier,
    .looked second :: (between ++ .looked first :: earlier) <:+ log →
    (∀ e ∈ between, e.count? = none) →
    (settingsAt initial (between ++ .looked first :: earlier)).notifyOnSameCount = false →
    ∀ a b, first.accepted? = some a → second.accepted? = some b → a ≠ b
  /-- A count whose notification was refused is notified again by the next evaluation that finds
  it. -/
  retried : ∀ first second between earlier n,
    .looked second :: (between ++ .looked first :: earlier) <:+ log →
    (settingsAt initial earlier).notifyOnSameCount = false →
    first.answer = .ok n → first.handed.length = 1 → first.accepted? = none →
    (∀ look, .looked look ∈ between → look.accepted? ≠ some n) →
    second.answer = .ok n → second.handed.length = 1

/-- Of two notifications that a lawful log has accepted one after the other, the second has
another count unless the settings ask for the same. -/
theorem Lawful.differ {initial : Settings} {log between earlier : List Event}
    {first second : Look} {a b : Nat} (h : Lawful initial log)
    (hlog : .looked second :: (between ++ .looked first :: earlier) <:+ log)
    (hbetween : ∀ e ∈ between, e.count? = none)
    (hquiet : (settingsAt initial (between ++ .looked first :: earlier)).notifyOnSameCount = false)
    (ha : first.accepted? = some a) (hb : second.accepted? = some b) : a ≠ b := by
  obtain ⟨moment, r, k, hevaluated⟩ := h _ _ hlog
  have hlast : lastAccepted (between ++ .looked first :: earlier) = a := by
    rw [lastAccepted, latest_append 0 _ hbetween, latest_cons, Event.count?, ha, Option.getD_some]
  rcases hevaluated.of_accepted hb with hnotify | hne
  · rw [hquiet] at hnotify
    exact absurd hnotify (by decide)
  · rw [hlast] at hne
    exact hne.symm

/-- The evaluations of a lawful log report what is due. -/
theorem Lawful.reports {initial : Settings} {log earlier : List Event} {look : Look}
    (h : Lawful initial log) (hlog : .looked look :: earlier <:+ log) : ∃ moment r k,
    Reports (settingsAt initial earlier) moment (lastAccepted earlier) [.looked look] r k := by
  obtain ⟨moment, r, k, hevaluated⟩ := h _ _ hlog
  exact ⟨moment, r, k, hevaluated.reports⟩

/-- A count whose notification was refused in a lawful log is notified again by the next
evaluation that finds it. -/
theorem Lawful.retried {initial : Settings} {log between earlier : List Event}
    {first second : Look} {n : Nat} (h : Lawful initial log)
    (hlog : .looked second :: (between ++ .looked first :: earlier) <:+ log)
    (hquiet : (settingsAt initial earlier).notifyOnSameCount = false)
    (hfound : first.answer = .ok n) (hhanded : first.handed.length = 1)
    (hrefused : first.accepted? = none)
    (hbetween : ∀ look, .looked look ∈ between → look.accepted? ≠ some n)
    (hagain : second.answer = .ok n) : second.handed.length = 1 := by
  have hfirst : .looked first :: earlier <:+ log :=
    (List.suffix_append between _).trans ((List.suffix_cons _ _).trans hlog)
  obtain ⟨hpos, hne⟩ : 0 < n ∧ n ≠ lastAccepted earlier := by
    obtain ⟨moment, r, k, hreports⟩ := h.reports hfirst
    obtain ⟨-, n', hpos, hn', hdue⟩ := hreports.handed_iff.mp
      (by rw [handed_in_looked]; exact hhanded)
    obtain rfl : n' = n := by simpa [hfound] using hn'
    exact ⟨hpos, hdue.resolve_left (by simp [hquiet])⟩
  -- the refused count was not the one notified last, and nothing has made it so since
  have hlast : lastAccepted (between ++ .looked first :: earlier) ≠ n := by
    refine last_accepted_append_ne hpos hbetween ?_
    rw [last_accepted_cons, Event.count?, hrefused]
    exact hne.symm
  obtain ⟨moment, r, k, hevaluated⟩ := h _ _ hlog
  have hdone := hevaluated.reports.handed_iff.mpr
    ⟨hevaluated.enabled_of_looked, n, hpos, by simp [hagain], .inr hlast.symm⟩
  rwa [handed_in_looked] at hdone

/-- What a history has kept relates the count that the monitor remembers to the log. -/
theorem Kept.counts_accepted {initial : Settings} {m : Monitor} {log : List Event}
    (h : Kept initial m log) : CountsAccepted initial m log where
  lastCount := h.tells.lastCount
  noticed _ _ hlog := h.tells.lawful _ _ hlog
  reports _ _ hlog := h.tells.lawful.reports hlog
  scanned item answer hmem := by
    obtain ⟨later, earlier, rfl⟩ := List.append_of_mem hmem
    exact h.tells.lawful _ _ (List.suffix_append later _)
  differ _ _ _ _ hlog hbetween hquiet _ _ ha hb :=
    h.tells.lawful.differ hlog hbetween hquiet ha hb
  retried _ _ _ _ _ hlog hquiet hfound hhanded hrefused hbetween hagain :=
    h.tells.lawful.retried hlog hquiet hfound hhanded hrefused hbetween hagain

/-- After every history the count that the monitor remembers is that of the last notification
accepted since a change was noticed, evaluations hand over what is due, and one that is asked for
next does so again. -/
theorem last_count_is_last_accepted (out : Outside σ) (hub : SettingsHub) (o : σ)
    (history : List (Moment × Command)) :
    let w := ran out hub o history
    lived out hub o history = ⟨w.monitor, w.outside.outside⟩ ∧
      CountsAccepted hub.current w.monitor w.outside.log ∧
      ∀ moment journal, ∃ r k news,
        Reports w.monitor.hub.current moment w.monitor.lastCount news r k ∧
        Leaves (runOnce out.recorded moment) ⟨w, journal⟩ r { w.monitor with lastCount := k }
          (news ++ w.outside.log) := by
  refine ⟨ran_unlogged out hub o history, (ran_kept out hub o history).counts_accepted, ?_⟩
  intro moment journal
  obtain ⟨r, k, news, hevaluated, hleaves⟩ :=
    run_once_evaluates out moment ⟨ran out hub o history, journal⟩
  exact ⟨r, k, news, hevaluated.reports, hleaves⟩

/-- An outside whose scans find given numbers of groups, one after the other, and which accepts
every notification. -/
def scripted : Outside (List Nat) where
  scan _ _ := .perform fun counts => (.ok (counts.headD 0), counts.tail)
  post _ := pure ()

/-- Settings with monitoring switched on. -/
def watchful : SettingsHub :=
  .new { Settings.default with enabled := true }

/-- Evaluations that are asked for, one after the other. -/
def evaluations (n : Nat) : List (Moment × Command) :=
  List.replicate n (⟨default, default⟩, .runOnce)

/-- Two scans find two groups each, which are notified once. -/
theorem ran_two_twice :
    (ran scripted watchful [2, 2, 3] (evaluations 2)).outside.log =
      [.looked ⟨30, false, .ok 2, []⟩,
        .looked ⟨30, false, .ok 2,
          [(notification ⟨default, default⟩ watchful.current 2, .ok ())]⟩] := by
  decide +kernel

/-- A third scan finds three, which are notified. -/
theorem three_after_two_twice :
    ((runOnce scripted.recorded ⟨default, default⟩).run
      ⟨ran scripted watchful [2, 2, 3] (evaluations 2), []⟩).2.world.outside.log =
      [.looked ⟨30, false, .ok 3,
        [(notification ⟨default, default⟩ watchful.current 3, .ok ())]⟩] ++
        (ran scripted watchful [2, 2, 3] (evaluations 2)).outside.log := by
  decide +kernel

theorem hub_after_two_twice :
    (ran scripted watchful [2, 2, 3] (evaluations 2)).monitor.hub.current = watchful.current := by
  decide +kernel

/-- The count of the notification that was accepted is remembered, and the next evaluation, which
finds another count, notifies it. -/
theorem third_count_notified :
    (ran scripted watchful [2, 2, 3] (evaluations 2)).monitor.lastCount = 2 ∧ ∃ r k news,
      Reports watchful.current ⟨default, default⟩ 2 news r k ∧
      Leaves (runOnce scripted.recorded ⟨default, default⟩)
        ⟨ran scripted watchful [2, 2, 3] (evaluations 2), []⟩ r
        { (ran scripted watchful [2, 2, 3] (evaluations 2)).monitor with lastCount := k }
        (news ++ (ran scripted watchful [2, 2, 3] (evaluations 2)).outside.log) ∧
      r = .ok (.notified 3) ∧ k = 3 ∧
      acceptedIn news = [notification ⟨default, default⟩ watchful.current 3] := by
  have hkept := last_count_is_last_accepted scripted watchful [2, 2, 3] (evaluations 2)
  generalize hw : ran scripted watchful [2, 2, 3] (evaluations 2) = w at hkept ⊢
  have hlog := ran_two_twice
  have hnext := three_after_two_twice
  have hhub := hub_after_two_twice
  rw [hw] at hlog hnext hhub
  obtain ⟨-, hcounts, hreport⟩ := hkept
  have hlast : w.monitor.lastCount = 2 := by
    rw [hcounts.lastCount, hlog]
    rfl
  obtain ⟨r, k, news, hreports, hleaves⟩ := hreport ⟨default, default⟩ []
  obtain rfl := List.append_cancel_right (hleaves.log.symm.trans hnext)
  rw [hhub, hlast] at hreports
  refine ⟨hlast, r, k, _, hreports, hleaves, ?_⟩
  match r with
  | .error e =>
      rcases hreports.failed e |>.mp rfl with hscan | ⟨item, hitem⟩
      · simp at hscan
      · simp at hitem
  | .ok .disabled => exact absurd (hreports.disabled.mp rfl) (by decide)
  | .ok .noDuplicates =>
      have hnone := hreports.noDuplicates.mp rfl
      simp at hnone
  | .ok (.unchanged n) =>
      obtain ⟨-, rfl, hfound, -⟩ := (hreports.unchanged n).mp rfl
      simp at hfound
  | .ok (.notified n) =>
      obtain ⟨rfl, hfound, haccepted⟩ := hreports.notified n rfl
      obtain rfl : k = 3 := by simpa using hfound
      exact ⟨rfl, rfl, haccepted⟩

end CustomerDedupe.Monitor
