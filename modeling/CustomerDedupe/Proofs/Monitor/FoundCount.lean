import CustomerDedupe.Proofs.Monitor.LastCount

/-!
# The count found last

A monitor compares the count that a scan finds with the one it notified last. As long as the
settings stay as they are and nothing fails, that is the last positive count that a scan has found
(`last_accepted_eq_last_found`). A scan that finds no duplicates does not make the monitor forget
it, so that a count which comes back after none is not notified again.
-/

namespace CustomerDedupe.Monitor

variable {σ : Type}

/-- The count that a scan found, if it is positive. -/
def Look.found? (look : Look) : Option Nat :=
  match look.answer with
  | .ok 0 | .error _ => none
  | .ok n => some n

def Event.found? : Event → Option Nat
  | .looked look => look.found?
  | _ => none

/-- The last positive count that a scan has found, or zero. -/
def lastFound (log : List Event) : Nat :=
  latest Event.found? 0 log

@[simp] theorem last_found_cons (e : Event) (log : List Event) :
    lastFound (e :: log) = e.found?.getD (lastFound log) :=
  latest_cons _ _ _ _

/-- The settings have stayed as they were, and no scan and no notification has failed. -/
structure Undisturbed (log : List Event) : Prop where
  settings : ∀ s, .updated s ∉ log
  scanned : ∀ look, .looked look ∈ log → ∃ n, look.answer = .ok n
  accepted : ∀ look, .looked look ∈ log → ∀ handed ∈ look.handed, handed.2 = .ok ()

theorem Undisturbed.tail {e : Event} {log : List Event} (h : Undisturbed (e :: log)) :
    Undisturbed log where
  settings s hmem := h.settings s (List.mem_cons_of_mem e hmem)
  scanned look hmem := h.scanned look (List.mem_cons_of_mem e hmem)
  accepted look hmem := h.accepted look (List.mem_cons_of_mem e hmem)

/-- Where the settings stay as they are, the worker misses no change. -/
theorem view_at_ne_of_undisturbed {initial : Settings} {log : List Event} (h : Undisturbed log) :
    viewAt initial log ≠ .looked true := by
  induction log with
  | nil => simp [viewAt]
  | cons e log ih =>
      have hlog := ih h.tail
      cases e with
      | updated s => exact absurd List.mem_cons_self (h.settings s)
      | started =>
          rw [viewAt, View.after]
          split
          · simp
          · exact hlog
      | turned noticed =>
          rw [viewAt, View.after]
          split <;> simp
      | stopped => simp [viewAt, View.after]
      | looked _ | posted _ _ => exact hlog

/-- An evaluation in which nothing fails leaves the count that it has found, if it is positive. -/
theorem Evaluated.accepted_eq_found {s : Settings} {moment : Moment} {k k' : Nat} {look : Look}
    {r : Except Failure TickOutcome} (h : Evaluated s moment k [.looked look] r k')
    (hscanned : ∃ n, look.answer = .ok n) (haccepted : ∀ handed ∈ look.handed, handed.2 = .ok ()) :
    look.accepted?.getD k = look.found?.getD k := by
  cases h with
  | scan_failed hon e => simp at hscanned
  | no_duplicates hon => rfl
  | unchanged hon hpos hquiet =>
      obtain ⟨n, rfl⟩ := Nat.exists_eq_succ_of_ne_zero (Nat.ne_of_gt hpos)
      rfl
  | refused hon hpos hdue e => simp at haccepted
  | notified hon hpos hdue =>
      obtain ⟨n, rfl⟩ := Nat.exists_eq_succ_of_ne_zero (Nat.ne_of_gt hpos)
      rfl

/-- As long as nothing changes or fails, the count notified last is the last one found. -/
theorem last_accepted_eq_last_found {initial : Settings} {log : List Event}
    (hlawful : Lawful initial log) (h : Undisturbed log) : lastAccepted log = lastFound log := by
  induction log with
  | nil => rfl
  | cons e log ih =>
      have hearlier : lastAccepted log = lastFound log :=
        ih (fun e' earlier hlog => hlawful e' earlier (hlog.trans (List.suffix_cons e log))) h.tail
      have hobeys := hlawful e log (List.suffix_refl _)
      rw [last_accepted_cons, last_found_cons]
      cases e with
      | turned noticed =>
          cases noticed with
          | true =>
              -- there has been no change that the worker could have missed
              exact absurd (hobeys.mp rfl) (view_at_ne_of_undisturbed h.tail)
          | false => exact hearlier
      | looked look =>
          obtain ⟨moment, r, k, hevaluated⟩ := hobeys
          rw [← hearlier]
          exact hevaluated.accepted_eq_found (h.scanned look List.mem_cons_self)
            (h.accepted look List.mem_cons_self)
      | updated _ | started | stopped | posted _ _ => exact hearlier

/-- As long as they are not changed, the settings are the initial ones. -/
theorem settings_at_of_undisturbed {initial : Settings} {log : List Event} (h : Undisturbed log) :
    settingsAt initial log = initial := by
  have hnone : ∀ e ∈ log, e.settings? = none := by
    intro e hmem
    cases e with
    | updated s => exact absurd hmem (h.settings s)
    | started | turned _ | stopped | looked _ | posted _ _ => rfl
  rw [← log.append_nil, settingsAt, latest_append initial [] hnone]
  rfl

theorem Undisturbed.of_suffix {log earlier : List Event} (h : Undisturbed log)
    (hlog : earlier <:+ log) : Undisturbed earlier where
  settings s hmem := h.settings s (hlog.subset hmem)
  scanned look hmem := h.scanned look (hlog.subset hmem)
  accepted look hmem := h.accepted look (hlog.subset hmem)

/-- As long as nothing changes or fails, an evaluation that finds duplicates notifies their number
unless it is the last positive one found and the settings do not ask for the same again. -/
theorem count_notified_unless_last_found (out : Outside σ) (hub : SettingsHub) (o : σ)
    (history : List (Moment × Command)) (h : Undisturbed (ran out hub o history).outside.log)
    {look : Look} {earlier : List Event} {n : Nat}
    (hlog : .looked look :: earlier <:+ (ran out hub o history).outside.log)
    (hfound : look.answer = .ok n) (hpos : 0 < n) :
    (hub.current.notifyOnSameCount = true ∨ n ≠ lastFound earlier →
      ∃ moment, look.handed = [(notification moment hub.current n, .ok ())]) ∧
    (hub.current.notifyOnSameCount = false → n = lastFound earlier → look.handed = []) := by
  have hlawful := (ran_kept out hub o history).tells.lawful
  have hearlier : earlier <:+ (ran out hub o history).outside.log :=
    (List.suffix_cons _ _).trans hlog
  have haccepted := h.accepted look (hlog.subset List.mem_cons_self)
  obtain ⟨moment, r, k, hevaluated⟩ := hlawful _ _ hlog
  rw [settings_at_of_undisturbed (h.of_suffix hearlier),
    last_accepted_eq_last_found (fun e earlier h => hlawful e earlier (h.trans hearlier))
      (h.of_suffix hearlier)] at hevaluated
  cases hevaluated with
  | scan_failed hon e => simp at hfound
  | no_duplicates hon =>
      obtain rfl : 0 = n := by simpa using hfound
      exact absurd hpos (Nat.lt_irrefl 0)
  | unchanged hon _ hquiet =>
      have hlast : lastFound earlier = n := by simpa using hfound
      refine ⟨?_, fun _ _ => rfl⟩
      rintro (hnotify | hne)
      · rw [hquiet] at hnotify
        exact absurd hnotify (by decide)
      · exact absurd hlast.symm hne
  | refused hon _ hdue e => simp at haccepted
  | notified hon _ hdue =>
      obtain rfl : k = n := by simpa using hfound
      refine ⟨fun _ => ⟨moment, rfl⟩, ?_⟩
      intro hquiet hlast
      rcases hdue with hnotify | hne
      · rw [hquiet] at hnotify
        exact absurd hnotify (by decide)
      · exact absurd hlast hne

/-- The scans find two groups, none, and two again, and only the first two are notified. -/
theorem ran_rise_after_none :
    (ran scripted watchful [2, 0, 2] (evaluations 3)).outside.log =
      [.looked ⟨30, false, .ok 2, []⟩, .looked ⟨30, false, .ok 0, []⟩,
        .looked ⟨30, false, .ok 2,
          [(notification ⟨default, default⟩ watchful.current 2, .ok ())]⟩] := by
  decide +kernel

theorem rise_after_none_undisturbed :
    Undisturbed (ran scripted watchful [2, 0, 2] (evaluations 3)).outside.log := by
  rw [ran_rise_after_none]
  constructor <;> simp

/-- The two groups found first are notified, since none had been found before. -/
theorem first_count_notified :
    Undisturbed (ran scripted watchful [2, 0, 2] (evaluations 3)).outside.log ∧
      ∃ look : Look, [.looked look] <:+ (ran scripted watchful [2, 0, 2] (evaluations 3)).outside.log ∧
        look.answer = .ok 2 ∧
        ∃ moment, look.handed = [(notification moment watchful.current 2, .ok ())] := by
  have hfirst : [.looked ⟨30, false, .ok 2,
      [(notification ⟨default, default⟩ watchful.current 2, .ok ())]⟩] <:+
      (ran scripted watchful [2, 0, 2] (evaluations 3)).outside.log := by
    rw [ran_rise_after_none]
    exact ⟨[_, _], rfl⟩
  refine ⟨rise_after_none_undisturbed, _, hfirst, rfl, ?_⟩
  exact (count_notified_unless_last_found scripted watchful [2, 0, 2] (evaluations 3)
    rise_after_none_undisturbed hfirst rfl (by decide)).1 (.inr (by decide))

/-- It is not so that every evaluation notifies the positive number that it finds if the
evaluation before has found another: none may have been found in between. -/
theorem rise_after_none_unnoticed :
    ¬ ∀ (out : Outside (List Nat)) (hub : SettingsHub) (o : List Nat)
      (history : List (Moment × Command)), hub.current.enabled = true →
      Undisturbed (ran out hub o history).outside.log →
      ∀ second first between earlier m n,
        .looked second :: (between ++ .looked first :: earlier) <:+
          (ran out hub o history).outside.log →
        (∀ look, .looked look ∉ between) → first.answer = .ok m → second.answer = .ok n →
        m ≠ n → 0 < n → second.handed.length = 1 := by
  intro hclaim
  have hposted := hclaim scripted watchful [2, 0, 2] (evaluations 3) rfl
    rise_after_none_undisturbed ⟨30, false, .ok 2, []⟩ ⟨30, false, .ok 0, []⟩ []
    [.looked ⟨30, false, .ok 2, [(notification ⟨default, default⟩ watchful.current 2, .ok ())]⟩]
    0 2 (by rw [ran_rise_after_none]; exact List.suffix_refl _) (by simp) rfl rfl (by decide)
    (by decide)
  exact absurd hposted (by decide)

end CustomerDedupe.Monitor
