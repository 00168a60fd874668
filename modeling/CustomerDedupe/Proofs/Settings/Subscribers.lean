import Mathlib.Data.List.Basic
import Mathlib.Data.List.Induction
import CustomerDedupe.Settings.Hub

/-!
# What subscribers hear of

Shared settings are changed, subscribed to and read in any order, by any number of subscribers.
What the settings are is told by the changes alone (`settingsAfter`), and so is which calls matter
to the monitor (`Call.Matters`). A subscriber has something new exactly if a call that matters was
made after it has subscribed and last read, even if the change has been taken back since
(`subscribers_hear`).
-/

namespace CustomerDedupe

namespace SettingsHub

theorem update_current (hub : SettingsHub) (change : Settings → Settings) :
    (hub.update change).2.current = change hub.current := by
  simp only [SettingsHub.update]
  split <;> rfl

/-- A change that matters to the monitor raises the version. -/
theorem update_version (hub : SettingsHub) (change : Settings → Settings) :
    (hub.update change).2.version =
      if (change hub.current).monitorSettings = hub.current.monitorSettings then hub.version
      else hub.version + 1 := by
  simp only [SettingsHub.update]
  split <;> rfl

/-- The answer to a change tells whether it matters to the monitor. -/
theorem update_answer (hub : SettingsHub) (change : Settings → Settings) :
    (hub.update change).1 = true ↔
      (change hub.current).monitorSettings ≠ hub.current.monitorSettings := by
  simp only [SettingsHub.update]
  split <;> simp_all

/-- What can be done to shared settings. -/
inductive Call where
  | update (change : Settings → Settings)
  | replace (s : Settings)
  | setEnabled (v : Bool)
  | setDays (v : Int)
  | setIncludeFuzzy (v : Bool)
  | setScoreThreshold (v : Int)
  | setMonitorIntervalMinutes (v : Int)
  | setNotifyOnSameCount (v : Bool)
  | setField (f : CompareField) (enabled : Bool) (weight : Nat)
  /-- One more subscribes. -/
  | subscribe
  /-- A subscriber reads the settings. -/
  | read (i : Nat)

namespace Call

/-- The change that a call makes, if it makes one. -/
def change? : Call → Option (Settings → Settings)
  | .update change => some change
  | .replace s => some fun _ => s
  | .setEnabled v => some fun s => { s with enabled := v }
  | .setDays v => some fun s => { s with days := v }
  | .setIncludeFuzzy v => some fun s => { s with includeFuzzy := v }
  | .setScoreThreshold v => some fun s => { s with scoreThreshold := v }
  | .setMonitorIntervalMinutes v => some fun s => { s with monitorIntervalMinutes := v }
  | .setNotifyOnSameCount v => some fun s => { s with notifyOnSameCount := v }
  | .setField f enabled weight => some fun s => s.setField f enabled weight
  | .subscribe | .read _ => none

def subscribes : Call → Bool
  | .subscribe => true
  | _ => false

/-- A call makes a difference to the monitor. -/
def Matters (s : Settings) (c : Call) : Prop :=
  ∃ change, c.change? = some change ∧ (change s).monitorSettings ≠ s.monitorSettings

end Call

/-- The settings after calls: every change is applied, whether or not it matters. -/
def settingsAfter (initial : Settings) (calls : List Call) : Settings :=
  (calls.filterMap Call.change?).foldl (fun s change => change s) initial

/-- A call that matters was made after a subscriber, counted from the first, has subscribed and
last read. -/
def Missed (initial : Settings) (calls : List Call) (i : Nat) : Prop :=
  ∃ earlier c later, calls = earlier ++ c :: later ∧
    i < earlier.countP Call.subscribes ∧ Call.read i ∉ later ∧
    c.Matters (settingsAfter initial earlier)

/-- Shared settings with their subscribers, first subscribed first. -/
structure Shared where
  hub : SettingsHub
  subscribers : List Subscriber

/-- What a call leaves. -/
def Shared.after (shared : Shared) : Call → Shared
  | .update change => { shared with hub := (shared.hub.update change).2 }
  | .replace s => { shared with hub := (shared.hub.replace s).2 }
  | .setEnabled v => { shared with hub := shared.hub.setEnabled v }
  | .setDays v => { shared with hub := shared.hub.setDays v }
  | .setIncludeFuzzy v => { shared with hub := shared.hub.setIncludeFuzzy v }
  | .setScoreThreshold v => { shared with hub := shared.hub.setScoreThreshold v }
  | .setMonitorIntervalMinutes v => { shared with hub := shared.hub.setMonitorIntervalMinutes v }
  | .setNotifyOnSameCount v => { shared with hub := shared.hub.setNotifyOnSameCount v }
  | .setField f enabled weight => { shared with hub := shared.hub.setField f enabled weight }
  | .subscribe =>
    { shared with subscribers := shared.subscribers ++ [Subscriber.subscribe shared.hub] }
  | .read i =>
    { shared with
      subscribers := shared.subscribers.modify i fun sub => (sub.read shared.hub).2 }

/-- What calls leave of new settings without subscribers. -/
def called (initial : Settings) (calls : List Call) : Shared :=
  calls.foldl Shared.after ⟨.new initial, []⟩

/-! ## One more call -/

variable {initial : Settings} {calls : List Call} {c : Call} {i : Nat}

theorem settings_after_snoc : settingsAfter initial (calls ++ [c]) =
    c.change?.elim (settingsAfter initial calls) fun change =>
      change (settingsAfter initial calls) := by
  rw [settingsAfter, List.filterMap_append, List.foldl_append]
  cases hchange : c.change? <;> simp [hchange, settingsAfter]

theorem called_snoc : called initial (calls ++ [c]) = (called initial calls).after c :=
  List.foldl_concat _ _ _ _

/-- A subscriber has missed the last call if it matters, and otherwise what it had missed before,
unless the last call was that it read. -/
theorem missed_snoc : Missed initial (calls ++ [c]) i ↔
    (i < calls.countP Call.subscribes ∧ c.Matters (settingsAfter initial calls)) ∨
      (c ≠ .read i ∧ Missed initial calls i) := by
  constructor
  · rintro ⟨earlier, d, later, hsplit, hi, hread, hmatters⟩
    cases later using List.reverseRecOn with
    | nil =>
        obtain ⟨rfl, hlast⟩ := List.append_inj' hsplit rfl
        obtain rfl : c = d := by simpa using hlast
        exact .inl ⟨hi, hmatters⟩
    | append_singleton later e =>
        rw [← List.cons_append, ← List.append_assoc] at hsplit
        obtain ⟨rfl, hlast⟩ := List.append_inj' hsplit rfl
        obtain rfl : c = e := by simpa using hlast
        rw [List.mem_append, List.mem_singleton, not_or] at hread
        exact .inr ⟨Ne.symm hread.2, earlier, d, later, rfl, hi, hread.1, hmatters⟩
  · rintro (⟨hi, hmatters⟩ | ⟨hread, earlier, d, later, rfl, hi, hunread, hmatters⟩)
    · exact ⟨calls, c, [], rfl, hi, List.not_mem_nil, hmatters⟩
    · refine ⟨earlier, d, later ++ [c], by simp, hi, ?_, hmatters⟩
      rw [List.mem_append, List.mem_singleton, not_or]
      exact ⟨hunread, Ne.symm hread⟩

/-- The hub after a call is the hub with the change that the call makes. -/
theorem after_hub (shared : Shared) (c : Call) :
    (shared.after c).hub =
      c.change?.elim shared.hub fun change => (shared.hub.update change).2 := by
  cases c <;> rfl

/-- A call raises the version exactly if it matters. -/
theorem after_version (shared : Shared) (c : Call) :
    (c.Matters shared.hub.current ∧ (shared.after c).hub.version = shared.hub.version + 1) ∨
      (¬c.Matters shared.hub.current ∧ (shared.after c).hub.version = shared.hub.version) := by
  rw [after_hub, Call.Matters]
  cases hchange : c.change? with
  | none => exact .inr ⟨by simp, rfl⟩
  | some change =>
      rw [Option.elim_some, update_version]
      split <;> simp_all

/-! ## All calls -/

/-- The current settings are those after the changes. -/
theorem called_current (initial : Settings) (calls : List Call) :
    (called initial calls).hub.current = settingsAfter initial calls := by
  induction calls using List.reverseRecOn with
  | nil => rfl
  | append_singleton calls c ih =>
      rw [called_snoc, after_hub, settings_after_snoc]
      cases c.change? with
      | none => exact ih
      | some change => rw [Option.elim_some, Option.elim_some, update_current, ih]

/-- There are as many subscribers as have subscribed. -/
theorem called_subscribers (initial : Settings) (calls : List Call) :
    (called initial calls).subscribers.length = calls.countP Call.subscribes := by
  induction calls using List.reverseRecOn with
  | nil => rfl
  | append_singleton calls c ih =>
      rw [called_snoc, List.countP_append, ← ih]
      cases c <;> simp [Shared.after, Call.subscribes]

/-- A subscriber has seen a version up to now, and the current one unless it has missed a call. -/
structure Hears (initial : Settings) (calls : List Call) (i seen : Nat) : Prop where
  le : seen ≤ (called initial calls).hub.version
  ne_iff : seen ≠ (called initial calls).hub.version ↔ Missed initial calls i

/-- Whatever is called, a subscriber hears of it. -/
theorem Hears.snoc {seen : Nat} (h : Hears initial calls i seen)
    (hi : i < calls.countP Call.subscribes) (hread : c ≠ .read i) :
    Hears initial (calls ++ [c]) i seen := by
  have hle := h.le
  have hversion := after_version (called initial calls) c
  rw [called_current] at hversion
  refine ⟨?_, ?_⟩
  · rw [called_snoc]
    omega
  · rw [called_snoc, missed_snoc, ← h.ne_iff]
    rcases hversion with ⟨hmatters, hversion⟩ | ⟨hquiet, hversion⟩
    · exact iff_of_true (by omega) (.inl ⟨hi, hmatters⟩)
    · simp [hquiet, hread, hversion]

/-- A subscriber that has seen the current version hears of what comes, if it has missed nothing. -/
theorem Hears.of_not_missed (h : ¬Missed initial calls i) :
    Hears initial calls i (called initial calls).hub.version :=
  ⟨Nat.le_refl _, iff_of_false (fun hne => hne rfl) h⟩

/-- Nobody has missed anything before subscribing. -/
theorem not_missed_of_le (h : calls.countP Call.subscribes ≤ i) : ¬Missed initial calls i := by
  rintro ⟨earlier, d, later, rfl, hi, -⟩
  rw [List.countP_append] at h
  omega

/-- Nor has somebody who has just read. -/
theorem not_missed_read (initial : Settings) (calls : List Call) (i : Nat) :
    ¬Missed initial (calls ++ [.read i]) i := by
  rw [missed_snoc]
  rintro (⟨-, change, hchange, -⟩ | ⟨hother, -⟩)
  · simp [Call.change?] at hchange
  · exact hother rfl

/-- Nor has somebody who has just subscribed. -/
theorem not_missed_subscribe (initial : Settings) (h : calls.countP Call.subscribes ≤ i) :
    ¬Missed initial (calls ++ [.subscribe]) i := by
  rw [missed_snoc]
  rintro (⟨hlt, -⟩ | ⟨-, hold⟩)
  · omega
  · exact not_missed_of_le h hold

/-- Every subscriber hears of every call. -/
theorem called_hears {sub : Subscriber}
    (hsub : (called initial calls).subscribers[i]? = some sub) :
    Hears initial calls i sub.seen := by
  induction calls using List.reverseRecOn generalizing sub with
  | nil => simp [called] at hsub
  | append_singleton calls c ih =>
      -- a subscriber that is there before the call and is not the one that reads
      have hkept (hread : c ≠ .read i)
          (hbefore : (called initial calls).subscribers[i]? = some sub) :
          Hears initial (calls ++ [c]) i sub.seen := by
        refine (ih hbefore).snoc ?_ hread
        rw [← called_subscribers initial]
        exact (List.getElem?_eq_some_iff.mp hbefore).1
      rw [called_snoc] at hsub
      cases c with
      | subscribe =>
          rw [Shared.after, List.getElem?_append] at hsub
          split at hsub
          next => exact hkept (by simp) hsub
          next hge =>
            rw [called_subscribers, Nat.not_lt] at hge
            rw [List.getElem?_singleton] at hsub
            split at hsub
            next =>
              obtain rfl := Option.some.inj hsub
              have hnow := Hears.of_not_missed (not_missed_subscribe initial hge)
              rwa [called_snoc] at hnow
            next => simp at hsub
      | read j =>
          rw [Shared.after, List.getElem?_modify] at hsub
          split at hsub
          next hsame =>
            obtain ⟨before, -, rfl⟩ := Option.map_eq_some_iff.mp hsub
            subst hsame
            have hnow := Hears.of_not_missed (not_missed_read initial calls j)
            rwa [called_snoc] at hnow
          next hother => exact hkept (by simp [hother]) (by simpa using hsub)
      | update _ | replace _ | setEnabled _ | setDays _ | setIncludeFuzzy _ | setScoreThreshold _
      | setMonitorIntervalMinutes _ | setNotifyOnSameCount _ | setField _ _ _ =>
          exact hkept (by simp) hsub

/-- What is known of shared settings by the calls alone. -/
structure Informs (initial : Settings) (calls : List Call) : Prop where
  /-- The current settings are those after all changes, whether or not they matter. -/
  snapshot : (called initial calls).hub.current = settingsAfter initial calls
  /-- The answer to a change tells whether it matters. -/
  answer : ∀ change, ((called initial calls).hub.update change).1 = true ↔
    (Call.update change).Matters (settingsAfter initial calls)
  /-- So does the answer when settings are put in place of the current ones. -/
  replaced : ∀ s, ((called initial calls).hub.replace s).1 = true ↔
    (Call.replace s).Matters (settingsAfter initial calls)
  /-- There are as many subscribers as have subscribed. -/
  subscribers : (called initial calls).subscribers.length = calls.countP Call.subscribes
  /-- A subscriber has something new exactly if it has missed a call that matters. -/
  news : ∀ i sub, (called initial calls).subscribers[i]? = some sub →
    (sub.hasChanged (called initial calls).hub = true ↔ Missed initial calls i)

/-- Subscribers hear of the changes that matter to the monitor and of no others, whatever is
called in whatever order. -/
theorem subscribers_hear (initial : Settings) (calls : List Call) : Informs initial calls where
  snapshot := called_current initial calls
  answer change := by
    rw [update_answer, called_current]
    simp [Call.Matters, Call.change?]
  replaced s := by
    rw [replace, update_answer, called_current]
    simp [Call.Matters, Call.change?]
  subscribers := called_subscribers initial calls
  news i sub hsub := by
    rw [← (called_hears hsub).ne_iff, Subscriber.hasChanged, bne_iff_ne]

end SettingsHub

end CustomerDedupe
