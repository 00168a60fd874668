import CustomerDedupe.Proofs.Monitor.Passage

/-!
# Histories of a monitor

A history is a list of commands, given to a monitor one after another, with any answers from
outside. The log that is kept on the way tells the settings, how far the worker has taken notice
of them, and the count notified last. Each command keeps what the log tells true of the monitor,
and so `ran_kept` has it of every history.
-/

namespace CustomerDedupe.Monitor

variable {σ : Type}

/-- What can be done to a monitor. -/
inductive Command where
  /-- Evaluate once, now. -/
  | runOnce
  /-- Let the worker do everything that is ready. -/
  | turn
  | advance (seconds : Nat)
  | update (change : Settings → Settings)
  | start
  | shutdown

namespace Command

/-- Carries out a command. -/
def act (out : Outside σ) (moment : Moment) : Command → Action (Watched σ) Unit
  | .runOnce => do
    let _ ← (Monitor.runOnce out moment).outcome
  | .turn => settle out moment settleSteps
  | .advance seconds => Monitor.advance out moment seconds
  | .update change => modify fun m => { m with hub := (m.hub.update change).2 }
  | .start => Monitor.start
  | .shutdown => Monitor.shutdown

/-- What the log tells of a command itself. -/
def events (m : Monitor) : Command → List Event
  | .runOnce => []
  | .turn | .advance _ => [.turned (m.view = .looked true)]
  | .update change => [.updated (change m.hub.current)]
  | .start => [.started]
  | .shutdown => [.stopped]

/-- Notes a command in the log and carries it out. -/
def perform (out : Outside σ) (moment : Moment) (c : Command) :
    Action (Watched (Recorded σ)) Unit := do
  .change fun w =>
    { w with outside := { w.outside with log := c.events w.monitor ++ w.outside.log } }
  c.act out.recorded moment

end Command

/-- Carries out commands one after another. -/
def actAll (out : Outside σ) : List (Moment × Command) → Action (Watched σ) Unit
  | [] => pure ()
  | (moment, c) :: rest => do
    c.act out moment
    actAll out rest

/-- What a history leaves of a new monitor and its world. -/
def lived (out : Outside σ) (hub : SettingsHub) (o : σ) (history : List (Moment × Command)) :
    Watched σ :=
  ((actAll out history).runOn ⟨.new hub, o⟩).2

/-- Performs commands one after another, noting them. -/
def performAll (out : Outside σ) : List (Moment × Command) → Action (Watched (Recorded σ)) Unit
  | [] => pure ()
  | (moment, c) :: rest => do
    c.perform out moment
    performAll out rest

/-- What a history leaves of a new monitor and its world, with the log. -/
def ran (out : Outside σ) (hub : SettingsHub) (o : σ) (history : List (Moment × Command)) :
    Watched (Recorded σ) :=
  ((performAll out history).runOn ⟨.new hub, ⟨o, []⟩⟩).2

/-! ## What a log tells -/

/-- What the last of the events says that say anything, or an initial value. -/
def latest {α : Type} (f : Event → Option α) (initial : α) (log : List Event) : α :=
  (log.findSome? f).getD initial

theorem latest_cons {α : Type} (f : Event → Option α) (initial : α) (e : Event)
    (log : List Event) : latest f initial (e :: log) = (f e).getD (latest f initial log) := by
  unfold latest
  rw [List.findSome?_cons]
  cases f e <;> rfl

/-- Events that say nothing make no difference. -/
theorem latest_append {α : Type} {f : Event → Option α} (initial : α) {between : List Event}
    (log : List Event) (h : ∀ e ∈ between, f e = none) :
    latest f initial (between ++ log) = latest f initial log := by
  unfold latest
  rw [List.findSome?_append, List.findSome?_eq_none_iff.mpr h, Option.none_or]

def Event.settings? : Event → Option Settings
  | .updated s => some s
  | _ => none

/-- The settings after what a log tells. -/
def settingsAt (initial : Settings) (log : List Event) : Settings :=
  latest Event.settings? initial log

/-- The count of the notification that an evaluation handed over, if it was accepted. -/
def Look.accepted? (look : Look) : Option Nat :=
  match look.answer, look.handed with
  | .ok n, [(_, .ok ())] => some n
  | _, _ => none

/-- The count notified last, where an event sets it: a change that is noticed makes it zero. -/
def Event.count? : Event → Option Nat
  | .turned true => some 0
  | .looked look => look.accepted?
  | _ => none

/-- The count of the last notification that was accepted, or zero if there has been none since a
change was last noticed. -/
def lastAccepted (log : List Event) : Nat :=
  latest Event.count? 0 log

/-- How far the worker has taken notice of the settings after an event, given the settings
before it. -/
def View.after (v : View) (before : Settings) : Event → View
  | .updated s =>
    match v with
    | .looked changed => .looked (changed || s.monitorSettings != before.monitorSettings)
    | .away | .fresh => v
  | .started => if v = .away then .fresh else v
  | .stopped => .away
  | .turned _ => if v = .away then .away else .looked false
  | .looked _ | .posted _ _ => v

/-- How far the worker has taken notice of the settings after what a log tells. -/
def viewAt (initial : Settings) : List Event → View
  | [] => .away
  | e :: log => (viewAt initial log).after (settingsAt initial log) e

@[simp] theorem settings_at_cons (initial : Settings) (e : Event) (log : List Event) :
    settingsAt initial (e :: log) = e.settings?.getD (settingsAt initial log) :=
  latest_cons _ _ _ _

@[simp] theorem last_accepted_cons (e : Event) (log : List Event) :
    lastAccepted (e :: log) = e.count?.getD (lastAccepted log) :=
  latest_cons _ _ _ _

/-- What an event has to do with the events before it: a change is noticed if the worker missed
one, and a scan belongs to an evaluation under the settings and the count notified last at its
time. -/
def Obeys (initial : Settings) (earlier : List Event) : Event → Prop
  | .turned noticed => noticed = true ↔ viewAt initial earlier = .looked true
  | .looked look =>
    ∃ moment r k, Evaluated (settingsAt initial earlier) moment (lastAccepted earlier)
      [.looked look] r k
  | .posted _ _ => False
  | .updated _ | .started | .stopped => True

/-- Each event of a log obeys those before it. -/
def Lawful (initial : Settings) (log : List Event) : Prop :=
  ∀ e earlier, e :: earlier <:+ log → Obeys initial earlier e

theorem lawful_nil (initial : Settings) : Lawful initial [] := by
  intro e earlier h
  simp at h

theorem Lawful.cons {initial : Settings} {e : Event} {log : List Event}
    (h : Lawful initial log) (he : Obeys initial log e) : Lawful initial (e :: log) := by
  intro e' earlier hsuffix
  rcases List.suffix_cons_iff.mp hsuffix with heq | hsuffix
  · obtain ⟨rfl, rfl⟩ := List.cons.inj heq
    exact he
  · exact h e' earlier hsuffix

/-- A log tells the settings, how far the worker has taken notice of them, and the count notified
last. -/
structure Tells (initial : Settings) (log : List Event) (s : Settings) (v : View) (k : Nat) :
    Prop where
  settings : s = settingsAt initial log
  view : v = viewAt initial log
  lastCount : k = lastAccepted log
  lawful : Lawful initial log

namespace Tells

variable {initial s : Settings} {log news : List Event} {v : View} {k k' : Nat} {moment : Moment}

/-- Before anything has happened. -/
theorem nil (initial : Settings) : Tells initial [] initial .away 0 :=
  ⟨rfl, rfl, rfl, lawful_nil initial⟩

/-- An event changes what the log tells. -/
theorem cons (h : Tells initial log s v k) {e : Event} (he : Obeys initial log e) :
    Tells initial (e :: log) (e.settings?.getD s) (v.after s e) (e.count?.getD k) where
  settings := by rw [settings_at_cons, h.settings]
  view := by rw [viewAt, h.view, h.settings]
  lastCount := by rw [last_accepted_cons, h.lastCount]
  lawful := h.lawful.cons he

/-- An evaluation leaves the count that it notified, and nothing else is new. -/
theorem evaluated (h : Tells initial log s v k) {r : Except Failure TickOutcome}
    (he : Evaluated s moment k news r k') : Tells initial (news ++ log) s v k' := by
  have hlooked {look : Look} (he : Evaluated s moment k [.looked look] r k') :
      Obeys initial log (.looked look) := by
    refine ⟨moment, r, k', ?_⟩
    rw [← h.settings, ← h.lastCount]
    exact he
  cases he with
  | disabled hoff => exact h
  | scan_failed hon e => exact h.cons (hlooked (.scan_failed hon e))
  | no_duplicates hon => exact h.cons (hlooked (.no_duplicates hon))
  | unchanged hon hpos hquiet => exact h.cons (hlooked (.unchanged hon hpos hquiet))
  | refused hon hpos hdue e => exact h.cons (hlooked (.refused hon hpos hdue e))
  | notified hon hpos hdue => exact h.cons (hlooked (.notified hon hpos hdue))

/-- So do evaluations after one another. -/
theorem evaluations (h : Tells initial log s v k) (he : Evaluations s moment k news k') :
    Tells initial (news ++ log) s v k' := by
  induction he generalizing log with
  | none k => exact h
  | more he hrest ih =>
      rw [List.append_assoc]
      exact ih (h.evaluated he)

end Tells

end CustomerDedupe.Monitor
