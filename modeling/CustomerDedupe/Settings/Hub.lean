import CustomerDedupe.Settings.Basic

/-!
# Shared settings

Settings that several parties use at once. Every change that makes a difference to the monitor
raises a version number; changes of switches and weights are picked up by the next scan without
raising it. A subscriber remembers the version it has seen.
-/

namespace CustomerDedupe

/-- The current settings and how often they have changed for the monitor. -/
structure SettingsHub where
  current : Settings
  version : Nat
  deriving DecidableEq, Repr

namespace SettingsHub

/-- A hub with initial settings. -/
def new (s : Settings) : SettingsHub :=
  ⟨s, 0⟩

/-- Applies a change. The answer tells whether subscribers are notified. -/
def update (hub : SettingsHub) (change : Settings → Settings) : Bool × SettingsHub :=
  let next := change hub.current
  if next.monitorSettings = hub.current.monitorSettings then (false, ⟨next, hub.version⟩)
  else (true, ⟨next, hub.version + 1⟩)

/-- Puts other settings in place of the current ones. -/
def replace (hub : SettingsHub) (s : Settings) : Bool × SettingsHub :=
  hub.update fun _ => s

/-- Switches monitoring on or off. -/
def setEnabled (hub : SettingsHub) (v : Bool) : SettingsHub :=
  (hub.update fun s => { s with enabled := v }).2

/-- Sets the length of the window. -/
def setDays (hub : SettingsHub) (v : Int) : SettingsHub :=
  (hub.update fun s => { s with days := v }).2

/-- Switches the fuzzy search on or off. -/
def setIncludeFuzzy (hub : SettingsHub) (v : Bool) : SettingsHub :=
  (hub.update fun s => { s with includeFuzzy := v }).2

/-- Sets the threshold. -/
def setScoreThreshold (hub : SettingsHub) (v : Int) : SettingsHub :=
  (hub.update fun s => { s with scoreThreshold := v }).2

/-- Sets the monitor's interval. -/
def setMonitorIntervalMinutes (hub : SettingsHub) (v : Int) : SettingsHub :=
  (hub.update fun s => { s with monitorIntervalMinutes := v }).2

/-- Sets whether an unchanged count is notified again. -/
def setNotifyOnSameCount (hub : SettingsHub) (v : Bool) : SettingsHub :=
  (hub.update fun s => { s with notifyOnSameCount := v }).2

/-- Switches a field on or off and gives it a weight. -/
def setField (hub : SettingsHub) (f : CompareField) (enabled : Bool) (weight : Nat) :
    SettingsHub :=
  (hub.update fun s => s.setField f enabled weight).2

end SettingsHub

/-- A subscriber of shared settings, with the version it has seen. -/
structure Subscriber where
  seen : Nat
  deriving DecidableEq, Repr

namespace Subscriber

/-- A new subscriber has seen the current settings. -/
def subscribe (hub : SettingsHub) : Subscriber :=
  ⟨hub.version⟩

/-- Whether there are changes that the subscriber has not seen. -/
def hasChanged (sub : Subscriber) (hub : SettingsHub) : Bool :=
  sub.seen != hub.version

/-- Reads the current settings and marks them seen. -/
def read (_ : Subscriber) (hub : SettingsHub) : Settings × Subscriber :=
  (hub.current, ⟨hub.version⟩)

end Subscriber

end CustomerDedupe
