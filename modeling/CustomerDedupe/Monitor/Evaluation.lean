import CustomerDedupe.Action
import CustomerDedupe.Notification.Basic
import CustomerDedupe.Settings.Basic

/-!
# Evaluations

One look at the store for duplicates and, if their number calls for it, one notification. An
evaluation waits twice, for the scan and for the notification to be accepted; its stages say
what it waits for, and each answer leads to the next stage.
-/

namespace CustomerDedupe.Monitor

/-- What an evaluation came to. -/
inductive TickOutcome where
  | disabled
  | noDuplicates
  | unchanged (count : Nat)
  | notified (count : Nat)
  deriving DecidableEq, Repr

/-- The name of an outcome. -/
def TickOutcome.text : TickOutcome → String
  | .disabled => "Disabled"
  | .noDuplicates => "NoDuplicates"
  | .unchanged n => "Unchanged(" ++ Text.showNat n ++ ")"
  | .notified n => "Notified(" ++ Text.showNat n ++ ")"

/-- The title of the monitor's notifications. -/
def notificationTitle : String :=
  "중복 DB 감지 결과"

/-- The message about a number of groups among the customers of some days. -/
def notificationMessage (days : Int) (count : Nat) : String :=
  "최근 " ++ Text.showInt days ++ "일 내 중복 " ++ Text.showNat count ++ "건 발견"

/-- The notification about a number of groups. -/
def notification (moment : Moment) (s : Settings) (count : Nat) : NotificationItem where
  id := moment.freshId
  title := notificationTitle
  message := notificationMessage s.days count
  timestamp := some moment.now
  isRead := false
  kind := NotificationItem.warning

/-- Where an evaluation stands. -/
inductive Stage where
  /-- The scan has been asked for. -/
  | scanning (s : Settings)
  /-- The notification has been handed over. -/
  | posting (s : Settings) (count : Nat)
  /-- The notification has been accepted, and its count is to be remembered. -/
  | storing (count : Nat)
  /-- The evaluation is over. -/
  | done (result : Except Failure TickOutcome)

namespace Stage

/-- An evaluation under the current settings begins. -/
def start (s : Settings) : Stage :=
  if s.enabled then .scanning s else .done (.ok .disabled)

/-- The scan has been answered with a number of groups. Nothing is notified if there are none,
nor, unless the settings ask for it, if there are as many as were notified last. -/
def afterScan (s : Settings) (lastCount : Nat) : Except Failure Nat → Stage
  | .error e => .done (.error e)
  | .ok 0 => .done (.ok .noDuplicates)
  | .ok count =>
    if !s.notifyOnSameCount && count == lastCount then .done (.ok (.unchanged count))
    else .posting s count

/-- The notification has been accepted or refused. -/
def afterPost (count : Nat) : Except Failure Unit → Stage
  | .error e => .done (.error e)
  | .ok () => .storing count

end Stage

end CustomerDedupe.Monitor
