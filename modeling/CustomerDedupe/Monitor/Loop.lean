import CustomerDedupe.Monitor.Evaluation
import CustomerDedupe.Settings.Hub

/-!
# The monitor

The monitor evaluates the store at regular times while monitoring is switched on. Its worker
waits for the timer or for a change of the settings that matter to it; a change starts the
timer anew and forgets the count notified last. Time is a number of seconds that moves only in
`advance`. `next?` gives the worker's next step as long as nothing from outside is needed, and
`Stage.proceed` does what an evaluation waits for.
-/

namespace CustomerDedupe.Monitor

/-- What the worker is doing. -/
inductive Phase where
  /-- It is about to look at the settings. -/
  | fresh
  /-- Monitoring is off, and it waits for a change. -/
  | dormant
  /-- The timer is set. -/
  | armed (due : Nat)
  /-- An evaluation is under way. -/
  | evaluating (stage : Stage)

/-- The worker, with the version of the settings that it has seen. -/
structure Worker where
  seen : Nat
  phase : Phase

/-- What the monitor shows of itself. -/
inductive RunState where
  | idle
  | running
  deriving DecidableEq, Repr

/-- The name of a state. -/
def RunState.name : RunState → String
  | .idle => "Idle"
  | .running => "Running"

end CustomerDedupe.Monitor

namespace CustomerDedupe

open Monitor in
/-- The monitor: the settings it follows, the time, the count notified last, what it shows, and
the worker if it has been started. -/
structure Monitor where
  hub : SettingsHub
  clock : Nat
  lastCount : Nat
  shown : RunState
  worker : Option Worker

namespace Monitor

/-- A monitor that has not been started. -/
def new (hub : SettingsHub) : Monitor :=
  ⟨hub, 0, 0, .idle, none⟩

/-- The time between two evaluations, in seconds: at least a minute. -/
def interval (s : Settings) : Nat :=
  60 * (max 1 s.monitorIntervalMinutes).toNat

/-- The worker's next step, if it needs nothing from outside: it looks at the settings and sets
the timer, notices a change, begins an evaluation that is due, or ends one. -/
def next? (m : Monitor) : Option Monitor :=
  match m.worker with
  | none => none
  | some w =>
    let noticed : Monitor := { m with lastCount := 0, worker := some ⟨w.seen, .fresh⟩ }
    match w.phase with
    | .fresh =>
      if m.hub.current.enabled then
        let due := m.clock + interval m.hub.current
        some { m with shown := .running, worker := some ⟨m.hub.version, .armed due⟩ }
      else some { m with shown := .idle, worker := some ⟨m.hub.version, .dormant⟩ }
    | .dormant => if w.seen = m.hub.version then none else some noticed
    | .armed due =>
      if w.seen ≠ m.hub.version then some noticed
      else if due ≤ m.clock then
        some { m with worker := some ⟨w.seen, .evaluating (.start m.hub.current)⟩ }
      else none
    | .evaluating (.done _) => some { m with worker := some ⟨w.seen, .fresh⟩ }
    | .evaluating _ => none

/-- The evaluation that the worker has under way and that is not over. -/
def pending? (m : Monitor) : Option Stage :=
  match m.worker with
  | some ⟨_, .evaluating (.done _)⟩ => none
  | some ⟨_, .evaluating stage⟩ => some stage
  | _ => none

/-- The monitor whose worker's evaluation has reached a stage. -/
def withStage (m : Monitor) (stage : Stage) : Monitor :=
  { m with worker := m.worker.map fun w => { w with phase := .evaluating stage } }

/-- When the timer will fire. -/
def due? (m : Monitor) : Option Nat :=
  match m.worker with
  | some ⟨_, .armed due⟩ => some due
  | _ => none

/-- Puts a worker to work unless there is one. -/
def started (m : Monitor) : Monitor :=
  match m.worker with
  | some _ => m
  | none => { m with worker := some ⟨m.hub.version, .fresh⟩ }

/-- Ends the worker's work. -/
def stopped (m : Monitor) : Monitor :=
  match m.worker with
  | none => m
  | some _ => { m with shown := .idle, worker := none }

/-- What the monitor needs of the world: the number of groups that a scan finds, and a feed
that takes notifications. -/
structure Outside (σ : Type) where
  scan : Int → Bool → Action σ Nat
  post : NotificationItem → Action σ Unit

/-- A monitor in a world. -/
structure Watched (σ : Type) where
  monitor : Monitor
  outside : σ

variable {σ : Type}

/-- Writes a log entry. -/
def note (level : Level) (message : String) : Action (Watched σ) Unit :=
  .log level .monitor message

/-- Does something outside the monitor. -/
def outward {α : Type} (a : Action σ α) : Action (Watched σ) α :=
  a.zoom Watched.outside fun w o => { w with outside := o }

/-- Changes the monitor. -/
def modify (f : Monitor → Monitor) : Action (Watched σ) Unit :=
  .change fun w => { w with monitor := f w.monitor }

/-- The monitor as it is. -/
def current : Action (Watched σ) Monitor := do
  return (← Action.world).monitor

/-- Does what an evaluation waits for, and goes on to its next stage. -/
def Stage.proceed (out : Outside σ) (moment : Moment) :
    Stage → Action (Watched σ) Stage
  | .scanning s => do
    let r ← (outward (out.scan s.days s.includeFuzzy)).outcome
    return .afterScan s (← current).lastCount r
  | .posting s count => do
    let r ← (outward (out.post (notification moment s count))).outcome
    return .afterPost count r
  | .storing count => do
    modify fun m => { m with lastCount := count }
    note .info ("🔔 Duplicate monitor reported " ++ Text.showNat count ++ " group(s)")
    return .done (.ok (.notified count))
  | .done r => return .done r

/-- The greatest number of stages that an evaluation goes through. -/
def maxStages : Nat :=
  4

/-- Takes an evaluation to its end. -/
def finish (out : Outside σ) (moment : Moment) :
    Nat → Stage → Action (Watched σ) TickOutcome
  | _, .done r => .ofExcept r
  | 0, _ => pure .disabled
  | fuel + 1, stage => do
    let stage ← stage.proceed out moment
    finish out moment fuel stage

/-- Evaluates once, now, whatever the timer says. -/
def runOnce (out : Outside σ) (moment : Moment) : Action (Watched σ) TickOutcome := do
  finish out moment maxStages (.start (← current).hub.current)

/-- Logs what the worker's next step is about. -/
def noteStep (m : Monitor) : Action (Watched σ) Unit :=
  match m.worker with
  | some ⟨_, .evaluating (.done (.ok outcome))⟩ =>
    note .debug ("Duplicate monitor tick: " ++ outcome.text)
  | some ⟨_, .evaluating (.done (.error e))⟩ =>
    note .warn ("Duplicate monitor loop failed: " ++ e.message)
  | some ⟨seen, .armed _⟩ =>
    if seen = m.hub.version then pure ()
    else note .debug "Dedupe settings changed; restarting monitor timer"
  | _ => pure ()

/-- Lets the worker do everything that is ready. -/
def settle (out : Outside σ) (moment : Moment) : Nat → Action (Watched σ) Unit
  | 0 => pure ()
  | fuel + 1 => do
    let m ← current
    match m.next?, m.pending? with
    | some next, _ => do
      noteStep m
      modify fun _ => next
      settle out moment fuel
    | none, some stage => do
      let stage ← stage.proceed out moment
      modify fun m => m.withStage stage
      settle out moment fuel
    | none, none => pure ()

/-- More steps than the worker can take before it waits for time or settings to change. -/
def settleSteps : Nat :=
  10

/-- Starts the worker unless it has been started. -/
def start : Action (Watched σ) Unit := do
  if (← current).worker.isNone then
    modify started
    note .info "🔍 Duplicate monitor started"

/-- Stops the worker, if there is one, and keeps the count notified last. -/
def shutdown : Action (Watched σ) Unit := do
  if (← current).worker.isSome then
    modify stopped
    note .info "Duplicate monitor stopped"

/-- Lets time pass until `stop`, with every evaluation that becomes due on the way. -/
def advanceTo (out : Outside σ) (moment : Moment) (stop : Nat) :
    Nat → Action (Watched σ) Unit
  | 0 => modify fun m => { m with clock := stop }
  | fuel + 1 => do
    match (← current).due? with
    | some due =>
      if due ≤ stop then
        modify fun m => { m with clock := due }
        settle out moment settleSteps
        advanceTo out moment stop fuel
      else modify fun m => { m with clock := stop }
    | none => modify fun m => { m with clock := stop }

/-- Lets a number of seconds pass. Between two evaluations there is at least a minute. -/
def advance (out : Outside σ) (moment : Moment) (seconds : Nat) :
    Action (Watched σ) Unit := do
  let m ← current
  settle out moment settleSteps
  advanceTo out moment (m.clock + seconds) (seconds / 60 + 1)

end Monitor

end CustomerDedupe
