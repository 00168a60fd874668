import Mathlib.Data.List.Basic
import CustomerDedupe.Monitor.Loop
import CustomerDedupe.Proofs.Action

/-!
# What a monitor asks of the world

A recorded outside keeps a log beside the world: every scan that the monitor asks for and every
notification that it hands over, with the answers. `Leaves` says what an action has done to the
monitor and to the log, whatever the world behind it is.
-/

namespace CustomerDedupe.Monitor

variable {σ α β : Type}

/-- An evaluation as it is seen from outside: what the scan was asked for, its answer, and the
notifications handed over, last first, each with its answer. -/
structure Look where
  days : Int
  includeFuzzy : Bool
  answer : Except Failure Nat
  handed : List (NotificationItem × Except Failure Unit)
  deriving DecidableEq

/-- What happens to a monitor. -/
inductive Event where
  /-- The settings were changed to these. -/
  | updated (s : Settings)
  | started
  | stopped
  /-- The worker could do what was ready. The flag tells whether it noticed a change of the
  settings first. -/
  | turned (noticed : Bool)
  /-- A scan was asked for. -/
  | looked (look : Look)
  /-- A notification was handed over before any scan. -/
  | posted (item : NotificationItem) (answer : Except Failure Unit)
  deriving DecidableEq

/-- Adds a notification to a log, last event first. It belongs to the scan before it. -/
def handedOver (item : NotificationItem) (answer : Except Failure Unit) : List Event → List Event
  | .looked look :: log => .looked { look with handed := (item, answer) :: look.handed } :: log
  | log => .posted item answer :: log

/-- A world with a log of what happened, last event first. -/
structure Recorded (σ : Type) where
  outside : σ
  log : List Event

/-- Does something in the world, changes the log according to the answer, and passes it on. -/
def logged (a : Action σ α) (change : Except Failure α → List Event → List Event) :
    Action (Recorded σ) α := do
  let answer ← (a.zoom Recorded.outside fun w o => { w with outside := o }).outcome
  .change fun w => { w with log := change answer w.log }
  .ofExcept answer

/-- An outside that answers as it does and keeps a log. -/
def Outside.recorded (out : Outside σ) : Outside (Recorded σ) where
  scan days includeFuzzy :=
    logged (out.scan days includeFuzzy) fun answer log =>
      .looked ⟨days, includeFuzzy, answer, []⟩ :: log
  post item := logged (out.post item) fun answer => handedOver item answer

/-- A session of a monitor over a recorded outside. -/
abbrev Watch (σ : Type) :=
  Session (Watched (Recorded σ))

/-- An action begun in a session has a result and leaves a monitor and a log. -/
structure Leaves (a : Action (Watched (Recorded σ)) α) (s : Watch σ) (result : Except Failure α)
    (m : Monitor) (log : List Event) : Prop where
  result : (a.run s).1 = result
  monitor : (a.run s).2.world.monitor = m
  log : (a.run s).2.world.outside.log = log

namespace Leaves

variable {a : Action (Watched (Recorded σ)) α} {s : Watch σ} {m : Monitor} {log : List Event}

/-- What follows a successful action goes on in a session of the monitor and the log that the
action leaves. -/
theorem next {x : α} (ha : Leaves a s (.ok x) m log) (f : α → Action (Watched (Recorded σ)) β) :
    ∃ t : Watch σ, t.world.monitor = m ∧ t.world.outside.log = log ∧
      ∀ {r m' log'}, Leaves (f x) t r m' log' → Leaves (a >>= f) s r m' log' := by
  refine ⟨(a.run s).2, ha.monitor, ha.log, ?_⟩
  intro r m' log' hf
  have hrun : (a >>= f).run s = (f x).run (a.run s).2 :=
    Action.run_bind_ok (Prod.ext ha.result rfl) f
  exact ⟨hrun ▸ hf.result, hrun ▸ hf.monitor, hrun ▸ hf.log⟩

/-- Actions that do the same, each in its session, leave the same. -/
theorem of_run_eq {b : Action (Watched (Recorded σ)) α} {t : Watch σ} {r : Except Failure α}
    (hb : Leaves b t r m log) (h : a.run s = b.run t) : Leaves a s r m log :=
  ⟨h ▸ hb.result, h ▸ hb.monitor, h ▸ hb.log⟩

theorem pure (x : α) (s : Watch σ) :
    Leaves (pure x) s (.ok x) s.world.monitor s.world.outside.log :=
  ⟨rfl, rfl, rfl⟩

theorem of_except (r : Except Failure α) (s : Watch σ) :
    Leaves (.ofExcept r) s r s.world.monitor s.world.outside.log :=
  ⟨rfl, rfl, rfl⟩

theorem current (s : Watch σ) :
    Leaves current s (.ok s.world.monitor) s.world.monitor s.world.outside.log :=
  ⟨rfl, rfl, rfl⟩

theorem modify (f : Monitor → Monitor) (s : Watch σ) :
    Leaves (modify f) s (.ok ()) (f s.world.monitor) s.world.outside.log :=
  ⟨rfl, rfl, rfl⟩

theorem note (level : Level) (message : String) (s : Watch σ) :
    Leaves (note level message) s (.ok ()) s.world.monitor s.world.outside.log :=
  ⟨rfl, rfl, rfl⟩

/-- The outcome of an action is its result, and taking it does not fail. -/
theorem outcome {r : Except Failure α} (ha : Leaves a s r m log) :
    Leaves a.outcome s (.ok r) m log :=
  ⟨congrArg Except.ok ha.result, ha.monitor, ha.log⟩

/-- Asking for a scan leaves the monitor as it is, and the log with the answer. -/
theorem scan (out : Outside σ) (days : Int) (includeFuzzy : Bool) (s : Watch σ) :
    ∃ answer, Leaves (outward (out.recorded.scan days includeFuzzy)).outcome s (.ok answer)
      s.world.monitor (.looked ⟨days, includeFuzzy, answer, []⟩ :: s.world.outside.log) := by
  refine ⟨((out.scan days includeFuzzy).run ⟨s.world.outside.outside, s.journal⟩).1, ?_⟩
  exact ⟨rfl, rfl, rfl⟩

/-- Handing over a notification leaves the monitor as it is, and the log with the answer. -/
theorem post (out : Outside σ) (item : NotificationItem) (s : Watch σ) :
    ∃ answer, Leaves (outward (out.recorded.post item)).outcome s (.ok answer)
      s.world.monitor (handedOver item answer s.world.outside.log) := by
  refine ⟨((out.post item).run ⟨s.world.outside.outside, s.journal⟩).1, ?_⟩
  exact ⟨rfl, rfl, rfl⟩

end Leaves

end CustomerDedupe.Monitor
