import CustomerDedupe.Failure

/-!
# Actions

What the program does with the world: an action changes the state of the world, writes to a
journal, and succeeds or fails. What was done before a failure stays done.
-/

namespace CustomerDedupe

/-- How much a log entry matters. -/
inductive Level where
  | trace
  | debug
  | info
  | warn
  | error
  deriving DecidableEq, Repr

/-- The part of the program that a log entry comes from. -/
inductive Source where
  | program
  | commandLine
  | customers
  | client
  | notifications
  | duplicates
  | monitor
  deriving DecidableEq, Repr

/-- A log entry. -/
structure LogEntry where
  level : Level
  source : Source
  message : String
  deriving DecidableEq, Repr

/-- What the program writes: log entries, lines of output and complaints. -/
inductive Written where
  | log (entry : LogEntry)
  | line (text : String)
  | complaint (text : String)
  deriving DecidableEq, Repr

/-- The state of the world and what has been written, last first. -/
structure Session (σ : Type) where
  world : σ
  journal : List Written

/-- An action on a world. -/
abbrev Action (σ α : Type) :=
  ExceptT Failure (StateM (Session σ)) α

namespace Action

variable {σ τ α : Type}

/-- An action from what it does to the session. -/
def of (f : Session σ → Except Failure α × Session σ) : Action σ α :=
  ExceptT.mk f

/-- Does something to the world that may fail. -/
def perform (f : σ → Except Failure α × σ) : Action σ α :=
  of fun s =>
    let (r, w) := f s.world
    (r, { s with world := w })

/-- Writes to the journal. -/
def write (w : Written) : Action σ Unit :=
  of fun s => (.ok (), { s with journal := w :: s.journal })

/-- Writes a log entry. -/
def log (level : Level) (source : Source) (message : String) : Action σ Unit :=
  write (.log ⟨level, source, message⟩)

/-- Writes a line of output. -/
def print (text : String) : Action σ Unit :=
  write (.line text)

/-- The world as it is. -/
def world : Action σ σ :=
  of fun s => (.ok s.world, s)

/-- Changes the world. -/
def change (f : σ → σ) : Action σ Unit :=
  of fun s => (.ok (), { s with world := f s.world })

/-- Does something to a part of the world. -/
def zoom (get : σ → τ) (set : σ → τ → σ) (a : Action τ α) : Action σ α :=
  of fun s =>
    let (r, t) := ExceptT.run a ⟨get s.world, s.journal⟩
    (r, ⟨set s.world t.world, t.journal⟩)

/-- The outcome of an action, which itself does not fail. -/
def outcome (a : Action σ α) : Action σ (Except Failure α) :=
  of fun s =>
    let (r, s) := ExceptT.run a s
    (.ok r, s)

/-- Fails if the outcome is a failure. -/
def ofExcept (r : Except Failure α) : Action σ α :=
  of fun s => (r, s)

/-- Runs an action on a world and returns its outcome and the world after it. -/
def runOn (a : Action σ α) (w : σ) : Except Failure α × σ :=
  let (r, s) := ExceptT.run a ⟨w, []⟩
  (r, s.world)

end Action

end CustomerDedupe
