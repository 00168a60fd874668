import CustomerDedupe.CommandLine.Basic
import CustomerDedupe.Customer.Remote
import CustomerDedupe.Duplicates.Service
import CustomerDedupe.Monitor.Loop
import CustomerDedupe.Notification.Feed

/-!
# The program

What the program does for a command line and a configuration: it takes over the overrides,
checks the configuration, carries out the command, and reports a failure with a code that says
how bad it is. A monitor that runs on is `beginWatch`, whatever time brings, and `endWatch`.
-/

namespace CustomerDedupe.Program

variable {σ α : Type}

/-- Writes a log entry. -/
def note (level : Level) (message : String) : Action σ Unit :=
  .log level .program message

/-- Writes a complaint. -/
def complain (text : String) : Action σ Unit :=
  .write (.complaint text)

/-- What is said when the configuration cannot be loaded. -/
def loadComplaints (file : String) (f : Failure) : List String :=
  ["❌ Failed to load config file '" ++ file ++ "': " ++ f.message,
   "💡 Make sure the file exists and is valid TOML format"]

/-- The code of a program that has been given no usable configuration. -/
def refusedCode : Nat :=
  1

/-- The code of a program that fails. What has low severity is no failure. -/
def exitCode : Severity → Nat
  | .low => 0
  | .medium => 2
  | .high => 1
  | .critical => 3

/-- Takes over the overrides and checks the configuration. -/
def prepare (inv : Invocation) (c : Config) : Action σ (Option Config) := do
  note .info "🚀 Starting crm-dedupe"
  note .info ("📁 Configuration loaded from: " ++ inv.options.configFile)
  (inv.overrides c.settings).forM fun o => .log .info .commandLine o.message
  let c := { c with settings := inv.applyOverrides c.settings }
  match c.validate with
  | .ok () => pure (some c)
  | .error f =>
    note .error ("❌ Configuration validation failed: " ++ f.message)
    note .error ("💡 Suggestion: " ++ f.suggestion)
    complain ("❌ " ++ f.friendly)
    pure none

/-- A text with spaces behind it up to a width. -/
def padded (width : Nat) (s : String) : String :=
  s ++ String.ofList (List.replicate (width - s.length) ' ')

/-- The line about a group. -/
def groupLine (g : Duplicates.Group) : String :=
  "  " ++ padded 24 g.key ++ " " ++ padded 18 g.display ++
    " count=" ++ Text.showNat g.count ++
    " score=" ++ Duplicates.scoreText g.score ++
    " latest=" ++ g.latestAssigned.date.text ++
    " name=" ++ g.sampleName.getD "-"

/-- The line about a member of a group. -/
def candidateLine (c : Duplicates.Candidate) : String :=
  "      #" ++ Text.showInt c.contactId ++ " " ++ c.customerName ++
    " (" ++ c.assignedDate.minuteText ++ ")"

/-- What is printed when there are no groups. -/
def noDuplicates : String :=
  "✅ No duplicates found"

/-- The lines about groups and their members. -/
def listing : List Duplicates.Group → List String
  | [] => [noDuplicates]
  | gs =>
    ("📋 " ++ Text.showNat gs.length ++ " duplicate group(s)") ::
      gs.flatMap fun g => groupLine g :: g.candidates.map candidateLine

/-- What is printed about a single evaluation. -/
def outcomeLine : Monitor.TickOutcome → String
  | .notified n => "🔔 Reported " ++ Text.showNat n ++ " duplicate group(s)"
  | .unchanged n => Text.showNat n ++ " duplicate group(s), unchanged"
  | .noDuplicates => noDuplicates
  | .disabled => "Duplicate monitoring is disabled"

/-- What is printed after a merge. -/
def mergedLine (primary : Int) (duplicates : List Int) : String :=
  "✅ Merged [" ++ ", ".intercalate (duplicates.map Text.showInt) ++ "] into contact " ++
    Text.showInt primary

/-- The groups that the settings describe. -/
def find (ex : Rest.Exchange σ) (moment : Moment) (s : Settings) :
    Action σ (List Duplicates.Group) :=
  Duplicates.find (CustomerTable.store ex moment.now) s moment.now.date s.days s.includeFuzzy

/-- The group of a key, which has to exist. -/
def findGroup (ex : Rest.Exchange σ) (moment : Moment) (s : Settings) (key : String) :
    Action σ Duplicates.Group := do
  match Duplicates.groupOf? (← find ex moment s) key with
  | some g => pure g
  | none => throw (.notFound ("No duplicate group with key '" ++ key ++ "'"))

/-- The customers and the feed as the monitor sees them. -/
def outside (ex : Rest.Exchange σ) (moment : Moment) (s : Settings) :
    Monitor.Outside (Feed.Kept σ) where
  scan days includeFuzzy := do
    let store := CustomerTable.store ex moment.now
    let groups ← Feed.outward (Duplicates.find store s moment.now.date days includeFuzzy)
    pure groups.length
  post item := Feed.add ex moment item

/-- A monitor and a user's feed that have done nothing yet, in a world. -/
def watched (s : Settings) (user : Uuid) (w : σ) : Monitor.Watched (Feed.Kept σ) :=
  ⟨.new (.new s), ⟨.new (some user), w⟩⟩

/-- Uses a new monitor and a new feed. -/
def withMonitor (s : Settings) (user : Uuid) (a : Action (Monitor.Watched (Feed.Kept σ)) α) :
    Action σ α :=
  a.zoom (watched s user) fun _ v => v.outside.outside

/-- Begins to watch. -/
def beginWatch (ex : Rest.Exchange σ) (moment : Moment) (s : Settings) :
    Action (Monitor.Watched (Feed.Kept σ)) Unit := do
  Monitor.start
  note .info "Press Ctrl+C to stop"
  Monitor.settle (outside ex moment s) moment Monitor.settleSteps

/-- Stops watching. -/
def endWatch : Action (Monitor.Watched (Feed.Kept σ)) Unit :=
  Monitor.shutdown

/-- The user whose feed takes the monitor's notifications. -/
def watcher (c : Config) : Except Failure Uuid := do
  match ← c.user with
  | some user => pure user
  | none => throw (.missingSetting "supabase.user_id")

/-- Carries out a command. A monitor that is to run on is stopped at once. -/
def perform (ex : Rest.Exchange σ) (moment : Moment) (c : Config) (command : Command) :
    Action σ Unit := do
  let s := c.settings
  let store := CustomerTable.store ex moment.now
  let _ ← .ofExcept c.user
  match command with
  | .scan => (listing (← find ex moment s)).forM .print
  | .archive key =>
    let g ← findGroup ex moment s key
    Duplicates.archiveGroup store g
    .print ("✅ Archived " ++ Text.showNat g.count ++ " customer(s) in " ++ g.key)
  | .delete key =>
    let g ← findGroup ex moment s key
    Duplicates.deleteGroup store g
    .print ("✅ Deleted " ++ Text.showNat g.count ++ " customer(s) in " ++ g.key)
  | .merge primary duplicates =>
    Duplicates.merge store primary duplicates
    .print (mergedLine primary duplicates)
  | .monitor true =>
    let user ← .ofExcept (watcher c)
    let outcome ← withMonitor s user (Monitor.runOnce (outside ex moment s) moment)
    .print (outcomeLine outcome)
  | .monitor false =>
    let user ← .ofExcept (watcher c)
    withMonitor s user do
      beginWatch ex moment s
      endWatch

/-- Reports how a command ended and says the program's code. -/
def conclude : Except Failure Unit → Action σ Nat
  | .ok () => pure 0
  | .error f => do
    note .error ("❌ Command failed: " ++ f.message ++ " (Category: " ++ f.category.name ++
      ", Severity: " ++ f.severity.name ++ ")")
    note .error ("💡 Recovery suggestion: " ++ f.suggestion)
    complain ("❌ " ++ f.friendly)
    complain ("💡 Suggestion: " ++ f.suggestion)
    pure (exitCode f.severity)

/-- Everything that the program does with a configuration, on a network. The result is the
program's code. -/
def run (net : Rest.Network σ) (moment : Moment) (inv : Invocation) (c : Config) :
    Action σ Nat := do
  match ← prepare inv c with
  | none => pure refusedCode
  | some c =>
    let ex := c.connection.client.exchange net
    conclude (← (perform ex moment c inv.command).outcome)

end CustomerDedupe.Program
