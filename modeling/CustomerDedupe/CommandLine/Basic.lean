import CustomerDedupe.Action
import CustomerDedupe.Config.Basic

/-!
# Command lines

What a command line asks for: one of the commands, the configuration file, how much to log, and
settings that override those of the file.
-/

namespace CustomerDedupe

/-- What the program is asked to do. -/
inductive Command where
  /-- List the groups of duplicates. -/
  | scan
  /-- Look for duplicates regularly, or just once. -/
  | monitor (once : Bool)
  /-- Archive the customers of a group. -/
  | archive (key : String)
  /-- Remove the customers of a group. -/
  | delete (key : String)
  /-- Fold duplicates into a contact. -/
  | merge (primary : Int) (duplicates : List Int)
  deriving DecidableEq, Repr

/-- The options of a command line. What is not given is absent or false. -/
structure Options where
  config : Option String
  verbose : Bool
  jsonLogs : Bool
  days : Option Int
  fuzzy : Option Bool
  threshold : Option Int
  once : Bool
  deriving DecidableEq, Repr

/-- A command with its options. -/
structure Invocation where
  options : Options
  command : Command
  deriving DecidableEq, Repr

namespace Options

/-- No options. -/
def none : Options :=
  ⟨.none, false, false, .none, .none, .none, false⟩

/-- The configuration file. -/
def configFile (o : Options) : String :=
  o.config.getD Config.defaultFile

/-- Options given after the command together with those given before it. Of an option given
twice, the former counts. -/
def laidOver (after before : Options) : Options where
  config := after.config.or before.config
  verbose := after.verbose || before.verbose
  jsonLogs := after.jsonLogs || before.jsonLogs
  days := after.days.or before.days
  fuzzy := after.fuzzy.or before.fuzzy
  threshold := after.threshold.or before.threshold
  once := after.once || before.once

end Options

/-- A setting that the command line overrides. -/
inductive Override where
  | days (n : Int)
  | fuzzy (b : Bool)
  | threshold (n : Int)
  | monitoring
  deriving DecidableEq, Repr

namespace Override

/-- The settings after an override. -/
def apply (s : Settings) : Override → Settings
  | .days n => { s with days := n }
  | .fuzzy b => { s with includeFuzzy := b }
  | .threshold n => { s with scoreThreshold := n }
  | .monitoring => { s with enabled := true }

/-- What is logged about an override. -/
def message : Override → String
  | .days n => "🔧 dedupe.days overridden to: " ++ Text.showInt n
  | .fuzzy b =>
    "🔧 dedupe.include_fuzzy overridden to: " ++ (if b then "true" else "false")
  | .threshold n => "🔧 dedupe.score_threshold overridden to: " ++ Text.showInt n
  | .monitoring => "🔧 Monitoring enabled by the monitor command"

end Override

namespace Invocation

/-- Whether the command is the monitor's. -/
def isMonitor (i : Invocation) : Bool :=
  match i.command with
  | .monitor _ => true
  | _ => false

/-- The settings that a command line overrides. The monitor's command switches monitoring on
if it is off. -/
def overrides (i : Invocation) (s : Settings) : List Override :=
  (i.options.days.map Override.days).toList ++
  (i.options.fuzzy.map Override.fuzzy).toList ++
  (i.options.threshold.map Override.threshold).toList ++
  (if i.isMonitor && !s.enabled then [.monitoring] else [])

/-- The settings after the overrides. -/
def applyOverrides (i : Invocation) (s : Settings) : Settings :=
  (i.overrides s).foldl Override.apply s

end Invocation

/-- Why a command line is refused, or what it asks for instead of a command. -/
inductive UsageProblem where
  | helpWanted
  | nothingGiven
  | missingCommand
  | unknownCommand (word : String)
  | unknownArgument (word : String)
  | repeated (option : String)
  | unwantedValue (option : String)
  | missingValue (option : String)
  | invalidChoice (option value : String)
  | invalidNumber (argument value : String)
  | missingArgument
  deriving DecidableEq, Repr

namespace UsageProblem

/-- The wording of a problem. -/
def message : UsageProblem → String
  | .helpWanted => "help"
  | .nothingGiven | .missingCommand => "a command is required"
  | .unknownCommand w => "there is no command '" ++ w ++ "'"
  | .unknownArgument w => "unexpected argument '" ++ w ++ "'"
  | .repeated o => "'" ++ o ++ "' is given more than once"
  | .unwantedValue o => "'" ++ o ++ "' takes no value"
  | .missingValue o => "'" ++ o ++ "' needs a value"
  | .invalidChoice o v => "'" ++ v ++ "' is not a value of '" ++ o ++ "': true or false"
  | .invalidNumber a v => "'" ++ v ++ "' is not a number for '" ++ a ++ "'"
  | .missingArgument => "the command needs more arguments"

end UsageProblem

end CustomerDedupe
