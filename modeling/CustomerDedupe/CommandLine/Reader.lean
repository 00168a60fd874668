import CustomerDedupe.CommandLine.Basic
import CustomerDedupe.Text.Split

/-!
# Reading command lines

Options may stand before and after the command; the command's own arguments follow it in
order. Arguments are taken from left to right, and the first that does not fit decides how the
line is refused. A value is read only when the next option or argument has been recognised, so
that a stranger behind a wrong value is complained about first.
-/

namespace CustomerDedupe.CommandLine

/-- The options by name. -/
inductive Switch where
  | config
  | verbose
  | jsonLogs
  | days
  | fuzzy
  | threshold
  | once
  | help
  deriving DecidableEq, Repr

namespace Switch

/-- The long name. -/
def name : Switch → String
  | .config => "config"
  | .verbose => "verbose"
  | .jsonLogs => "json-logs"
  | .days => "days"
  | .fuzzy => "fuzzy"
  | .threshold => "threshold"
  | .once => "once"
  | .help => "help"

/-- The letter, if there is one. -/
def letter? : Switch → Option Char
  | .config => some 'c'
  | .verbose => some 'v'
  | .help => some 'h'
  | _ => none

/-- Whether a value belongs to the option. -/
def takesValue : Switch → Bool
  | .config | .days | .fuzzy | .threshold => true
  | .verbose | .jsonLogs | .once | .help => false

/-- The option as it is written. -/
def shown (s : Switch) : String :=
  "--" ++ s.name

/-- The options that every command takes. -/
def common : List Switch :=
  [.config, .verbose, .jsonLogs, .days, .fuzzy, .threshold, .help]

/-- Whether an option is among those given. -/
def isGiven (o : Options) : Switch → Bool
  | .config => o.config.isSome
  | .verbose => o.verbose
  | .jsonLogs => o.jsonLogs
  | .days => o.days.isSome
  | .fuzzy => o.fuzzy.isSome
  | .threshold => o.threshold.isSome
  | .once => o.once
  | .help => false

end Switch

/-- The names of commands. -/
inductive Verb where
  | scan
  | monitor
  | archive
  | delete
  | merge
  | help
  deriving DecidableEq, Repr

/-- The arguments of commands. -/
inductive Slot where
  | key
  | primary
  | duplicates
  deriving DecidableEq, Repr

namespace Verb

/-- The name as it is written. -/
def name : Verb → String
  | .scan => "scan"
  | .monitor => "monitor"
  | .archive => "archive"
  | .delete => "delete"
  | .merge => "merge"
  | .help => "help"

/-- Every command. -/
def all : List Verb :=
  [.scan, .monitor, .archive, .delete, .merge, .help]

/-- The command of a name. -/
def ofName? (s : String) : Option Verb :=
  all.find? fun v => v.name == s

/-- The arguments of a command. -/
def slots : Verb → List Slot
  | .archive | .delete => [.key]
  | .merge => [.primary, .duplicates]
  | _ => []

/-- The options of a command. -/
def switches : Verb → List Switch
  | .monitor => .once :: Switch.common
  | _ => Switch.common

end Verb

/-- What is wanted at a place of the line: which commands, options and arguments. -/
structure Level where
  verbs : List Verb
  switches : List Switch
  slots : List Slot

/-- What may stand before the command. -/
def Level.root : Level :=
  ⟨Verb.all, Switch.common, []⟩

/-- What may follow a command. -/
def Level.behind (v : Verb) : Level :=
  ⟨[], v.switches, v.slots⟩

/-- What has been recognised but not read yet. -/
inductive Pending where
  | nothing
  /-- An option whose value has not come yet. -/
  | awaiting (s : Switch)
  | value (s : Switch) (text : String)
  | argument (slot : Slot) (texts : List String)

/-- What has been read. -/
structure State where
  options : Options
  key : Option String
  primary : Option Int
  duplicates : List Int
  /-- The arguments that are still to come. -/
  slots : List Slot
  pending : Pending

/-- Nothing has been read. -/
def State.start (level : Level) : State :=
  ⟨.none, none, none, [], level.slots, .nothing⟩

/-- Reads a number of 32 bits. -/
def readNumber (argument text : String) : Except UsageProblem Int :=
  match Text.readIntIn? (-2147483648) 2147483647 text.toList with
  | some n => .ok n
  | none => .error (.invalidNumber argument text)

/-- Reads a truth value. -/
def readChoice (s : Switch) (text : String) : Except UsageProblem Bool :=
  if text = "true" then .ok true
  else if text = "false" then .ok false
  else .error (.invalidChoice s.shown text)

/-- Reads lists of numbers between commas. -/
def readNumbers (argument : String) (texts : List String) : Except UsageProblem (List Int) :=
  (texts.flatMap fun t => Text.splitAt ',' t.toList).mapM fun part =>
    readNumber argument (String.ofList part)

namespace State

/-- Takes over the value of an option, which must not have been given before. -/
def setValue (st : State) (s : Switch) (text : String) : Except UsageProblem State :=
  if s.isGiven st.options then .error (.repeated s.shown)
  else
    let put (o : Options) : State := { st with options := o }
    match s with
    | .config => .ok (put { st.options with config := some text })
    | .days => do
      let n ← readNumber s.shown text
      pure (put { st.options with days := some n })
    | .threshold => do
      let n ← readNumber s.shown text
      pure (put { st.options with threshold := some n })
    | .fuzzy => do
      let b ← readChoice s text
      pure (put { st.options with fuzzy := some b })
    | _ => .error (.unwantedValue s.shown)

/-- Takes over an option without a value, which must not have been given before. -/
def raise (st : State) (s : Switch) : Except UsageProblem State :=
  if s.isGiven st.options then .error (.repeated s.shown)
  else
    let put (o : Options) : State := { st with options := o }
    match s with
    | .verbose => .ok (put { st.options with verbose := true })
    | .jsonLogs => .ok (put { st.options with jsonLogs := true })
    | .once => .ok (put { st.options with once := true })
    | .help => .error .helpWanted
    | _ => .error (.missingValue s.shown)

/-- Takes over the texts of an argument. -/
def setArgument (st : State) (slot : Slot) (texts : List String) : Except UsageProblem State :=
  match slot with
  | .key => .ok { st with key := texts.head? }
  | .primary => do
    let ns ← texts.mapM (readNumber "primary")
    pure { st with primary := ns.head? }
  | .duplicates => do
    let ns ← readNumbers "duplicates" texts
    pure { st with duplicates := st.duplicates ++ ns }

/-- Reads what has been recognised. -/
def resolve (st : State) : Except UsageProblem State :=
  let st' := { st with pending := .nothing }
  match st.pending with
  | .nothing => .ok st'
  | .awaiting s => .error (.missingValue s.shown)
  | .value s text => st'.setValue s text
  | .argument slot texts => st'.setArgument slot texts

/-- Meets an option, perhaps with a value attached to it. -/
def meet (st : State) (s : Switch) (attached : Option String) : Except UsageProblem State :=
  match s.takesValue, attached with
  | true, some text => do (← st.resolve).setValue s text
  | true, none => do pure { (← st.resolve) with pending := .awaiting s }
  | false, some _ => .error (.unwantedValue s.shown)
  | false, none => do (← st.resolve).raise s

/-- Meets an argument. The duplicates of a merge go on as long as there are arguments. -/
def place (st : State) (stranger : UsageProblem) (text : String) : Except UsageProblem State :=
  match st.slots, st.pending with
  | [], _ => .error stranger
  | .duplicates :: _, .argument .duplicates texts =>
    .ok { st with pending := .argument .duplicates (texts ++ [text]) }
  | .duplicates :: _, _ => do
    pure { (← st.resolve) with pending := .argument .duplicates [text] }
  | slot :: rest, _ => do
    pure { (← st.resolve) with pending := .argument slot [text], slots := rest }

end State

/-- The value attached to an option's letter, of which an equals sign is no part. -/
def attachedValue : List Char → Option String
  | [] => none
  | '=' :: rest => some (String.ofList rest)
  | rest => some (String.ofList rest)

/-- Meets the options of some letters in a row. -/
def meetLetters (level : Level) (st : State) : List Char → Except UsageProblem State
  | [] => .ok st
  | c :: rest =>
    match level.switches.find? fun s => s.letter? == some c with
    | none => .error (.unknownArgument (String.ofList ['-', c]))
    | some s =>
      if s.takesValue then st.meet s (attachedValue rest)
      else do meetLetters level (← st.meet s none) rest

/-- Meets the option of a long name, perhaps with a value attached to it. -/
def meetName (level : Level) (st : State) (text : List Char) : Except UsageProblem State :=
  let name := String.ofList (text.takeWhile (· != '='))
  let attached :=
    match text.dropWhile (· != '=') with
    | [] => none
    | _ :: value => some (String.ofList value)
  match level.switches.find? fun s => s.name == name with
  | none => .error (.unknownArgument ("--" ++ name))
  | some s => st.meet s attached

/-- The complaint about an argument that nothing waits for. Where commands may stand, a word
that is none is an unknown command, unless it is one that stands behind `--`. -/
def stranger (level : Level) (trailing : Bool) (text : String) : UsageProblem :=
  if level.verbs.isEmpty then .unknownArgument text
  else if trailing && (Verb.ofName? text).isSome then .unknownArgument text
  else .unknownCommand text

/-- Meets one argument of the line before `--`. -/
def meetArgument (level : Level) (st : State) (text : String) : Except UsageProblem State :=
  match text.toList with
  | '-' :: '-' :: c :: rest => meetName level st (c :: rest)
  | '-' :: c :: rest => meetLetters level st (c :: rest)
  | _ =>
    match st.pending with
    | .awaiting s => .ok { st with pending := .value s text }
    | _ => st.place (stranger level false text) text

/-- The command that an argument names where commands may stand. -/
def verbAt? (level : Level) (st : State) (text : String) : Option Verb :=
  match st.pending with
  | .awaiting _ => none
  | _ => level.verbs.find? fun v => v.name == text

/-- Reads arguments up to a command, which is returned with what follows it. Behind `--` there
are only arguments. -/
def readLevel (level : Level) :
    Bool → State → List String → Except UsageProblem (State × Option (Verb × List String))
  | _, st, [] => .ok (st, none)
  | true, st, text :: rest => do
    let st ← st.place (stranger level true text) text
    readLevel level true st rest
  | false, st, text :: rest =>
    match verbAt? level st text with
    | some v => .ok (st, some (v, rest))
    | none =>
      if text = "--" then readLevel level true st rest
      else do
        let st ← meetArgument level st text
        readLevel level false st rest

/-- The command that has been read, if its arguments are complete. -/
def State.command? (st : State) : Verb → Option Command
  | .scan => some .scan
  | .monitor => some (.monitor st.options.once)
  | .archive => st.key.map .archive
  | .delete => st.key.map .delete
  | .merge =>
    match st.primary, st.duplicates with
    | some p, d :: ds => some (.merge p (d :: ds))
    | _, _ => none
  | .help => none

/-- What asking for help about some words comes to: commands have no commands of their own. -/
def helpAbout : List String → UsageProblem
  | [] => .helpWanted
  | [text] => if (Verb.ofName? text).isSome then .helpWanted else .unknownCommand text
  | text :: next :: _ =>
    if (Verb.ofName? text).isSome then .unknownCommand next else .unknownCommand text

/-- Reads a command with what follows it. -/
def readCommand (v : Verb) (args : List String) : Except UsageProblem (Options × Command) := do
  let level := Level.behind v
  let (st, _) ← readLevel level false (State.start level) args
  let st ← st.resolve
  match st.command? v with
  | some c => pure (st.options, c)
  | none => throw .missingArgument

/-- Reads the arguments of the program. -/
def read (args : List String) : Except UsageProblem Invocation := do
  let level := Level.root
  let (st, found) ← readLevel level false (State.start level) args
  match found with
  | some (.help, rest) => throw (helpAbout rest)
  | some (v, rest) =>
    let (options, command) ← readCommand v rest
    let st ← st.resolve
    pure ⟨options.laidOver st.options, command⟩
  | none =>
    let st ← st.resolve
    throw (if st.options = .none then .nothingGiven else .missingCommand)

/-- What the program says about its use. -/
def usage : List String :=
  ["Duplicate customer detection for the NexaCRM database",
   "",
   "Usage: crm-dedupe [OPTIONS] <COMMAND>",
   "",
   "Commands:",
   "  scan                            List duplicate groups in the configured window",
   "  monitor [--once]                Watch for duplicates and post notifications",
   "  archive <KEY>                   Archive every customer in a duplicate group",
   "  delete <KEY>                    Delete every customer in a duplicate group",
   "  merge <PRIMARY> <DUPLICATES>... Fold duplicates into a contact and delete them",
   "  help                            Print this message",
   "",
   "Options:",
   "  -c, --config <FILE>      Path of the configuration file [default: " ++
     Config.defaultFile ++ "]",
   "  -v, --verbose            Log more",
   "      --json-logs          Log data documents, whatever the configuration says",
   "      --days <DAYS>        Override dedupe.days",
   "      --fuzzy <BOOL>       Override dedupe.include_fuzzy",
   "      --threshold <SCORE>  Override dedupe.score_threshold",
   "  -h, --help               Print this message"]

end CustomerDedupe.CommandLine
