import CustomerDedupe.CommandLine.Basic
import CustomerDedupe.Log.Filter

/-!
# Loggers

What is logged and in which form: lines of text for people, or data documents. The environment
may set the filter; otherwise it follows from the command line and the configuration.
-/

namespace CustomerDedupe.Log

/-- A logger. -/
structure Logger where
  json : Bool
  filter : Filter
  deriving DecidableEq, Repr

namespace Logger

/-- The variable of the environment that holds a filter. -/
def filterVariable : String :=
  "RUST_LOG"

/-- The filter of the environment, if there is one in order. -/
def ofEnvironment? (env : Environment) : Option Filter :=
  (env filterVariable).bind fun text => Filter.read? text.toList

/-- The filter for lines of text unless the environment sets one. -/
def textFilter (verbose : Bool) : String :=
  if verbose then "crm_dedupe=debug,info" else "crm_dedupe=info"

/-- The filter for data documents unless the environment sets one. -/
def jsonFilter (level : Option String) : String :=
  "crm_dedupe=" ++ level.getD "info"

/-- The logger for a command line and a configuration, and the complaints about directives
that are out of order. -/
def choose (env : Environment) (o : Options) (c : Config) : Logger × List String :=
  let json := o.jsonLogs || c.jsonLogs
  match ofEnvironment? env with
  | some f => (⟨json, f⟩, [])
  | none =>
    let text := if json then jsonFilter c.logLevel else textFilter o.verbose
    let (f, complaints) := Filter.readLeniently text.toList
    (⟨json, f⟩, complaints)

end Logger

/-- An entry as a line of text. -/
def lineText (e : LogEntry) : String :=
  e.level.name ++ " " ++ e.message

/-- The members of an entry's data document. -/
def members (e : LogEntry) : List (String × Json) :=
  [("fields", .obj [("message", .str e.message)]),
    ("level", .str e.level.name),
    ("target", .str e.source.target)]

/-- An entry as a line of text with its time. -/
def stampedLine (time : String) (e : LogEntry) : String :=
  let level := if e.level.name.length < 5 then " " ++ e.level.name else e.level.name
  time ++ " " ++ level ++ " " ++ e.message

/-- An entry as a data document with its time. -/
def stampedJson (time : String) (e : LogEntry) : Json :=
  Json.ofMembers (("timestamp", .str time) :: members e)

end CustomerDedupe.Log
