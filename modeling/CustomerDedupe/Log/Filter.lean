import CustomerDedupe.Action
import CustomerDedupe.Text.Blank
import CustomerDedupe.Text.Lowercase
import CustomerDedupe.Text.Numeral
import CustomerDedupe.Text.Split

/-!
# Log filters

A filter says down to which level entries of a part of the program are logged. It is written as
directives between commas, each a level, the beginning of a part's name, or both around an
equals sign. Of the directives that concern an entry, the one with the longest name decides.
-/

namespace CustomerDedupe

/-- How much is logged at a level and above: nothing at 0, everything at 5. -/
def Level.verbosity : Level → Nat
  | .error => 1
  | .warn => 2
  | .info => 3
  | .debug => 4
  | .trace => 5

/-- The name of a level in the log. -/
def Level.name : Level → String
  | .error => "ERROR"
  | .warn => "WARN"
  | .info => "INFO"
  | .debug => "DEBUG"
  | .trace => "TRACE"

/-- The name of a part of the program in the log. -/
def Source.target : Source → String
  | .program => "crm_dedupe"
  | .commandLine => "crm_dedupe::config::cli"
  | .customers => "crm_dedupe::adapters::supabase::customers"
  | .client => "crm_dedupe::adapters::supabase::client"
  | .notifications => "crm_dedupe::adapters::supabase::notifications"
  | .duplicates => "crm_dedupe::core::duplicate"
  | .monitor => "crm_dedupe::core::monitor"

namespace Log

/-- A directive of a filter. -/
inductive Directive where
  /-- Entries of the parts whose names begin so, or of all, are logged up to a verbosity. -/
  | upTo (start : Option (List Char)) (verbosity : Nat)
  /-- The directive is about spans of time, of which there are none. -/
  | spans
  deriving DecidableEq, Repr

/-- Why a text is no directive. -/
inductive DirectiveProblem where
  | malformed
  | unknownLevel
  deriving DecidableEq, Repr

/-- The wording of a problem. -/
def DirectiveProblem.message : DirectiveProblem → String
  | .malformed => "invalid filter directive"
  | .unknownLevel =>
    "error parsing level filter: expected one of \"off\", \"error\", \"warn\", \"info\", " ++
      "\"debug\", \"trace\", or a number 0-5"

/-- The names of the verbosities in ascending order. -/
def verbosityNames : List String :=
  ["off", "error", "warn", "info", "debug", "trace"]

/-- Reads a verbosity from its name, in which case does not matter, or its number. -/
def readVerbosity? (s : List Char) : Option Nat :=
  let digits := match s with
    | '+' :: rest => rest
    | _ => s
  match (Text.readNat? digits).filter (· ≤ 5) with
  | some n => some n
  | none => verbosityNames.findIdx? (· == Text.asciiLowercase (String.ofList s))

/-- Whether a directive may begin with a character. Letters outside the Latin alphabet are
taken for granted. -/
def startsDirective (c : Char) : Bool :=
  c.isAlphanum || c == '-' || c == ':' || c == '_' || 128 ≤ c.toNat

/-- Reads what follows the name in a directive: nothing, a level, or something about spans. -/
def readRest (start : List Char) : List Char → Except DirectiveProblem Directive
  | [] =>
    match readVerbosity? start with
    | some n => .ok (.upTo none n)
    | none => .ok (.upTo (some start) 5)
  | '=' :: [] => .ok (.upTo (some start) 5)
  | '=' :: level =>
    match readVerbosity? level with
    | some n => .ok (.upTo (some start) n)
    | none => .error .unknownLevel
  | spans => if spans.contains ']' then .ok .spans else .error .malformed

/-- Reads a directive. -/
def Directive.read (s : List Char) : Except DirectiveProblem Directive :=
  let s := Text.trimChars s
  match s with
  | [] => .ok (.upTo none 5)
  | c :: _ =>
    if c != '[' && !startsDirective c then .error .malformed
    else
      let start := s.takeWhile fun c => c != '=' && c != '['
      readRest start (s.drop start.length)

/-- A filter. -/
abbrev Filter :=
  List Directive

namespace Filter

/-- Directives as a filter; without any, only errors are logged. -/
def ofDirectives (ds : List Directive) : Filter :=
  if ds.isEmpty then [.upTo none 1] else ds

/-- The texts between commas that are not empty. -/
def parts (s : List Char) : List (List Char) :=
  (Text.splitAt ',' s).filter fun p => !p.isEmpty

/-- Reads a filter, if all its directives are in order. -/
def read? (s : List Char) : Option Filter :=
  ((parts s).mapM Directive.read).toOption.map ofDirectives

/-- Reads the directives of a filter that are in order, and complains about the others. -/
def readLeniently (s : List Char) : Filter × List String :=
  let results := (parts s).map fun p => (p, Directive.read p)
  let good := results.filterMap fun r => r.2.toOption
  let complaint (r : List Char × Except DirectiveProblem Directive) : Option String :=
    match r.2 with
    | .ok _ => none
    | .error p => some ("ignoring `" ++ String.ofList r.1 ++ "`: " ++ p.message)
  (ofDirectives good, results.filterMap complaint)

/-- How closely a directive concerns a part of the program, and the verbosity that it sets for
it. -/
def concern? (target : List Char) : Directive → Option (Nat × Nat)
  | .spans => none
  | .upTo none n => some (0, n)
  | .upTo (some start) n => if start.isPrefixOf target then some (start.length + 1, n) else none

/-- The verbosity for a part of the program. -/
def verbosity (f : Filter) (target : String) : Nat :=
  let closer (best next : Nat × Nat) : Nat × Nat := if next.1 < best.1 then best else next
  ((f.filterMap (concern? target.toList)).foldl closer (0, 0)).2

/-- Whether an entry is logged. -/
def admits (f : Filter) (e : LogEntry) : Bool :=
  e.level.verbosity ≤ f.verbosity e.source.target

end Filter

end Log

end CustomerDedupe
