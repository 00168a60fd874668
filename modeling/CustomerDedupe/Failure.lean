import CustomerDedupe.Text.Numeral

/-!
# Failures

Everything that can go wrong, by cause, with what is said about it: the full message, the kind
of trouble, how bad it is, a message for the person at the screen, and advice.
-/

namespace CustomerDedupe

/-- Why an exchange with the server failed before a usable answer was there. -/
inductive ExchangeProblem where
  /-- The request could not be put together. -/
  | unbuildable (url : Option String)
  /-- The request could not be sent or was not answered. -/
  | unsent (url : String)
  /-- The answer took too long. -/
  | timedOut (url : String)
  /-- The answer's body is not the expected document. -/
  | undecodable
  deriving DecidableEq, Repr

/-- The wording of a problem with an exchange. -/
def ExchangeProblem.message : ExchangeProblem → String
  | .unbuildable none => "builder error"
  | .unbuildable (some url) => "builder error for url (" ++ url ++ ")"
  | .unsent url | .timedOut url => "error sending request for url (" ++ url ++ ")"
  | .undecodable => "error decoding response body"

/-- A failure, by its cause. -/
inductive Failure where
  | exchange (problem : ExchangeProblem)
  | refused (status : Nat) (message : String)
  | file (reason : String)
  | data (reason : String)
  | config (message : String)
  | missingSetting (field : String)
  | invalidSetting (field value reason : String)
  | unauthorized (message : String)
  | notFound (message : String)
  | monitor (message : String)
  deriving DecidableEq, Repr

/-- The kinds of trouble. -/
inductive Category where
  | network
  | remote
  | configuration
  | data
  | system
  deriving DecidableEq, Repr

/-- How bad a failure is. -/
inductive Severity where
  | low
  | medium
  | high
  | critical
  deriving DecidableEq, Repr

/-- The name of a kind of trouble. -/
def Category.name : Category → String
  | .network => "Network"
  | .remote => "Remote"
  | .configuration => "Configuration"
  | .data => "Data"
  | .system => "System"

/-- The name of a degree. -/
def Severity.name : Severity → String
  | .low => "Low"
  | .medium => "Medium"
  | .high => "High"
  | .critical => "Critical"

namespace Failure

/-- The full message. -/
def message : Failure → String
  | .exchange p => "HTTP request failed: " ++ p.message
  | .refused status m => "Supabase returned " ++ Text.showNat status ++ ": " ++ m
  | .file reason => "IO error: " ++ reason
  | .data reason => "Serialization error: " ++ reason
  | .config m => "Configuration error: " ++ m
  | .missingSetting field => "Missing configuration: " ++ field
  | .invalidSetting field value reason =>
    "Invalid value '" ++ value ++ "' for " ++ field ++ ": " ++ reason
  | .unauthorized m => "Authentication required: " ++ m
  | .notFound m => "Not found: " ++ m
  | .monitor m => "Monitor error: " ++ m

/-- The kind of trouble. -/
def category : Failure → Category
  | .exchange _ => .network
  | .refused _ _ | .unauthorized _ | .notFound _ => .remote
  | .config _ | .missingSetting _ | .invalidSetting _ _ _ => .configuration
  | .data _ => .data
  | .file _ | .monitor _ => .system

/-- How bad a failure is. A refusal is less so if the server itself is in trouble. -/
def severity : Failure → Severity
  | .notFound _ => .low
  | .exchange _ => .medium
  | .refused status _ => if 500 ≤ status then .medium else .high
  | .unauthorized _ | .data _ => .high
  | .config _ | .missingSetting _ | .invalidSetting _ _ _ | .file _ | .monitor _ => .critical

/-- The message for the person at the screen. -/
def friendly : Failure → String
  | .exchange (.timedOut _) => "The Supabase request timed out"
  | .exchange _ => "Could not reach the Supabase project"
  | .refused status m =>
    "Supabase rejected the request (" ++ Text.showNat status ++ "): " ++ m
  | .unauthorized m => "Supabase did not accept the credentials: " ++ m
  | .missingSetting field => "Required setting '" ++ field ++ "' is missing"
  | .invalidSetting field _ reason => "Setting '" ++ field ++ "' is invalid: " ++ reason
  | other => other.message

/-- What may help. -/
def suggestion (f : Failure) : String :=
  match f.category with
  | .network => "Check the Supabase URL and your network connection"
  | .remote => "Check the access token and the table's RLS policies"
  | .configuration => "Fix the configuration file or command-line flags"
  | .data => "The server returned an unexpected payload; check the table schema"
  | .system => "Check file permissions and available resources"

end Failure

end CustomerDedupe
