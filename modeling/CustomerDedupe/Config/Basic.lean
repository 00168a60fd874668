import CustomerDedupe.Config.Environment
import CustomerDedupe.Rest.Client
import CustomerDedupe.Settings.Basic
import CustomerDedupe.Toml.Reader

/-!
# Configurations

What a configuration file says: how to reach the server and as whom, how to search for
duplicates, and what to log. A configuration is read from a text in which references to the
environment have been replaced, and checked as a whole before it is used.
-/

namespace CustomerDedupe

/-- How to reach the server and as whom. -/
structure Connection where
  url : String
  anonKey : String
  accessToken : Option String
  userId : Option String
  timeoutSeconds : Option Nat
  deriving DecidableEq, Repr

/-- What to log and in which form. -/
structure Logging where
  level : Option String
  format : Option String
  deriving DecidableEq, Repr

/-- Why a file cannot be read. -/
inductive FileProblem where
  | missing
  | directory
  | behindFile
  | notText
  | other (reason : String)
  deriving DecidableEq, Repr

/-- The wording of a problem with a file. -/
def FileProblem.message : FileProblem → String
  | .missing => "No such file or directory (os error 2)"
  | .directory => "Is a directory (os error 21)"
  | .behindFile => "Not a directory (os error 20)"
  | .notText => "stream did not contain valid UTF-8"
  | .other reason => reason

/-- A configuration. -/
structure Config where
  connection : Connection
  settings : Settings
  logging : Option Logging
  deriving DecidableEq, Repr

namespace Connection

/-- The connection of which nothing is given. -/
def blank : Connection :=
  ⟨"", "", none, none, none⟩

/-- How connections are decoded. -/
def schema (_ : Json.Origin) : Json.Schema Connection where
  name := "SupabaseConfig"
  blank := blank
  fields :=
    [Json.field "url" .required Json.string fun c v => { c with url := v },
     Json.field "anon_key" .required Json.string fun c v => { c with anonKey := v },
     Json.field "access_token" .nullable (Json.optional Json.string)
       fun c v => { c with accessToken := v },
     Json.field "user_id" .nullable (Json.optional Json.string)
       fun c v => { c with userId := v },
     Json.field "timeout_seconds" .nullable (Json.optional Json.nat64)
       fun c v => { c with timeoutSeconds := v }]

/-- The time that an answer may take, in seconds. -/
def timeout (c : Connection) : Nat :=
  c.timeoutSeconds.getD Rest.defaultTimeout

/-- The access token, unless it is blank. -/
def token? (c : Connection) : Option String :=
  c.accessToken.filter fun t => !Text.isBlankText t

/-- The client of the server. -/
def client (c : Connection) : Rest.Client :=
  { Rest.Client.new c.url c.anonKey with
    accessToken := c.token?
    timeoutSeconds := c.timeout }

/-- A connection as it is written. -/
def toJson (c : Connection) : Json :=
  .obj [
    ("access_token", Json.optStr c.accessToken),
    ("anon_key", .str c.anonKey),
    ("timeout_seconds", (c.timeoutSeconds.map Json.nat).getD .null),
    ("url", .str c.url),
    ("user_id", Json.optStr c.userId)]

end Connection

namespace Logging

/-- How the settings of the log are decoded. -/
def schema (_ : Json.Origin) : Json.Schema Logging where
  name := "LoggingConfig"
  blank := ⟨none, none⟩
  fields :=
    [Json.field "level" .nullable (Json.optional Json.string)
       fun l v => { l with level := v },
     Json.field "format" .nullable (Json.optional Json.string)
       fun l v => { l with format := v }]

/-- The forms that a log may have. -/
def formats : List String :=
  ["compact", "json"]

/-- The settings of the log as they are written. -/
def toJson (l : Logging) : Json :=
  .obj [("format", Json.optStr l.format), ("level", Json.optStr l.level)]

end Logging

namespace Config

/-- The name of the configuration file unless another is given. -/
def defaultFile : String :=
  "crm-dedupe.toml"

/-- How configurations are decoded. -/
def schema (origin : Json.Origin) : Json.Schema Config where
  name := "TomlConfig"
  blank := ⟨.blank, .default, none⟩
  fields :=
    [Json.field "supabase" .required ((Connection.schema origin).decode origin)
       fun c v => { c with connection := v },
     Json.field "dedupe" .optional ((Settings.schema origin).decode origin)
       fun c v => { c with settings := v },
     Json.field "logging" .nullable (Json.optional ((Logging.schema origin).decode origin))
       fun c v => { c with logging := v }]

/-- The failure of a text that is no configuration. -/
def unreadable (reason : String) : Failure :=
  .config ("TOML parsing error: " ++ reason)

/-- Reads a configuration from a text in which references have been replaced. -/
def ofText (text : String) : Except Failure Config :=
  match Toml.read? text with
  | none => .error (unreadable "the text is malformed")
  | some v =>
    match (schema .config).decode .config v.outline with
    | .ok c => .ok c
    | .error r => .error (unreadable r.message)

/-- Reads a configuration from a text that may refer to the environment. -/
def read (env : Environment) (text : String) : Except Failure Config :=
  ofText (env.substitute text)

/-- Reads a configuration from the bytes of a file, if there are any to be had. -/
def ofFile (env : Environment) : Except FileProblem (List UInt8) → Except Failure Config
  | .error p => .error (.file p.message)
  | .ok bytes =>
    match Text.Utf8.decode? bytes with
    | none => .error (.file FileProblem.notText.message)
    | some text => read env (String.ofList text)

/-- The user whose notifications are kept; a blank identifier means none. -/
def user (c : Config) : Except Failure (Option Uuid) :=
  match c.connection.userId.map fun s => Text.trimChars s.toList with
  | none | some [] => .ok none
  | some s =>
    match Uuid.read s with
    | .ok u => .ok (some u)
    | .error p =>
      .error (.invalidSetting "supabase.user_id" (String.ofList s) p.message)

/-- The level of the log, if one is given. -/
def logLevel (c : Config) : Option String :=
  c.logging.bind Logging.level

/-- The form of the log, if one is given. -/
def logFormat (c : Config) : Option String :=
  c.logging.bind Logging.format

/-- Whether the log is written as data documents. Case does not matter. -/
def jsonLogs (c : Config) : Bool :=
  c.logFormat.any fun f => Text.asciiLowercase f == "json"

/-- Checks the configuration in order; the first setting that is out of bounds is refused. -/
def validate (c : Config) : Except Failure Unit := do
  Validation.url "supabase.url" c.connection.url
  Validation.nonEmpty "supabase.anon_key" c.connection.anonKey
  match c.connection.userId with
  | some u =>
    if Text.isBlankText u then pure () else Validation.uuid "supabase.user_id" u
  | none => pure ()
  match c.connection.timeoutSeconds with
  | some t => Validation.range "supabase.timeout_seconds" t 1 600
  | none => pure ()
  match c.logFormat with
  | some f =>
    if Logging.formats.contains f then pure ()
    else throw (.invalidSetting "logging.format" f
      ("Valid formats: " ++ ", ".intercalate Logging.formats))
  | none => pure ()
  c.settings.validate

/-- A configuration as it is written. -/
def toJson (c : Config) : Json :=
  .obj [
    ("dedupe", c.settings.toJson),
    ("logging", (c.logging.map Logging.toJson).getD .null),
    ("supabase", c.connection.toJson)]

end Config

end CustomerDedupe
