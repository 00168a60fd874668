import CustomerDedupe.Json.Load
import CustomerDedupe.Settings.CompareField
import CustomerDedupe.Validation

/-!
# Detection settings

How duplicates are searched for: the window, the fuzzy search, the threshold, the monitor's
rhythm, and which fields count how much. Settings are decoded from documents in which anything
may be left out, and checked as a whole.
-/

namespace CustomerDedupe

/-- The settings of duplicate detection. -/
structure Settings where
  enabled : Bool
  days : Int
  includeFuzzy : Bool
  scoreThreshold : Int
  monitorIntervalMinutes : Int
  notifyOnSameCount : Bool
  toggles : FieldTable Bool
  weights : FieldTable Nat
  deriving DecidableEq, Repr

namespace Settings

/-- The weights unless others are given. -/
def defaultWeights : FieldTable Nat where
  gender := 1
  address := 2
  jobTitle := 2
  maritalStatus := 1
  proofNumber := 3
  dbPrice := 2
  headquarters := 1
  insuranceName := 2
  carJoinDate := 2
  notes := 1

/-- The settings unless others are given. -/
def default : Settings where
  enabled := false
  days := 30
  includeFuzzy := false
  scoreThreshold := 50
  monitorIntervalMinutes := 10
  notifyOnSameCount := false
  toggles := .uniform false
  weights := defaultWeights

instance : Inhabited Settings :=
  ⟨default⟩

/-- Switches a field on or off and gives it a weight. -/
def setField (s : Settings) (f : CompareField) (enabled : Bool) (weight : Nat) : Settings :=
  { s with toggles := s.toggles.set f enabled, weights := s.weights.set f weight }

/-- The settings that the monitor reacts to. -/
structure MonitorSettings where
  enabled : Bool
  days : Int
  includeFuzzy : Bool
  scoreThreshold : Int
  monitorIntervalMinutes : Int
  notifyOnSameCount : Bool
  deriving DecidableEq, Repr

/-- The settings that the monitor reacts to. -/
def monitorSettings (s : Settings) : MonitorSettings :=
  ⟨s.enabled, s.days, s.includeFuzzy, s.scoreThreshold, s.monitorIntervalMinutes,
    s.notifyOnSameCount⟩

/-- Whether a field is switched on and has a positive weight. -/
def isActive (s : Settings) (f : CompareField) : Bool :=
  s.toggles.get f && 0 < s.weights.get f

/-- The active fields with their weights, in scoring order. -/
def activeFields (s : Settings) : List (CompareField × Nat) :=
  (CompareField.all.filter s.isActive).map fun f => (f, s.weights.get f)

/-- Checks the settings in order; the first that is out of bounds is refused. -/
def validate (s : Settings) : Except Failure Unit := do
  Validation.range "dedupe.days" s.days 1 365
  Validation.range "dedupe.score_threshold" s.scoreThreshold 0 100
  Validation.range "dedupe.monitor_interval_minutes" s.monitorIntervalMinutes 1 2147483647
  CompareField.all.forM fun f =>
    Validation.range ("dedupe.weights." ++ f.name) (s.weights.get f) 0 10

/-- The fields of a table of values, each of which may be left out. -/
def tableFields {α : Type} (d : Json.Decoder α) : List (Json.Field (FieldTable α)) :=
  CompareField.all.map fun f => Json.field f.name .optional d fun t a => t.set f a

/-- How the switches are decoded. -/
def togglesSchema : Json.Schema (FieldTable Bool) :=
  ⟨"FieldToggles", tableFields Json.flag, .uniform false⟩

/-- How the weights are decoded. -/
def weightsSchema : Json.Schema (FieldTable Nat) :=
  ⟨"FieldWeights", tableFields Json.nat32, defaultWeights⟩

/-- How settings are decoded. -/
def schema (origin : Json.Origin) : Json.Schema Settings where
  name := "DedupeSettings"
  blank := default
  fields :=
    [Json.field "enabled" .optional Json.flag fun s v => { s with enabled := v },
     Json.field "days" .optional Json.int32 fun s v => { s with days := v },
     Json.field "include_fuzzy" .optional Json.flag fun s v => { s with includeFuzzy := v },
     Json.field "score_threshold" .optional Json.int32
       fun s v => { s with scoreThreshold := v },
     Json.field "monitor_interval_minutes" .optional Json.int32
       fun s v => { s with monitorIntervalMinutes := v },
     Json.field "notify_on_same_count" .optional Json.flag
       fun s v => { s with notifyOnSameCount := v },
     Json.field "use" .optional (togglesSchema.decode origin)
       fun s v => { s with toggles := v },
     Json.field "weights" .optional (weightsSchema.decode origin)
       fun s v => { s with weights := v }]

/-- Decodes settings. -/
def ofJson (j : Json) : Except Failure Settings :=
  Json.load schema j

/-- A table of values as it is written, in ascending order of the fields' names. -/
def tableJson {α : Type} (value : α → Json) (t : FieldTable α) : Json :=
  .obj [
    ("address", value t.address),
    ("car_join_date", value t.carJoinDate),
    ("db_price", value t.dbPrice),
    ("gender", value t.gender),
    ("headquarters", value t.headquarters),
    ("insurance_name", value t.insuranceName),
    ("job_title", value t.jobTitle),
    ("marital_status", value t.maritalStatus),
    ("notes", value t.notes),
    ("proof_number", value t.proofNumber)]

/-- Settings as they are written. -/
def toJson (s : Settings) : Json :=
  .obj [
    ("days", Json.int s.days),
    ("enabled", .bool s.enabled),
    ("include_fuzzy", .bool s.includeFuzzy),
    ("monitor_interval_minutes", Json.int s.monitorIntervalMinutes),
    ("notify_on_same_count", .bool s.notifyOnSameCount),
    ("score_threshold", Json.int s.scoreThreshold),
    ("use", tableJson Json.bool s.toggles),
    ("weights", tableJson Json.nat s.weights)]

/-- Lays the members of a document over another: members replace those of the same name, and
the members of objects among them do so one by one. -/
def overlay (base patch : Json) : Json :=
  match base, patch with
  | .obj members, .obj changes =>
    .obj (changes.foldl (fun ms (k, v) => Json.putMember k (merged (ms.lookup k) v) ms) members)
  | _, _ => patch
where
  /-- Lays the members of one entry over those of another. -/
  merged : Option Json → Json → Json
    | some (.obj inner), .obj changes =>
      .obj (changes.foldl (fun ms (k, v) => Json.putMember k v ms) inner)
    | _, v => v

/-- The settings with those that a document names replaced. -/
def patch (s : Settings) (changes : Json) : Except Failure Settings :=
  ofJson (overlay s.toJson changes)

end Settings

end CustomerDedupe
