import CustomerDedupe.Action
import CustomerDedupe.Json.Load

/-!
# Requests to the table server

A request names a table, says which rows it is about and in which order they are wanted, and
reads, adds, changes or removes them. `Exchange` is whatever answers requests; the functions on
it decode the rows of the answers.
-/

namespace CustomerDedupe.Rest

/-- A condition on a column. -/
inductive Filter where
  | eq (column value : String)
  | isIn (column : String) (values : List String)
  deriving DecidableEq, Repr

/-- The column that a filter is about, and its condition as it is sent. -/
def Filter.pair : Filter → String × String
  | .eq column value => (column, "eq." ++ value)
  | .isIn column values => (column, "in.(" ++ ",".intercalate values ++ ")")

/-- A column to sort by. -/
structure Order where
  column : String
  ascending : Bool
  deriving DecidableEq, Repr

/-- An order as it is sent. -/
def Order.text (o : Order) : String :=
  o.column ++ (if o.ascending then ".asc" else ".desc")

/-- What a request does with the rows that it is about. -/
inductive Verb where
  | select
  | insert (body : Json)
  | update (body : Json)
  | delete

/-- The name of a verb as it is sent. -/
def Verb.method : Verb → String
  | .select => "GET"
  | .insert _ => "POST"
  | .update _ => "PATCH"
  | .delete => "DELETE"

/-- What a verb sends along. -/
def Verb.body? : Verb → Option Json
  | .select | .delete => none
  | .insert body | .update body => some body

/-- A request. -/
structure Request where
  verb : Verb
  table : String
  filters : List Filter
  order : Option Order

/-- The parameters of a request as they are sent. -/
def Request.params (r : Request) : List (String × String) :=
  (match r.verb with
    | .select => [("select", "*")]
    | _ => []) ++
  r.filters.map Filter.pair ++
  (match r.order with
    | none => []
    | some o => [("order", o.text)])

/-- Whatever answers requests with documents. -/
abbrev Exchange (σ : Type) :=
  Request → Action σ Json.Document

variable {σ α : Type}

/-- The filters of a request as a log shows them. -/
def filtersText (filters : List Filter) : String :=
  let show' (f : Filter) : String :=
    "(" ++ Text.quoted f.pair.1 ++ ", " ++ Text.quoted f.pair.2 ++ ")"
  "[" ++ ", ".intercalate (filters.map show') ++ "]"

/-- Writes a log entry about a request. -/
def noteRequest (r : Request) : Action σ Unit :=
  .log .debug .client
    (match r.verb with
      | .insert _ => "POST " ++ r.table
      | _ => r.verb.method ++ " " ++ r.table ++ " filters=" ++ filtersText r.filters)

/-- Sends a request and decodes the rows of the answer. -/
def rows (ex : Exchange σ) (d : Json.Decoder α) (r : Request) : Action σ (List α) := do
  noteRequest r
  let doc ← ex r
  match doc.decode (Json.list d) with
  | .ok rows => pure rows
  | .error _ => throw (.exchange .undecodable)

/-- Sends a request whose answer does not matter. -/
def send (ex : Exchange σ) (r : Request) : Action σ Unit := do
  noteRequest r
  let _ ← ex r

/-- A decoder of records in texts. -/
def record (schema : Json.Origin → Json.Schema α) : Json.Decoder α :=
  (schema .text).decode .text

/-- Reads rows. -/
def select (ex : Exchange σ) (d : Json.Decoder α) (table : String) (filters : List Filter)
    (order : Option Order) : Action σ (List α) :=
  rows ex d ⟨.select, table, filters, order⟩

/-- Adds a row and returns what is stored. -/
def insert (ex : Exchange σ) (d : Json.Decoder α) (table : String) (body : Json) :
    Action σ (List α) :=
  rows ex d ⟨.insert body, table, [], none⟩

/-- Changes rows and returns them. -/
def update (ex : Exchange σ) (d : Json.Decoder α) (table : String) (filters : List Filter)
    (body : Json) : Action σ (List α) :=
  rows ex d ⟨.update body, table, filters, none⟩

/-- Removes rows. -/
def delete (ex : Exchange σ) (table : String) (filters : List Filter) : Action σ Unit :=
  send ex ⟨.delete, table, filters, none⟩

end CustomerDedupe.Rest
