import CustomerDedupe.Customer.Row
import CustomerDedupe.Customer.Store
import CustomerDedupe.Duplicates.Merge
import CustomerDedupe.Rest.Request

/-!
# The customer table on the server

The customer store that keeps its customers in a table of the server. Requests about contacts
name each positive identifier once, and are not sent at all if there is none.
-/

namespace CustomerDedupe

open Calendar (Instant)

namespace CustomerTable

/-- The name of the table. -/
def name : String :=
  "db_customers"

/-- The positive identifiers among some, each once, in order of first occurrence. -/
def distinctPositive (ids : List Int) : List Int :=
  Duplicates.distinctIds (fun id => 0 < id) ids

/-- The condition that a row belongs to one of some contacts. -/
def contactFilter (ids : List Int) : Rest.Filter :=
  .isIn "contact_id" (ids.map Text.showInt)

/-- Writes a log entry. -/
def note {σ : Type} (level : Level) (message : String) : Action σ Unit :=
  .log level .customers message

/-- The customer table as a store. -/
def store {σ : Type} (ex : Rest.Exchange σ) (now : Instant) : CustomerStore σ where
  list := do
    note .debug ("Loading customers from " ++ name)
    match ← (Rest.select ex (Rest.record CustomerRow.schema) name [] none).outcome with
    | .error e =>
      note .error ("❌ Failed to load customers from Supabase: " ++ e.message)
      throw e
    | .ok rows =>
      if rows.isEmpty then
        note .warn ("No customer rows returned from " ++ name ++
          "; check the data and RLS policies")
      else note .info ("Loaded " ++ Text.showNat rows.length ++ " customer record(s)")
      pure (rows.map (CustomerRow.toCustomer now))
  byContactIds ids := do
    match distinctPositive ids with
    | [] => pure []
    | known =>
      let rows ← Rest.select ex (Rest.record CustomerRow.schema) name [contactFilter known] none
      pure (rows.map (CustomerRow.toCustomer now))
  update c := do
    let _ ← Rest.update ex Json.anything name [.eq "id" (Text.showInt c.id)] c.toJson
  archive ids := do
    match distinctPositive ids with
    | [] => pure ()
    | known =>
      let rows ← Rest.update ex Json.anything name [contactFilter known]
        (.obj [("is_archived", .bool true)])
      note .info ("Archived " ++ Text.showNat rows.length ++ " customer row(s)")
  delete ids := do
    match distinctPositive ids with
    | [] => pure ()
    | known => Rest.delete ex name [contactFilter known]

end CustomerTable

end CustomerDedupe
