import CustomerDedupe.Customer.Basic
import CustomerDedupe.Json.Load

/-!
# Rows of the customer table

A row as the database holds it, where everything but the two keys may be null. A row becomes a
customer by filling in what is missing, and a customer is written as a row without the audit
columns, which the database keeps itself.
-/

namespace CustomerDedupe

open Calendar (Date Instant)

/-- A row of the customer table. -/
structure CustomerRow where
  id : Int
  contactId : Int
  customerName : Option String
  contactNumber : Option String
  group : Option String
  assignedTo : Option String
  assigner : Option String
  assignedDate : Option Instant
  lastContactDate : Option Instant
  status : Option String
  isStarred : Option Bool
  isArchived : Option Bool
  gender : Option String
  address : Option String
  jobTitle : Option String
  maritalStatus : Option String
  proofNumber : Option String
  dbPrice : Option Number.Decimal
  headquarters : Option String
  insuranceName : Option String
  carJoinDate : Option Date
  notes : Option String
  createdAt : Option Instant
  updatedAt : Option Instant
  deriving DecidableEq, Repr

namespace CustomerRow

/-- The row in which nothing is given. -/
def blank : CustomerRow where
  id := 0
  contactId := 0
  customerName := none
  contactNumber := none
  group := none
  assignedTo := none
  assigner := none
  assignedDate := none
  lastContactDate := none
  status := none
  isStarred := none
  isArchived := none
  gender := none
  address := none
  jobTitle := none
  maritalStatus := none
  proofNumber := none
  dbPrice := none
  headquarters := none
  insuranceName := none
  carJoinDate := none
  notes := none
  createdAt := none
  updatedAt := none

/-- A column of text. -/
def textField (name : String) (set : CustomerRow → Option String → CustomerRow) :
    Json.Field CustomerRow :=
  Json.field name .optional (Json.optional Json.string) set

/-- A column of timestamps. -/
def timeField (name : String) (set : CustomerRow → Option Instant → CustomerRow) :
    Json.Field CustomerRow :=
  Json.field name .optional Json.timestampColumn set

/-- The columns in order. -/
def fields : List (Json.Field CustomerRow) :=
  [Json.field "id" .required Json.int64 fun r v => { r with id := v },
   Json.field "contact_id" .required Json.int32 fun r v => { r with contactId := v },
   textField "customer_name" fun r v => { r with customerName := v },
   textField "contact_number" fun r v => { r with contactNumber := v },
   textField "group" fun r v => { r with group := v },
   textField "assigned_to" fun r v => { r with assignedTo := v },
   textField "assigner" fun r v => { r with assigner := v },
   timeField "assigned_date" fun r v => { r with assignedDate := v },
   timeField "last_contact_date" fun r v => { r with lastContactDate := v },
   textField "status" fun r v => { r with status := v },
   Json.field "is_starred" .optional (Json.optional Json.flag)
     fun r v => { r with isStarred := v },
   Json.field "is_archived" .optional (Json.optional Json.flag)
     fun r v => { r with isArchived := v },
   textField "gender" fun r v => { r with gender := v },
   textField "address" fun r v => { r with address := v },
   textField "job_title" fun r v => { r with jobTitle := v },
   textField "marital_status" fun r v => { r with maritalStatus := v },
   textField "proof_number" fun r v => { r with proofNumber := v },
   Json.field "db_price" .optional (Json.optional Json.decimal)
     fun r v => { r with dbPrice := v },
   textField "headquarters" fun r v => { r with headquarters := v },
   textField "insurance_name" fun r v => { r with insuranceName := v },
   Json.field "car_join_date" .optional Json.dateColumn
     fun r v => { r with carJoinDate := v },
   textField "notes" fun r v => { r with notes := v },
   timeField "created_at" fun r v => { r with createdAt := v },
   timeField "updated_at" fun r v => { r with updatedAt := v }]

/-- How rows are decoded. -/
def schema (_ : Json.Origin) : Json.Schema CustomerRow :=
  ⟨"DbCustomerRecord", fields, blank⟩

/-- An optional instant as a value. -/
def timeJson (t : Option Instant) : Json :=
  Json.optStr (t.map Instant.text)

/-- An optional truth value as a value. -/
def flagJson : Option Bool → Json
  | none => .null
  | some b => .bool b

/-- A row as it is written, without the audit columns. -/
def toJson (r : CustomerRow) : Json :=
  .obj [
    ("address", Json.optStr r.address),
    ("assigned_date", timeJson r.assignedDate),
    ("assigned_to", Json.optStr r.assignedTo),
    ("assigner", Json.optStr r.assigner),
    ("car_join_date", Json.optStr (r.carJoinDate.map Date.text)),
    ("contact_id", Json.int r.contactId),
    ("contact_number", Json.optStr r.contactNumber),
    ("customer_name", Json.optStr r.customerName),
    ("db_price", Json.optStr (r.dbPrice.map Number.Decimal.text)),
    ("gender", Json.optStr r.gender),
    ("group", Json.optStr r.group),
    ("headquarters", Json.optStr r.headquarters),
    ("id", Json.int r.id),
    ("insurance_name", Json.optStr r.insuranceName),
    ("is_archived", flagJson r.isArchived),
    ("is_starred", flagJson r.isStarred),
    ("job_title", Json.optStr r.jobTitle),
    ("last_contact_date", timeJson r.lastContactDate),
    ("marital_status", Json.optStr r.maritalStatus),
    ("notes", Json.optStr r.notes),
    ("proof_number", Json.optStr r.proofNumber),
    ("status", Json.optStr r.status)]

/-- The customer of a row. A missing time of assignment is that of the row's creation, a
missing last contact that of its last change or its creation, and `now` stands in for both. -/
def toCustomer (now : Instant) (r : CustomerRow) : Customer where
  id := r.id
  contactId := r.contactId
  customerName := r.customerName
  contactNumber := r.contactNumber
  group := r.group
  assignedTo := r.assignedTo
  assigner := r.assigner
  assignedDate := (r.assignedDate.or r.createdAt).getD now
  lastContactDate := ((r.lastContactDate.or r.updatedAt).or r.createdAt).getD now
  status := (r.status.map Status.read).getD .new
  isStarred := r.isStarred.getD false
  isArchived := r.isArchived.getD false
  gender := r.gender
  address := r.address
  jobTitle := r.jobTitle
  maritalStatus := r.maritalStatus
  proofNumber := r.proofNumber
  dbPrice := r.dbPrice
  headquarters := r.headquarters
  insuranceName := r.insuranceName
  carJoinDate := r.carJoinDate
  notes := r.notes

/-- The row of a customer. -/
def ofCustomer (c : Customer) : CustomerRow where
  id := c.id
  contactId := c.contactId
  customerName := c.customerName
  contactNumber := c.contactNumber
  group := c.group
  assignedTo := c.assignedTo
  assigner := c.assigner
  assignedDate := some c.assignedDate
  lastContactDate := some c.lastContactDate
  status := some c.status.text
  isStarred := some c.isStarred
  isArchived := some c.isArchived
  gender := c.gender
  address := c.address
  jobTitle := c.jobTitle
  maritalStatus := c.maritalStatus
  proofNumber := c.proofNumber
  dbPrice := c.dbPrice
  headquarters := c.headquarters
  insuranceName := c.insuranceName
  carJoinDate := c.carJoinDate
  notes := c.notes
  createdAt := none
  updatedAt := none

/-- Making a row of a customer and a customer of the row gives the customer back. -/
theorem to_customer_of_customer (now : Instant) (c : Customer) :
    (ofCustomer c).toCustomer now = c := by
  simp [ofCustomer, toCustomer, Status.read_text]

end CustomerRow

/-- A customer as it is written. -/
def Customer.toJson (c : Customer) : Json :=
  (CustomerRow.ofCustomer c).toJson

end CustomerDedupe
