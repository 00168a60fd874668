import CustomerDedupe.Customer.Row
import CustomerDedupe.Proofs.Json.Written

/-!
# Customers are read as they are written

A customer is `Writable` if its keys fit their columns, its price can be held and its times are in
years of four digits. Such a customer's row is decoded as it is written, from wherever it comes
(`decode_written`), but for the sign of a price of zero, which makes no difference to the amount.
-/

namespace CustomerDedupe

open Calendar (Date FourDigits Instant)
open Number (Decimal)

/-- The keys of a customer fit their columns, its price can be held, and its times and its date are in
years of four digits. -/
structure Customer.Writable (c : Customer) : Prop where
  id_ge : -9223372036854775808 ≤ c.id
  id_le : c.id ≤ 9223372036854775807
  contact_ge : -2147483648 ≤ c.contactId
  contact_le : c.contactId ≤ 2147483647
  assigned : FourDigits c.assignedDate.date.year
  contacted : FourDigits c.lastContactDate.date.year
  joined : ∀ d, c.carJoinDate = some d → FourDigits d.year
  price : ∀ p, c.dbPrice = some p → p.Representable

/-- The customer without the sign of a price of zero. -/
def Customer.plainPrice (c : Customer) : Customer :=
  { c with dbPrice := c.dbPrice.map Decimal.unsignedZero }

namespace CustomerRow

/-- The columns of a row as they are written. -/
def columns (r : CustomerRow) : List (String × Json) :=
  [("address", Json.optStr r.address),
    ("assigned_date", timeJson r.assignedDate),
    ("assigned_to", Json.optStr r.assignedTo),
    ("assigner", Json.optStr r.assigner),
    ("car_join_date", Json.optStr (r.carJoinDate.map Date.text)),
    ("contact_id", Json.int r.contactId),
    ("contact_number", Json.optStr r.contactNumber),
    ("customer_name", Json.optStr r.customerName),
    ("db_price", Json.optStr (r.dbPrice.map Decimal.text)),
    ("gender", Json.optStr r.gender),
    ("group", Json.optStr r.group),
    ("headquarters", Json.optStr r.headquarters),
    ("id", Json.int r.id),
    ("insurance_name", Json.optStr r.insuranceName),
    ("is_archived", flagJson r.isArchived),
    ("is_starred", flagJson r.isStarred),
    ("job_title", Json.optStr r.jobTitle),
    ("last_contact_date", timeJson r.lastContactDate),
    ("marital_status", Json.optStr r.maritalStatus),
    ("notes", Json.optStr r.notes),
    ("proof_number", Json.optStr r.proofNumber),
    ("status", Json.optStr r.status)]

theorem to_json_eq (r : CustomerRow) : r.toJson = .obj r.columns :=
  rfl

/-- The names of the columns that are written. -/
def columnNames : List String :=
  ["address", "assigned_date", "assigned_to", "assigner", "car_join_date", "contact_id",
   "contact_number", "customer_name", "db_price", "gender", "group", "headquarters", "id",
   "insurance_name", "is_archived", "is_starred", "job_title", "last_contact_date",
   "marital_status", "notes", "proof_number", "status"]

theorem column_names_eq (r : CustomerRow) : r.columns.map Prod.fst = columnNames :=
  rfl

theorem flag_written (b : Bool) :
    Json.optional Json.flag (.ofJson (flagJson (some b))) = .ok (some b) :=
  rfl

theorem time_written {t : Instant} (h : FourDigits t.date.year) :
    Json.timestampColumn (.ofJson (timeJson (some t))) = .ok (some t) := by
  refine Json.timestamp_column_written (some t) ?_
  rintro u hu
  exact Option.some.inj hu ▸ h

/-- The columns of a written customer, each with the value that its field is given. -/
theorem puts_written (origin : Json.Origin) {c : Customer} (h : c.Writable) :
    ∃ puts, Json.Puts (schema origin) (ofCustomer c).columns puts ∧
      puts.foldl (fun r put => put r) (schema origin).blank = ofCustomer c.plainPrice :=
  ⟨_,
    .cons rfl (Json.optional_string_written _) <|
    .cons rfl (time_written h.assigned) <|
    .cons rfl (Json.optional_string_written _) <|
    .cons rfl (Json.optional_string_written _) <|
    .cons rfl (Json.date_column_written _ h.joined) <|
    .cons rfl (Json.integer_written h.contact_ge h.contact_le _) <|
    .cons rfl (Json.optional_string_written _) <|
    .cons rfl (Json.optional_string_written _) <|
    .cons rfl (Json.optional_decimal_written _ h.price) <|
    .cons rfl (Json.optional_string_written _) <|
    .cons rfl (Json.optional_string_written _) <|
    .cons rfl (Json.optional_string_written _) <|
    .cons rfl (Json.integer_written h.id_ge h.id_le _) <|
    .cons rfl (Json.optional_string_written _) <|
    .cons rfl (flag_written _) <|
    .cons rfl (flag_written _) <|
    .cons rfl (Json.optional_string_written _) <|
    .cons rfl (time_written h.contacted) <|
    .cons rfl (Json.optional_string_written _) <|
    .cons rfl (Json.optional_string_written _) <|
    .cons rfl (Json.optional_string_written _) <|
    .cons rfl (Json.optional_string_written _) .nil, rfl⟩

/-- A customer's row is decoded as it is written, but for the sign of a price of zero. -/
theorem decode_written (origin : Json.Origin) {c : Customer} (h : c.Writable) :
    (schema origin).decode origin (.ofJson c.toJson) = .ok (ofCustomer c.plainPrice) := by
  obtain ⟨puts, hputs, hrow⟩ := puts_written origin h
  have hnew : ([] ++ (ofCustomer c).columns.map Prod.fst).Nodup := by
    rw [List.nil_append, column_names_eq]
    decide
  have hnone : (schema origin).missing? (columnNames.reverse ++ []) = none := rfl
  rw [Customer.toJson, to_json_eq, Json.Outline.ofJson, Json.Schema.decode,
    Json.decode_put_members hputs hnew, hrow, column_names_eq]
  simp only [bind, Except.bind, hnone]
  rfl

end CustomerRow

end CustomerDedupe
