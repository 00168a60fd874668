import CustomerDedupe.Notification.Basic
import CustomerDedupe.Proofs.Json.Written

/-!
# Rows of notifications are read as they are written

A row is `Writable` if its times are in years of four digits. Such a row is decoded as it is
written, from wherever it comes (`decode_to_json`), and so is an array of them (`decode_rows`).
Written over another row it takes its place altogether (`overlay_columns`).
-/

namespace CustomerDedupe.NotificationRow

open Calendar (Instant FourDigits)

instance (year : Int) : Decidable (FourDigits year) :=
  inferInstanceAs (Decidable (_ ∧ _))

/-- The times of a row are in years of four digits. -/
structure Writable (r : NotificationRow) : Prop where
  created : ∀ t, r.createdAt = some t → FourDigits t.date.year
  updated : ∀ t, r.updatedAt = some t → FourDigits t.date.year

/-- The columns of a row as they are written. -/
def columns (r : NotificationRow) : List (String × Json) :=
  [("created_at", Json.optStr (r.createdAt.map Instant.text)),
    ("id", .str r.id.text),
    ("is_read", .bool r.isRead),
    ("message", Json.optStr r.message),
    ("title", .str r.title),
    ("type", Json.optStr r.kind),
    ("updated_at", Json.optStr (r.updatedAt.map Instant.text)),
    ("user_id", .str r.userId.text)]

theorem to_json_eq (r : NotificationRow) : r.toJson = .obj r.columns :=
  rfl

/-- The columns of a written row make up the row. -/
theorem decode_columns (origin : Json.Origin) {r : NotificationRow} (h : r.Writable) :
    (schema origin).decodeMembers [] (schema origin).blank (Json.Outline.ofMembers r.columns) =
      .ok (r, ["user_id", "updated_at", "type", "title", "message", "is_read", "id",
        "created_at"]) := by
  unfold columns
  rw [Json.decode_members_cons rfl rfl (Json.timestamp_column_written _ h.created),
    Json.decode_members_cons rfl rfl (Json.uuid_written _),
    Json.decode_members_cons rfl rfl (Json.flag_written _),
    Json.decode_members_cons rfl rfl (Json.optional_string_written _),
    Json.decode_members_cons rfl rfl (Json.string_written _),
    Json.decode_members_cons rfl rfl (Json.optional_string_written _),
    Json.decode_members_cons rfl rfl (Json.timestamp_column_written _ h.updated),
    Json.decode_members_cons rfl rfl (Json.uuid_written _)]
  rfl

/-- Only a row whose times can be written is decoded. -/
theorem columns_writable {origin : Json.Origin} {r : NotificationRow}
    {result : NotificationRow × List String}
    (h : (schema origin).decodeMembers [] (schema origin).blank (Json.Outline.ofMembers r.columns) =
      .ok result) : r.Writable := by
  unfold columns at h
  obtain ⟨created, hcreated, h⟩ := Json.decode_members_cons_ok rfl rfl h
  rw [Json.decode_members_cons rfl rfl (Json.uuid_written _),
    Json.decode_members_cons rfl rfl (Json.flag_written _),
    Json.decode_members_cons rfl rfl (Json.optional_string_written _),
    Json.decode_members_cons rfl rfl (Json.string_written _),
    Json.decode_members_cons rfl rfl (Json.optional_string_written _)] at h
  obtain ⟨updated, hupdated, -⟩ := Json.decode_members_cons_ok rfl rfl h
  exact ⟨Json.timestamp_column_decoded hcreated, Json.timestamp_column_decoded hupdated⟩

/-- A row is decoded as it is written. -/
theorem decode_to_json (origin : Json.Origin) {r : NotificationRow} (h : r.Writable) :
    (schema origin).decode origin (.ofJson r.toJson) = .ok r := by
  rw [to_json_eq, Json.Outline.ofJson, Json.Schema.decode, decode_columns origin h]
  rfl

/-- Written rows are decoded as they are. -/
theorem decode_rows {rs : List NotificationRow} (h : ∀ r ∈ rs, r.Writable) :
    (Json.Document.ofJson (.arr (rs.map toJson))).decode (Json.list ((schema .text).decode .text)) =
      .ok rs := by
  have hlist : (Json.Document.ofJson (.arr (rs.map toJson))).decode
      (Json.list ((schema .text).decode .text)) = .ok (rs.map fun r => r) :=
    Json.list_decode fun r hr => decode_to_json .text (h r hr)
  rwa [List.map_id'] at hlist

/-- A text that may be null is the value that it is written as. -/
theorem opt_str_value (room : Nat) (o : Option String) :
    (Json.Outline.ofJson (Json.optStr o)).toJson room = .ok (Json.optStr o) := by
  cases o <;> rfl

/-- A written row is a value. -/
theorem to_json_value (r : NotificationRow) :
    Json.anything (.ofJson r.toJson) = .ok (Json.ofMembers r.columns) := by
  simp only [Json.anything, to_json_eq, columns, Json.Outline.ofJson, Json.Outline.ofMembers,
    Json.Outline.toJson, Json.Outline.toMembers, opt_str_value, bind, Except.bind]
  rfl

/-- Written rows are values. -/
theorem rows_values (rs : List NotificationRow) :
    (Json.Document.ofJson (.arr (rs.map toJson))).decode (Json.list Json.anything) =
      .ok (rs.map fun r => Json.ofMembers r.columns) :=
  Json.list_decode fun r _ => to_json_value r

/-- The names of the columns. -/
def columnNames : List String :=
  ["created_at", "id", "is_read", "message", "title", "type", "updated_at", "user_id"]

theorem column_names_eq (r : NotificationRow) : r.columns.map Prod.fst = columnNames :=
  rfl

/-- A row that is written over another one takes its place. -/
theorem overlay_columns (r written : NotificationRow) :
    written.columns.foldl (fun ms m => Json.putMember m.1 m.2 ms) r.columns = written.columns := by
  refine Json.fold_put_members ?_ ?_
  · rw [column_names_eq, column_names_eq]
  · rw [column_names_eq]
    decide

end CustomerDedupe.NotificationRow
