import CustomerDedupe.Calendar.Instant
import CustomerDedupe.Json.Load

/-!
# Notifications

Messages in a user's feed, the rows that hold them, and the way from one to the other. Columns
that are null in a row have their usual values in the message.
-/

namespace CustomerDedupe

open Calendar (Instant)

/-- The time and a fresh identifier for whoever needs them in one operation. -/
structure Moment where
  now : Instant
  freshId : Uuid

/-- A message in a user's feed. -/
structure NotificationItem where
  id : Uuid
  title : String
  message : String
  timestamp : Option Instant
  isRead : Bool
  kind : String
  deriving DecidableEq, Repr

/-- A row of the notification table. -/
structure NotificationRow where
  id : Uuid
  userId : Uuid
  title : String
  message : Option String
  kind : Option String
  isRead : Bool
  createdAt : Option Instant
  updatedAt : Option Instant
  deriving DecidableEq, Repr

namespace NotificationItem

/-- The kind of a message that only informs. -/
def info : String :=
  "info"

/-- The kind of a message that warns. -/
def warning : String :=
  "warning"

/-- How messages are decoded. -/
def schema (_ : Json.Origin) : Json.Schema NotificationItem where
  name := "NotificationFeedItem"
  blank := ⟨.null, "", "", none, false, ""⟩
  fields :=
    [Json.field "id" .required Json.uuid fun i v => { i with id := v },
     Json.field "title" .required Json.string fun i v => { i with title := v },
     Json.field "message" .required Json.string fun i v => { i with message := v },
     Json.field "timestamp_utc" .nullable (Json.optional Json.timestamp)
       fun i v => { i with timestamp := v },
     Json.field "is_read" .required Json.flag fun i v => { i with isRead := v },
     Json.field "type" .required Json.string fun i v => { i with kind := v }]

/-- A message as it is written. -/
def toJson (i : NotificationItem) : Json :=
  .obj [
    ("id", .str i.id.text),
    ("is_read", .bool i.isRead),
    ("message", .str i.message),
    ("timestamp_utc", Json.optStr (i.timestamp.map Instant.text)),
    ("title", .str i.title),
    ("type", .str i.kind)]

end NotificationItem

namespace NotificationRow

/-- How rows are decoded. -/
def schema (_ : Json.Origin) : Json.Schema NotificationRow where
  name := "NotificationFeedRecord"
  blank := ⟨.null, .null, "", none, none, false, none, none⟩
  fields :=
    [Json.field "id" .required Json.uuid fun r v => { r with id := v },
     Json.field "user_id" .required Json.uuid fun r v => { r with userId := v },
     Json.field "title" .required Json.string fun r v => { r with title := v },
     Json.field "message" .optional (Json.optional Json.string)
       fun r v => { r with message := v },
     Json.field "type" .optional (Json.optional Json.string)
       fun r v => { r with kind := v },
     Json.field "is_read" .optional Json.flag fun r v => { r with isRead := v },
     Json.field "created_at" .optional Json.timestampColumn
       fun r v => { r with createdAt := v },
     Json.field "updated_at" .optional Json.timestampColumn
       fun r v => { r with updatedAt := v }]

/-- A row as it is written. -/
def toJson (r : NotificationRow) : Json :=
  .obj [
    ("created_at", Json.optStr (r.createdAt.map Instant.text)),
    ("id", .str r.id.text),
    ("is_read", .bool r.isRead),
    ("message", Json.optStr r.message),
    ("title", .str r.title),
    ("type", Json.optStr r.kind),
    ("updated_at", Json.optStr (r.updatedAt.map Instant.text)),
    ("user_id", .str r.userId.text)]

/-- The row of a user's message. A message without an identifier gets a fresh one, and one
without a time is of now. -/
def ofItem (m : Moment) (user : Uuid) (i : NotificationItem) : NotificationRow :=
  let at' := i.timestamp.getD m.now
  { id := if i.id = .null then m.freshId else i.id
    userId := user
    title := i.title
    message := some i.message
    kind := some i.kind
    isRead := i.isRead
    createdAt := some at'
    updatedAt := some at' }

/-- The message of a row. -/
def toItem (now : Instant) (r : NotificationRow) : NotificationItem where
  id := r.id
  title := r.title
  message := r.message.getD ""
  timestamp := some (r.createdAt.getD now)
  isRead := r.isRead
  kind := r.kind.getD NotificationItem.info

end NotificationRow

end CustomerDedupe
