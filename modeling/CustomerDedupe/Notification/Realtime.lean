import CustomerDedupe.Notification.Basic

/-!
# Changes pushed by the server

A pushed change tells what happened to a row of a table, with the row after the change and what
is known of the row before it. Either may be empty or be of another table's kind, and then it
decodes to nothing.
-/

namespace CustomerDedupe

/-- What happened to a row. -/
inductive ChangeEvent where
  | insert
  | update
  | delete
  deriving DecidableEq, Repr

/-- A pushed change. -/
structure RealtimeChange where
  event : ChangeEvent
  schemaName : Option String
  table : Option String
  new : Json
  old : Json

/-- The columns by which a row before a change can be known. -/
structure NotificationKey where
  id : Option Uuid
  userId : Option Uuid
  deriving DecidableEq, Repr

namespace ChangeEvent

/-- The name of an event in a change. -/
def wireName : ChangeEvent → String
  | .insert => "INSERT"
  | .update => "UPDATE"
  | .delete => "DELETE"

/-- The name of an event in messages. -/
def name : ChangeEvent → String
  | .insert => "Insert"
  | .update => "Update"
  | .delete => "Delete"

/-- Every event. -/
def all : List ChangeEvent :=
  [.insert, .update, .delete]

/-- The event of a name. -/
def ofName (s : String) : Except Json.DecodeProblem ChangeEvent :=
  match all.find? fun e => e.wireName == s with
  | some e => .ok e
  | none => .error (.unknownVariant s (all.map wireName))

/-- Decodes the value that may follow an event's name, which must be null. -/
def nothing : Json.Decoder Unit
  | .null _ _ => .ok ()
  | o => Json.mismatch "unit" o

/-- Decodes an event from its name in a text, or from an object with the name as its only
member. -/
def decodeText : Json.Decoder ChangeEvent
  | .obj start [] _ => .error (.ofFault ⟨.valueExpected, start + 2⟩)
  | .obj _ ((name, o, settled) :: rest) ending => do
    let key ← Json.orFault name.text
    let e ←
      match ofName key with
      | .ok e => pure e
      | .error p => throw ⟨p, some name.settled⟩
    nothing o
    match rest, ending with
    | [], .closed _ => pure e
    | [], .broken ⟨.endOfObject, place⟩ => throw (.ofFault ⟨.endOfObject, place⟩)
    | _, _ => throw (.ofFault ⟨.valueExpected, settled⟩)
  | .str _ stop (.ok s) =>
    match ofName s with
    | .ok e => .ok e
    | .error p => .error ⟨p, some stop⟩
  | .null start _ | .bool start _ _ | .num start _ _ | .arr start _ _ =>
    .error (.ofFault ⟨.valueExpected, start + 1⟩)
  | .str _ _ (.error f) | .broken f => .error (.ofFault f)

/-- Decodes an event from its name in memory, or from an object with the name as its only
member. -/
def decodeMemory : Json.Decoder ChangeEvent
  | .obj _ [(name, o, _)] _ => do
    let key ← Json.orFault name.text
    let e ←
      match ofName key with
      | .ok e => pure e
      | .error p => throw ⟨p, none⟩
    nothing o
    pure e
  | .obj _ _ _ => .error ⟨.wrongValue .map "map with a single key", none⟩
  | o => Json.stringWith "string or map" ofName o

/-- Decodes an event. -/
def decode : Json.Origin → Json.Decoder ChangeEvent
  | .text => decodeText
  | .memory | .config => decodeMemory

end ChangeEvent

namespace RealtimeChange

/-- How changes are decoded. -/
def schema (origin : Json.Origin) : Json.Schema RealtimeChange where
  name := "RealtimeChange"
  blank := ⟨.insert, none, none, .null, .null⟩
  fields :=
    [Json.field "eventType" .required (ChangeEvent.decode origin)
       fun c v => { c with event := v },
     Json.field "schema" .optional (Json.optional Json.string)
       fun c v => { c with schemaName := v },
     Json.field "table" .optional (Json.optional Json.string)
       fun c v => { c with table := v },
     Json.field "new" .optional Json.anything fun c v => { c with new := v },
     Json.field "old" .optional Json.anything fun c v => { c with old := v }]

/-- The record that part of a change holds, if it is an object that is not empty and decodes. -/
def record? {α : Type} (s : Json.Origin → Json.Schema α) (part : Json) : Option α :=
  match part with
  | .obj (_ :: _) => (Json.load s part).toOption
  | _ => none

end RealtimeChange

namespace NotificationKey

/-- How keys are decoded. -/
def schema (_ : Json.Origin) : Json.Schema NotificationKey where
  name := "NotificationKey"
  blank := ⟨none, none⟩
  fields :=
    [Json.field "id" .optional (Json.optional Json.uuid) fun k v => { k with id := v },
     Json.field "user_id" .optional (Json.optional Json.uuid) fun k v => { k with userId := v }]

/-- A key as it is written. -/
def toJson (k : NotificationKey) : Json :=
  .obj [
    ("id", Json.optStr (k.id.map Uuid.text)),
    ("user_id", Json.optStr (k.userId.map Uuid.text))]

end NotificationKey

end CustomerDedupe
