import CustomerDedupe.Calendar.Reading
import CustomerDedupe.Json.Reader
import CustomerDedupe.Number.Decimal
import CustomerDedupe.Text.Quoted
import CustomerDedupe.Uuid

/-!
# Decoding documents

Decoders take the outline of a value to a value of the domain or say what is wrong with it. A
record is described by a schema: its fields in order, how each is decoded into the record, and
whether it may be left out. `Schema.decode` accepts a record as an object, in which unknown
members are passed over and no member may occur twice, and as an array of the fields' values,
after which only a configuration text may go on.
-/

namespace CustomerDedupe.Json

/-- A value that was found where another was expected. -/
inductive Found where
  | null
  | bool (b : Bool)
  | int (n : Int)
  | real (x : Number.Binary64)
  | str (s : String)
  | seq
  | map
  deriving DecidableEq, Repr

/-- How a found value is described. -/
def Found.describe : Found → String
  | .null => "null"
  | .bool b => "boolean `" ++ (if b then "true" else "false") ++ "`"
  | .int n => "integer `" ++ Text.showInt n ++ "`"
  | .real x => "floating point `" ++ x.text ++ "`"
  | .str s => "string " ++ Text.quoted s
  | .seq => "sequence"
  | .map => "map"

/-- What is wrong with a document. -/
inductive DecodeProblem where
  | form (problem : SyntaxProblem)
  | wrongType (found : Found) (expected : String)
  | wrongValue (found : Found) (expected : String)
  | wrongLength (length : Nat) (expected : String)
  | missingField (name : String)
  | duplicateField (name : String)
  | unknownVariant (name : String) (known : List String)
  | refused (reason : String)
  deriving DecidableEq, Repr

/-- Names in a list of alternatives. -/
def alternatives (names : List String) : String :=
  match names with
  | [] => "there are no variants"
  | [a] => "expected `" ++ a ++ "`"
  | [a, b] => "expected `" ++ a ++ "` or `" ++ b ++ "`"
  | _ => "expected one of " ++ ", ".intercalate (names.map fun n => "`" ++ n ++ "`")

/-- The wording of a problem. -/
def DecodeProblem.message : DecodeProblem → String
  | .form p => p.message
  | .wrongType found expected => "invalid type: " ++ found.describe ++ ", expected " ++ expected
  | .wrongValue found expected =>
    "invalid value: " ++ found.describe ++ ", expected " ++ expected
  | .wrongLength n expected => "invalid length " ++ Text.showNat n ++ ", expected " ++ expected
  | .missingField name => "missing field `" ++ name ++ "`"
  | .duplicateField name => "duplicate field `" ++ name ++ "`"
  | .unknownVariant name known => "unknown variant `" ++ name ++ "`, " ++ alternatives known
  | .refused reason => reason

/-- A problem with its place in the text, as far as that is settled. -/
structure Refusal where
  problem : DecodeProblem
  place : Option Nat
  deriving DecidableEq, Repr

namespace Refusal

/-- The refusal of a text that is no document. -/
def ofFault (f : Fault) : Refusal :=
  ⟨.form f.problem, some f.place⟩

/-- Settles the place of a refusal that has none. -/
def settle (r : Refusal) (place : Nat) : Refusal :=
  { r with place := some (r.place.getD place) }

/-- The wording of a refusal of a value in memory. -/
def message (r : Refusal) : String :=
  r.problem.message

/-- The wording of a refusal of a text, which names the place. -/
def messageIn (bytes : List UInt8) (r : Refusal) : String :=
  match r.place with
  | none => r.message
  | some place =>
    let (line, column) := lineAndColumn bytes place
    r.message ++ " at line " ++ Text.showNat line ++ " column " ++ Text.showNat column

end Refusal

/-- Where a document comes from: a value in memory, a data document's text, or a configuration
text. -/
inductive Origin where
  | memory
  | text
  | config
  deriving DecidableEq, Repr

/-- A decoder of values of a type. -/
abbrev Decoder (α : Type) :=
  Outline → Except Refusal α

/-- Takes over a fault of reading. -/
def orFault {α : Type} : Except Fault α → Except Refusal α
  | .ok a => .ok a
  | .error f => .error (.ofFault f)

/-- What stands at a place, and where a complaint about its type points. -/
def found : Outline → Except Refusal (Found × Nat)
  | .null _ stop => .ok (.null, stop)
  | .bool _ stop b => .ok (.bool b, stop)
  | .num _ stop n => do
    match ← orFault n with
    | .int n => pure (.int n, stop)
    | .real x => pure (.real x, stop)
  | .str _ stop s => do pure (.str (← orFault s), stop)
  | .arr start _ _ => .ok (.seq, start)
  | .obj start _ _ => .ok (.map, start)
  | .broken f => .error (.ofFault f)

/-- Refuses a value of the wrong type. -/
def mismatch {α : Type} (expected : String) : Decoder α := fun o => do
  let (f, place) ← found o
  throw ⟨.wrongType f expected, some place⟩

/-- Decodes an integer between bounds. -/
def integer (low high : Int) (expected : String) : Decoder Int
  | .num _ stop (.ok (.int n)) =>
    if low ≤ n ∧ n ≤ high then .ok n else .error ⟨.wrongValue (.int n) expected, some stop⟩
  | o => mismatch expected o

/-- Decodes an integer of 32 bits. -/
def int32 : Decoder Int :=
  integer (-2147483648) 2147483647 "i32"

/-- Decodes an integer of 64 bits. -/
def int64 : Decoder Int :=
  integer (-9223372036854775808) 9223372036854775807 "i64"

/-- Decodes a natural number of 32 bits. -/
def nat32 : Decoder Nat := fun o =>
  (integer 0 4294967295 "u32" o).map Int.toNat

/-- Decodes a natural number of 64 bits. -/
def nat64 : Decoder Nat := fun o =>
  (integer 0 18446744073709551615 "u64" o).map Int.toNat

/-- Decodes a truth value. -/
def flag : Decoder Bool
  | .bool _ _ b => .ok b
  | o => mismatch "a boolean" o

/-- Decodes a text and lets a reader take it further; `expected` describes what it should be. -/
def stringWith {α : Type} (expected : String) (read : String → Except DecodeProblem α) :
    Decoder α
  | .str _ stop (.ok s) =>
    match read s with
    | .ok a => .ok a
    | .error p => .error ⟨p, some stop⟩
  | o => mismatch expected o

/-- Decodes a text. -/
def string : Decoder String :=
  stringWith "a string" .ok

/-- Decodes a value that may be null. -/
def optional {α : Type} (d : Decoder α) : Decoder (Option α)
  | .null _ _ => .ok none
  | o => (d o).map some

/-- Decodes any value inside one container. -/
def anything : Decoder Json := fun o =>
  orFault (o.toJson (Outline.maxDepth - 1))

/-- Decodes an identifier. -/
def uuid : Decoder Uuid :=
  stringWith "a formatted UUID string" fun s =>
    match Uuid.read s.toList with
    | .ok u => .ok u
    | .error p => .error (.refused ("UUID parsing failed: " ++ p.message))

/-- What a decimal should be. -/
def decimalExpected : String :=
  "a Decimal type representing a fixed-point number"

/-- Decodes a decimal from a number or a text. -/
def decimal : Decoder Number.Decimal
  | .num _ _ (.ok (.int n)) => .ok (.ofInt n)
  | .num _ stop (.ok (.real x)) =>
    match Number.Decimal.ofBinary64? x with
    | some d => .ok d
    | none => .error ⟨.wrongValue (.real x) decimalExpected, some stop⟩
  | o =>
    stringWith decimalExpected (fun s =>
      match Number.Decimal.read? s with
      | some d => .ok d
      | none => .error (.wrongValue (.str s) decimalExpected)) o

/-- Decodes a column that may be null and whose blank text means the same. A refusal of the
text has no place yet. -/
def column {α : Type} (read : String → Except String α) : Decoder (Option α) := fun o => do
  match ← optional string o with
  | none => pure none
  | some s =>
    if Text.isBlankText s then pure none
    else
      match read s with
      | .ok a => pure (some a)
      | .error reason => throw ⟨.refused reason, none⟩

/-- Decodes a timestamp column. -/
def timestampColumn : Decoder (Option Calendar.Instant) :=
  column fun s =>
    match Calendar.Instant.readColumn? s.toList with
    | some t => .ok t
    | none => .error ("invalid timestamp: " ++ s)

/-- Decodes a date column. -/
def dateColumn : Decoder (Option Calendar.Date) :=
  column fun s =>
    match Calendar.Date.readColumn s.toList with
    | .ok d => .ok d
    | .error p => .error ("invalid date '" ++ s ++ "': " ++ p.message)

/-- Decodes a timestamp with its distance from universal time. -/
def timestamp : Decoder Calendar.Instant :=
  stringWith "an RFC 3339 formatted date and time string" fun s =>
    match Calendar.Instant.readRelaxed s.toList with
    | .ok t => .ok t
    | .error p => .error (.refused p.message)

/-- Whether a field may be left out: never, in objects only, or also at the end of arrays. -/
inductive Presence where
  | required
  | nullable
  | optional
  deriving DecidableEq, Repr

/-- A field of a record: its name, whether it may be left out, and how its value is put into
the record. -/
structure Field (α : Type) where
  name : String
  presence : Presence
  put : α → Decoder α

/-- A field from a decoder of its value and the record's setter. -/
def field {α β : Type} (name : String) (presence : Presence) (d : Decoder β)
    (set : α → β → α) : Field α :=
  ⟨name, presence, fun a o => (d o).map (set a)⟩

/-- A kind of record: its name, its fields in order, and the record in which no field has been
given. -/
structure Schema (α : Type) where
  name : String
  fields : List (Field α)
  blank : α

namespace Schema

variable {α : Type}

/-- The first field that has to be given and is not among the given ones. -/
def missing? (s : Schema α) (given : List String) : Option String :=
  (s.fields.find? fun f => f.presence == .required && !given.contains f.name).map Field.name

/-- Decodes the members of an object in reading order; `given` are the names met so far. -/
def decodeMembers (s : Schema α) (given : List String) (a : α) :
    List (Name × Outline × Nat) → Except Refusal (α × List String)
  | [] => .ok (a, given)
  | (name, o, settled) :: rest => do
    let key ← orFault name.text
    match s.fields.find? fun f => f.name == key with
    | none => do
      orFault o.pass
      s.decodeMembers given a rest
    | some f =>
      if given.contains key then throw ⟨.duplicateField key, some name.settled⟩
      else
        match f.put a o with
        | .error r => throw (r.settle settled)
        | .ok a => s.decodeMembers (key :: given) a rest

/-- Decodes the items of an array, one for each field in turn. The fields that got none and
the items left over are returned. -/
def decodeItems (a : α) :
    List (Field α) → List (Outline × After) → Option After →
      Except Refusal (α × List (Field α) × List (Outline × After) × Option After)
  | f :: fields, (o, after) :: items, _ =>
    match f.put a o with
    | .error r => .error (r.settle after.settled)
    | .ok a => decodeItems a fields items (some after)
  | fields, items, last => .ok (a, fields, items, last)

/-- A break after the last item of a complete array is seen as something behind its end. -/
def afterLast (f : Fault) : Fault :=
  match f.problem with
  | .listCommaExpected | .endOfValue => { f with problem := .trailingCharacters }
  | _ => f

/-- Decodes a record. -/
def decode (s : Schema α) (origin : Origin) : Decoder α
  | .obj _ members ending => do
    let (a, given) ← s.decodeMembers [] s.blank members
    match ending with
    | .broken f => throw (.ofFault f)
    | .closed stop =>
      match s.missing? given with
      | some name => throw ⟨.missingField name, some stop⟩
      | none => pure a
  | .arr _ items ending => do
    let count := s.fields.length
    let (a, unfilled, extra, last) ← decodeItems s.blank s.fields items none
    match unfilled, extra, ending with
    | [], [], .closed _ => pure a
    | [], [], .broken f => throw (.ofFault (afterLast f))
    | [], _ :: _, _ =>
      match origin with
      | .memory => throw ⟨.wrongLength items.length "fewer elements in array", none⟩
      | .text => throw (.ofFault ⟨.trailingCharacters, (last.map After.next).getD 0⟩)
      | .config => pure a
    | _ :: _, _, .broken f => throw (.ofFault f)
    | f :: fields, _, .closed stop =>
      match (f :: fields).findIdx? fun f => f.presence != .optional with
      | none => pure a
      | some i =>
        throw ⟨.wrongLength (count - (fields.length + 1) + i)
          ("struct " ++ s.name ++ " with " ++ Text.showNat count ++ " elements"), some stop⟩
  | o => mismatch ("struct " ++ s.name) o

/-- Decodes a value in memory. -/
def ofJson (s : Schema α) (j : Json) : Except Refusal α :=
  s.decode .memory (.ofJson j)

end Schema

/-- Decodes the items of an array. -/
def decodeEach {α : Type} (d : Decoder α) : List (Outline × After) → Except Refusal (List α)
  | [] => .ok []
  | (o, _) :: rest => do
    let a ← d o
    let as ← decodeEach d rest
    pure (a :: as)

/-- Decodes an array. -/
def list {α : Type} (d : Decoder α) : Decoder (List α)
  | .arr _ items ending => do
    let as ← decodeEach d items
    orFault ending.check
    pure as
  | o => mismatch "a sequence" o

/-- Decodes a whole document. -/
def Document.decode {α : Type} (doc : Document) (d : Decoder α) : Except Refusal α := do
  let a ← d doc.root
  orFault doc.finish
  pure a

end CustomerDedupe.Json
