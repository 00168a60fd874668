import CustomerDedupe.Json.Value

/-!
# Documents as far as they have been read

An outline is a document as a reader meets it from left to right: every value with the place
where it begins and ends, names as often as they occur, and a break where the text stops being
a document. Decoding an outline reports the first thing wrong in reading order, whether that is
the text's form or a value's meaning. A value in memory has an outline as well, without breaks,
so that one decoder serves both.
-/

namespace CustomerDedupe.Json

/-- Why a text is no document. -/
inductive SyntaxProblem where
  | endOfValue
  | endOfList
  | endOfObject
  | endOfString
  | colonExpected
  | listCommaExpected
  | objectCommaExpected
  | identExpected
  | valueExpected
  | invalidEscape
  | invalidNumber
  | numberOutOfRange
  | invalidCodePoint
  | controlCharacter
  | keyNotString
  | loneSurrogate
  | unfinishedEscape
  | trailingComma
  | trailingCharacters
  | tooDeep
  deriving DecidableEq, Repr

/-- The wording of a problem. -/
def SyntaxProblem.message : SyntaxProblem → String
  | .endOfValue => "EOF while parsing a value"
  | .endOfList => "EOF while parsing a list"
  | .endOfObject => "EOF while parsing an object"
  | .endOfString => "EOF while parsing a string"
  | .colonExpected => "expected `:`"
  | .listCommaExpected => "expected `,` or `]`"
  | .objectCommaExpected => "expected `,` or `\x7d`"
  | .identExpected => "expected ident"
  | .valueExpected => "expected value"
  | .invalidEscape => "invalid escape"
  | .invalidNumber => "invalid number"
  | .numberOutOfRange => "number out of range"
  | .invalidCodePoint => "invalid unicode code point"
  | .controlCharacter => "control character (\\u0000-\\u001F) found while parsing a string"
  | .keyNotString => "key must be a string"
  | .loneSurrogate => "lone leading surrogate in hex escape"
  | .unfinishedEscape => "unexpected end of hex escape"
  | .trailingComma => "trailing comma"
  | .trailingCharacters => "trailing characters"
  | .tooDeep => "recursion limit exceeded"

/-- A problem and the number of bytes before its place. -/
structure Fault where
  problem : SyntaxProblem
  place : Nat
  deriving DecidableEq, Repr

/-- Where reading stands after a value when the container is left at once: the place itself,
and the place that a complaint about the next byte names. -/
structure After where
  settled : Nat
  next : Nat
  deriving DecidableEq, Repr

/-- A name in an object, which may be refused although its extent is clear. -/
structure Name where
  text : Except Fault String
  settled : Nat

/-- How an array or object ends: after its closing bracket, or in a break. -/
inductive Ending where
  | closed (stop : Nat)
  | broken (fault : Fault)
  deriving Repr

/-- What an ending contributes: nothing, or its break. -/
def Ending.check : Ending → Except Fault Unit
  | .closed _ => .ok ()
  | .broken f => .error f

/-- A value as it was read. Numbers and strings may be refused although their extent is
clear. -/
inductive Outline where
  | null (start stop : Nat)
  | bool (start stop : Nat) (b : Bool)
  | num (start stop : Nat) (n : Except Fault Numeral)
  | str (start stop : Nat) (s : Except Fault String)
  | arr (start : Nat) (items : List (Outline × After)) (ending : Ending)
  | obj (start : Nat) (members : List (Name × Outline × Nat)) (ending : Ending)
  | broken (fault : Fault)

namespace Outline

instance : Inhabited Outline :=
  ⟨.null 0 0⟩

mutual

/-- The outline of a value in memory. -/
def ofJson : Json → Outline
  | .null => .null 0 0
  | .bool b => .bool 0 0 b
  | .num n => .num 0 0 (.ok n)
  | .str s => .str 0 0 (.ok s)
  | .arr items => .arr 0 (ofItems items) (.closed 0)
  | .obj members => .obj 0 (ofMembers members) (.closed 0)

/-- The outlines of the items of an array. -/
def ofItems : List Json → List (Outline × After)
  | [] => []
  | j :: rest => (ofJson j, ⟨0, 0⟩) :: ofItems rest

/-- The outlines of the members of an object. -/
def ofMembers : List (String × Json) → List (Name × Outline × Nat)
  | [] => []
  | (k, v) :: rest => (⟨.ok k, 0⟩, ofJson v, 0) :: ofMembers rest

end

mutual

/-- Passes over a value that nobody reads: only breaks count. -/
def pass : Outline → Except Fault Unit
  | .null _ _ | .bool _ _ _ | .num _ _ _ | .str _ _ _ => .ok ()
  | .arr _ items ending => do passItems items; ending.check
  | .obj _ members ending => do passMembers members; ending.check
  | .broken f => .error f

/-- Passes over the items of an array. -/
def passItems : List (Outline × After) → Except Fault Unit
  | [] => .ok ()
  | (o, _) :: rest => do pass o; passItems rest

/-- Passes over the members of an object. -/
def passMembers : List (Name × Outline × Nat) → Except Fault Unit
  | [] => .ok ()
  | (_, o, _) :: rest => do pass o; passMembers rest

end

mutual

/-- The value that an outline describes, if containers are nested less than `room` deep. -/
def toJson (room : Nat) : Outline → Except Fault Json
  | .null _ _ => .ok .null
  | .bool _ _ b => .ok (.bool b)
  | .num _ _ n => n.map .num
  | .str _ _ s => s.map .str
  | .arr start items ending =>
    if room ≤ 1 then .error ⟨.tooDeep, start + 1⟩
    else do
      let js ← toItems (room - 1) items
      ending.check
      pure (.arr js)
  | .obj start members ending =>
    if room ≤ 1 then .error ⟨.tooDeep, start + 1⟩
    else do
      let ms ← toMembers (room - 1) members
      ending.check
      pure (Json.ofMembers ms)
  | .broken f => .error f

/-- The values of the items of an array. -/
def toItems (room : Nat) : List (Outline × After) → Except Fault (List Json)
  | [] => .ok []
  | (o, _) :: rest => do
    let j ← toJson room o
    let js ← toItems room rest
    pure (j :: js)

/-- The members of an object in reading order. -/
def toMembers (room : Nat) : List (Name × Outline × Nat) → Except Fault (List (String × Json))
  | [] => .ok []
  | (name, o, _) :: rest => do
    let k ← name.text
    let v ← toJson room o
    let ms ← toMembers room rest
    pure ((k, v) :: ms)

end

/-- How many containers may stand inside one another. -/
def maxDepth : Nat :=
  128

end Outline

/-- A document: its outline, and what follows its value. -/
structure Document where
  root : Outline
  trailing : Option Fault

namespace Document

/-- The document that holds a value in memory. -/
def ofJson (j : Json) : Document :=
  ⟨.ofJson j, none⟩

/-- The end of a document after its value has been used. -/
def finish (d : Document) : Except Fault Unit :=
  match d.trailing with
  | none => .ok ()
  | some f => .error f

/-- The value of a document. -/
def toJson (d : Document) : Except Fault Json := do
  let j ← d.root.toJson Outline.maxDepth
  d.finish
  pure j

end Document

end CustomerDedupe.Json
