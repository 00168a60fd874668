import CustomerDedupe.Json.Outline

/-!
# Reading documents

The reader of the outline of a document from bytes. Integers are exact as far as 64 bits reach
and are binary numbers beyond; the digits of other numbers are collected into 64 bits, scaled
by a power of ten and rounded on the way. `Document.read` describes any sequence of bytes.
-/

namespace CustomerDedupe.Json

/-- A place in a text: the number of bytes before it and the bytes from it on. -/
structure Cursor where
  index : Nat
  rest : List UInt8

/-- The byte of an ASCII character. -/
def byteOf (c : Char) : UInt8 :=
  UInt8.ofNat c.toNat

/-- Whether a byte is white space between the parts of a document. -/
def isGap (b : UInt8) : Bool :=
  b == 0x20 || b == 0x0A || b == 0x09 || b == 0x0D

/-- Whether a byte is a decimal digit. -/
def isDigitByte (b : UInt8) : Bool :=
  0x30 ≤ b && b ≤ 0x39

namespace Cursor

/-- Goes on by some bytes. -/
def advance (c : Cursor) (n : Nat) : Cursor :=
  ⟨c.index + n, c.rest.drop n⟩

/-- Goes on to the next byte that is no white space. -/
def skipGaps (c : Cursor) : Cursor :=
  c.advance (c.rest.takeWhile isGap).length

/-- The place that a complaint about the next byte names: after it, if there is one. -/
def peekPlace (c : Cursor) : Nat :=
  if c.rest.isEmpty then c.index else c.index + 1

/-- Whether the next byte is a given character. -/
def atChar (c : Cursor) (ch : Char) : Bool :=
  c.rest.head? == some (byteOf ch)

/-- Takes the decimal digits in front. -/
def digits (c : Cursor) : List Nat × Cursor :=
  let ds := c.rest.takeWhile isDigitByte
  (ds.map fun b => b.toNat - 0x30, c.advance ds.length)

/-- Where reading stands if an array is left after an item. -/
def afterItem (c : Cursor) : After :=
  let s := c.skipGaps
  let t :=
    if s.atChar ']' then s.advance 1
    else if s.atChar ',' then (s.advance 1).skipGaps
    else s
  ⟨t.index, t.peekPlace⟩

/-- Where reading stands if an object is left after a name or value. -/
def afterMember (c : Cursor) : Nat :=
  let s := c.skipGaps
  if s.atChar '\x7d' then s.index + 1 else s.index

end Cursor

/-- Reads the characters of a word. -/
def readWord : List Char → Cursor → Except Fault Cursor
  | [], c => .ok c
  | ch :: word, c =>
    match c.rest with
    | [] => .error ⟨.endOfValue, c.index⟩
    | b :: rest =>
      if b = byteOf ch then readWord word ⟨c.index + 1, rest⟩
      else .error ⟨.identExpected, c.index + 1⟩

/-- Collects digits into 64 bits. The digits that do not fit are left over. -/
def collect (significand : Nat) : List Nat → Nat × List Nat
  | [] => (significand, [])
  | d :: ds =>
    if significand * 10 + d < Nat.pow 2 64 then collect (significand * 10 + d) ds
    else (significand, d :: ds)

/-- An exponent that fits into 32 bits, or the number of its digits that are needed to see
that it does not. -/
def readExponent (soFar count : Nat) : List Nat → Except Nat Nat
  | [] => .ok soFar
  | d :: ds =>
    if soFar * 10 + d < Nat.pow 2 31 then readExponent (soFar * 10 + d) (count + 1) ds
    else .error (count + 1)

/-- A number's parts as they were read: its sign, its digits before and after the point, and
the sign, digits and place of its exponent. -/
structure NumberParts where
  negative : Bool
  whole : List Nat
  fraction : List Nat
  exponent : Option (Bool × List Nat × Nat)

/-- The number that its parts describe; `stop` is the place after it. -/
def NumberParts.value (p : NumberParts) (stop : Nat) : Except Fault Numeral :=
  let (significand, excess) := collect 0 p.whole
  let real (s : Nat) (e : Int) : Except Fault Numeral :=
    match Number.Binary64.scaled s e with
    | some x => .ok (.real ⟨p.negative, x⟩)
    | none => .error ⟨.numberOutOfRange, stop⟩
  if p.fraction.isEmpty && p.exponent.isNone then
    if !excess.isEmpty then real significand excess.length
    else if !p.negative then .ok (.int significand)
    else if significand = 0 ∨ Nat.pow 2 63 < significand then real significand 0
    else .ok (.int (-(significand : Int)))
  else
    let (full, unused) := collect significand p.fraction
    let scale : Int := (excess.length : Int) - ((p.fraction.length - unused.length : Nat) : Int)
    match p.exponent with
    | none => real full scale
    | some (downward, ds, place) =>
      match readExponent 0 0 ds with
      | .ok e => real full (if downward then scale - e else scale + e)
      | .error count =>
        if full ≠ 0 ∧ !downward then .error ⟨.numberOutOfRange, place + count⟩
        else .ok (.real ⟨p.negative, 0⟩)

/-- Reads the exponent of a number after its mark. -/
def readExponentPart (c : Cursor) : Except Fault ((Bool × List Nat × Nat) × Cursor) :=
  let downward := c.atChar '-'
  let c := if downward || c.atChar '+' then c.advance 1 else c
  match c.rest with
  | [] => .error ⟨.endOfValue, c.index⟩
  | b :: _ =>
    if isDigitByte b then
      let (ds, c') := c.digits
      .ok ((downward, ds, c.index), c')
    else .error ⟨.invalidNumber, c.index + 1⟩

/-- Reads a number after its sign. -/
def readNumber (negative : Bool) (c : Cursor) : Except Fault (NumberParts × Cursor) := do
  match c.rest with
  | [] => throw ⟨.endOfValue, c.index⟩
  | b :: _ => if !isDigitByte b then throw ⟨.invalidNumber, c.index + 1⟩
  let (whole, c) ←
    if c.atChar '0' then
      let c := c.advance 1
      if (c.rest.head?.map isDigitByte).getD false then throw ⟨.invalidNumber, c.index + 1⟩
      pure ([0], c)
    else pure c.digits
  let (fraction, c) ←
    if c.atChar '.' then
      let (ds, c) := (c.advance 1).digits
      if ds.isEmpty then
        throw ⟨if c.rest.isEmpty then .endOfValue else .invalidNumber, c.peekPlace⟩
      pure (ds, c)
    else pure ([], c)
  if c.atChar 'e' || c.atChar 'E' then
    let (e, c) ← readExponentPart (c.advance 1)
    pure (⟨negative, whole, fraction, some e⟩, c)
  else pure (⟨negative, whole, fraction, none⟩, c)

/-- The number of four hexadecimal digits. -/
def hexUnit? (a b c d : UInt8) : Option Nat := do
  let digit (x : UInt8) : Option Nat := Text.hexValue? (Char.ofNat x.toNat)
  pure (((← digit a) * 16 + (← digit b)) * 256 + (← digit c) * 16 + (← digit d))

/-- The character that a letter after a backslash stands for. -/
def simpleEscape? (b : UInt8) : Option UInt8 :=
  if b = byteOf '"' ∨ b = byteOf '\\' ∨ b = byteOf '/' then some b
  else if b = byteOf 'b' then some 8
  else if b = byteOf 'f' then some 12
  else if b = byteOf 'n' then some 10
  else if b = byteOf 'r' then some 13
  else if b = byteOf 't' then some 9
  else none

/-- A string while it is read: its bytes from the last to the first, the first reason to
refuse it, and the first half of a character given in two halves. -/
structure StringProgress where
  bytes : List UInt8
  refusal : Option Fault
  lead : Option Nat

namespace StringProgress

/-- Notes a reason to refuse the string, unless there is one already. -/
def refuse (p : StringProgress) (problem : SyntaxProblem) (place : Nat) : StringProgress :=
  { p with refusal := p.refusal.or (some ⟨problem, place⟩), lead := none }

/-- Adds a byte. -/
def push (p : StringProgress) (b : UInt8) : StringProgress :=
  { p with bytes := b :: p.bytes }

/-- Adds a character. -/
def pushChar (p : StringProgress) (n : Nat) : StringProgress :=
  { p with bytes := (Text.Utf8.encode (String.ofList [Char.ofNat n])).reverse ++ p.bytes
           lead := none }

/-- Takes a number given by four digits that end at a place. -/
def takeUnit (p : StringProgress) (n place : Nat) : StringProgress :=
  match p.lead with
  | some first =>
    if 0xDC00 ≤ n ∧ n ≤ 0xDFFF then
      p.pushChar (0x10000 + (first - 0xD800) * 0x400 + (n - 0xDC00))
    else p.refuse .loneSurrogate place
  | none =>
    if 0xDC00 ≤ n ∧ n ≤ 0xDFFF then p.refuse .loneSurrogate place
    else if 0xD800 ≤ n ∧ n ≤ 0xDBFF then { p with lead := some n }
    else p.pushChar n

/-- Gives up a first half that is not followed by a second one. -/
def dropLead (p : StringProgress) (place : Nat) : StringProgress :=
  if p.lead.isSome then p.refuse .unfinishedEscape place else p

/-- The string that ends at a place. -/
def finish (p : StringProgress) (place : Nat) : Except Fault String :=
  match p.refusal with
  | some f => .error f
  | none =>
    match Text.Utf8.decode? p.bytes.reverse with
    | some cs => .ok (String.ofList cs)
    | none => .error ⟨.invalidCodePoint, place⟩

end StringProgress

/-- The first thing wrong with a string in which reading cannot go on. -/
def StringProgress.halt (p : StringProgress) (problem : SyntaxProblem) (place : Nat) : Fault :=
  p.refusal.getD ⟨problem, place⟩

/-- Reads a string after its opening quote. -/
def readString (p : StringProgress) (index : Nat) :
    List UInt8 → Except Fault (Except Fault String × Cursor)
  | [] => .error (p.halt .endOfString index)
  | b :: rest =>
    if b = byteOf '\\' then
      match rest with
      | [] => .error (p.halt .endOfString (index + 1))
      | e :: rest =>
        if e = byteOf 'u' then
          match rest with
          | a :: b :: c :: d :: rest =>
            match hexUnit? a b c d with
            | some n => readString (p.takeUnit n (index + 6)) (index + 6) rest
            | none => .error (p.halt .invalidEscape (index + 6))
          | short => .error (p.halt .endOfString (index + 2 + short.length))
        else
          let p := p.dropLead (index + 2)
          match simpleEscape? e with
          | some x => readString (p.push x) (index + 2) rest
          | none => .error (p.halt .invalidEscape (index + 2))
    else
      let p := p.dropLead (index + 1)
      if b = byteOf '"' then .ok (p.finish (index + 1), ⟨index + 1, rest⟩)
      else if b < 0x20 then .error (p.halt .controlCharacter (index + 1))
      else readString (p.push b) (index + 1) rest

/-- The string at a cursor that stands at its opening quote. -/
def stringAt (c : Cursor) : Except Fault (Except Fault String × Cursor) :=
  readString ⟨[], none, none⟩ (c.index + 1) (c.rest.drop 1)

/-- Ends a scalar's outline where a cursor stands. -/
def scalar (make : Nat → Outline) (r : Except Fault Cursor) : Outline × Except Fault Cursor :=
  match r with
  | .ok c => (make c.index, .ok c)
  | .error f => (.broken f, .error f)

/-- Reads the value of a number after its sign, which begins at `start`. -/
def numberAt (start : Nat) (negative : Bool) (c : Cursor) : Outline × Except Fault Cursor :=
  match readNumber negative c with
  | .ok (parts, c) => (.num start c.index (parts.value c.index), .ok c)
  | .error f => (.broken f, .error f)

/-- Ends a list of parts, which `fault` breaks. -/
def breakOff {α : Type} (fault : Fault) : List α × Ending × Except Fault Cursor :=
  ([], .broken fault, .error fault)

mutual

/-- Reads a value. -/
def readValue : Nat → Cursor → Outline × Except Fault Cursor
  | 0, c => (.broken ⟨.tooDeep, c.index⟩, .error ⟨.tooDeep, c.index⟩)
  | fuel + 1, c =>
    let c := c.skipGaps
    let start := c.index
    match c.rest with
    | [] => (.broken ⟨.endOfValue, start⟩, .error ⟨.endOfValue, start⟩)
    | b :: _ =>
      let inner := c.advance 1
      if b = byteOf 'n' then scalar (.null start) (readWord ['u', 'l', 'l'] inner)
      else if b = byteOf 't' then
        scalar (fun stop => .bool start stop true) (readWord ['r', 'u', 'e'] inner)
      else if b = byteOf 'f' then
        scalar (fun stop => .bool start stop false) (readWord ['a', 'l', 's', 'e'] inner)
      else if b = byteOf '-' then numberAt start true inner
      else if isDigitByte b then numberAt start false c
      else if b = byteOf '"' then
        match stringAt c with
        | .ok (s, c) => (.str start c.index s, .ok c)
        | .error f => (.broken f, .error f)
      else if b = byteOf '[' then
        let (items, ending, after) := readItems fuel true inner
        (.arr start items ending, after)
      else if b = byteOf '\x7b' then
        let (members, ending, after) := readMembers fuel true inner
        (.obj start members ending, after)
      else (.broken ⟨.valueExpected, start + 1⟩, .error ⟨.valueExpected, start + 1⟩)

/-- Reads the items of an array and its closing bracket. -/
def readItems : Nat → Bool → Cursor → List (Outline × After) × Ending × Except Fault Cursor
  | 0, _, c => breakOff ⟨.tooDeep, c.index⟩
  | fuel + 1, first, c =>
    let c := c.skipGaps
    if c.rest.isEmpty then breakOff ⟨.endOfList, c.index⟩
    else if c.atChar ']' then ([], .closed (c.index + 1), .ok (c.advance 1))
    else if !first && !c.atChar ',' then breakOff ⟨.listCommaExpected, c.index + 1⟩
    else
      let c := if first then c else (c.advance 1).skipGaps
      if c.rest.isEmpty then breakOff ⟨.endOfValue, c.index⟩
      else if !first && c.atChar ']' then breakOff ⟨.trailingComma, c.index + 1⟩
      else
        match readValue fuel c with
        | (o, .error f) => ([(o, ⟨c.index, c.index⟩)], .broken f, .error f)
        | (o, .ok c) =>
          let (items, ending, after) := readItems fuel false c
          ((o, c.afterItem) :: items, ending, after)

/-- Reads the members of an object and its closing brace. -/
def readMembers :
    Nat → Bool → Cursor → List (Name × Outline × Nat) × Ending × Except Fault Cursor
  | 0, _, c => breakOff ⟨.tooDeep, c.index⟩
  | fuel + 1, first, c =>
    let c := c.skipGaps
    if c.rest.isEmpty then breakOff ⟨.endOfObject, c.index⟩
    else if c.atChar '\x7d' then ([], .closed (c.index + 1), .ok (c.advance 1))
    else if !first && !c.atChar ',' then breakOff ⟨.objectCommaExpected, c.index + 1⟩
    else
      let c := if first then c else (c.advance 1).skipGaps
      if c.rest.isEmpty then breakOff ⟨.endOfValue, c.index⟩
      else if !first && c.atChar '\x7d' then breakOff ⟨.trailingComma, c.index + 1⟩
      else if !c.atChar '"' then breakOff ⟨.keyNotString, c.index + 1⟩
      else
        match stringAt c with
        | .error f => breakOff f
        | .ok (key, c) =>
          let name : Name := ⟨key, c.afterMember⟩
          let c := c.skipGaps
          if c.rest.isEmpty then
            ([(name, .broken ⟨.endOfObject, c.index⟩, c.index)],
              .broken ⟨.endOfObject, c.index⟩, .error ⟨.endOfObject, c.index⟩)
          else if !c.atChar ':' then
            ([(name, .broken ⟨.colonExpected, c.index + 1⟩, c.index)],
              .broken ⟨.colonExpected, c.index + 1⟩, .error ⟨.colonExpected, c.index + 1⟩)
          else
            match readValue fuel (c.advance 1) with
            | (o, .error f) => ([(name, o, c.index)], .broken f, .error f)
            | (o, .ok c) =>
              let (members, ending, after) := readMembers fuel false c
              ((name, o, c.afterMember) :: members, ending, after)

end

/-- The document that a sequence of bytes is, or the beginning of one. -/
def Document.read (bytes : List UInt8) : Document :=
  match readValue (2 * bytes.length + 2) ⟨0, bytes⟩ with
  | (root, .error _) => ⟨root, none⟩
  | (root, .ok c) =>
    let c := c.skipGaps
    ⟨root, if c.rest.isEmpty then none else some ⟨.trailingCharacters, c.index + 1⟩⟩

/-- The line and column that the bytes before a place lead to. -/
def lineAndColumn (bytes : List UInt8) (place : Nat) : Nat × Nat :=
  let before := bytes.take place
  let lines := (before.filter (· == 0x0A)).length
  let column := (before.reverse.takeWhile (· != 0x0A)).length
  (lines + 1, column)

end CustomerDedupe.Json
