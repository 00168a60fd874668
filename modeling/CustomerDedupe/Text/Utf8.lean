/-!
# UTF-8

Bytes as text. `decodeParts` reads bytes one at a time and yields a character for every
well-formed sequence and a gap for every ill-formed stretch, which is as long as it can be
while still being the beginning of a well-formed sequence. Strict decoding refuses gaps and
lenient decoding writes the replacement character for each.
-/

namespace CustomerDedupe.Text.Utf8

/-- A sequence that has begun: how many bytes are missing, the bounds of the next one, and the
bits collected so far. -/
structure Begun where
  missing : Nat
  low : Nat
  high : Nat
  value : Nat
  deriving Repr, DecidableEq

/-- What the first byte of a sequence says. -/
inductive Opening where
  | whole (c : Char)
  | begun (b : Begun)
  | invalid
  deriving Repr

/-- Classifies a first byte. The bounds of the second byte exclude overlong forms, surrogates
and numbers above the last code point. -/
def opening (byte : UInt8) : Opening :=
  let n := byte.toNat
  if n < 0x80 then .whole (Char.ofNat n)
  else if n < 0xC2 then .invalid
  else if n < 0xE0 then .begun ⟨1, 0x80, 0xBF, n - 0xC0⟩
  else if n < 0xF0 then
    .begun ⟨2, if n = 0xE0 then 0xA0 else 0x80, if n = 0xED then 0x9F else 0xBF, n - 0xE0⟩
  else if n < 0xF5 then
    .begun ⟨3, if n = 0xF0 then 0x90 else 0x80, if n = 0xF4 then 0x8F else 0xBF, n - 0xF0⟩
  else .invalid

/-- Takes a further byte into a sequence: the finished character or the longer sequence, and
nothing if the byte does not belong to it. -/
def Begun.extend (b : Begun) (byte : UInt8) : Option (Char ⊕ Begun) :=
  let n := byte.toNat
  if b.low ≤ n && n ≤ b.high then
    let value := b.value * 64 + (n - 0x80)
    if b.missing ≤ 1 then some (.inl (Char.ofNat value))
    else some (.inr ⟨b.missing - 1, 0x80, 0xBF, value⟩)
  else none

/-- Reads a byte where no sequence is open. -/
def stepFresh (byte : UInt8) : List (Option Char) × Option Begun :=
  match opening byte with
  | .whole c => ([some c], none)
  | .begun b => ([], some b)
  | .invalid => ([none], none)

/-- Reads a byte: what it completes, and the sequence that is then open. A byte that does not
continue the open sequence ends it as a gap and is read afresh. -/
def step (begun : Option Begun) (byte : UInt8) : List (Option Char) × Option Begun :=
  match begun with
  | none => stepFresh byte
  | some b =>
    match b.extend byte with
    | some (.inl c) => ([some c], none)
    | some (.inr longer) => ([], some longer)
    | none => (none :: (stepFresh byte).1, (stepFresh byte).2)

/-- Decodes bytes after the open sequence, if there is one: `some c` for a character and
`none` for an ill-formed stretch. -/
def decodeFrom : Option Begun → List UInt8 → List (Option Char)
  | none, [] => []
  | some _, [] => [none]
  | begun, byte :: rest =>
    let (out, open') := step begun byte
    out ++ decodeFrom open' rest

/-- The characters and gaps of a byte sequence. -/
def decodeParts (bytes : List UInt8) : List (Option Char) :=
  decodeFrom none bytes

/-- Decodes well-formed UTF-8 and refuses anything else. -/
def decode? (bytes : List UInt8) : Option (List Char) :=
  (decodeParts bytes).mapM id

/-- Decodes any bytes, with the replacement character in place of each ill-formed stretch. -/
def decodeLenient (bytes : List UInt8) : List Char :=
  (decodeParts bytes).map fun part => part.getD '\uFFFD'

/-- The UTF-8 form of a text. -/
def encode (s : String) : List UInt8 :=
  s.toUTF8.toList

end CustomerDedupe.Text.Utf8
