import CustomerDedupe.Text.Numeral
import CustomerDedupe.Text.Utf8

/-!
# Percent encoding

Characters that an address cannot hold are written as their bytes in UTF-8, each a percent sign
and two hexadecimal digits. The sets say which characters are written so in which part of an
address; the form encoding of queries has a set of its own and writes a space as a plus sign.
-/

namespace CustomerDedupe.Url

/-- A byte as a percent sign and two digits. -/
def percentByte (b : UInt8) : List Char :=
  ['%', Text.upperHexDigit (b.toNat / 16), Text.upperHexDigit (b.toNat % 16)]

/-- The bytes of a character in UTF-8. -/
def charBytes (c : Char) : List UInt8 :=
  Text.Utf8.encode (String.ofList [c])

/-- Writes the characters of a set in percent encoding and the others as they are. -/
def percentEncode (set : Char → Bool) (s : List Char) : List Char :=
  s.flatMap fun c => if set c then (charBytes c).flatMap percentByte else [c]

/-- Controls and all characters beyond ASCII. -/
def controlSet (c : Char) : Bool :=
  c.toNat < 0x20 || 0x7E < c.toNat

/-- What a fragment cannot hold. -/
def fragmentSet (c : Char) : Bool :=
  controlSet c || [' ', '"', '<', '>', '`'].contains c

/-- What a query cannot hold. -/
def querySet (c : Char) : Bool :=
  controlSet c || [' ', '"', '#', '<', '>'].contains c

/-- What a query of a web address cannot hold. -/
def webQuerySet (c : Char) : Bool :=
  querySet c || c == '\''

/-- What a path cannot hold. -/
def pathSet (c : Char) : Bool :=
  fragmentSet c || ['#', '?', '^', '\x7b', '\x7d'].contains c

/-- What user information cannot hold. -/
def userSet (c : Char) : Bool :=
  pathSet c || ['/', ':', ';', '=', '@', '[', '\\', ']', '|'].contains c

/-- Undoes percent encoding as far as it is well-formed. -/
def percentDecode : List UInt8 → List UInt8
  | [] => []
  | b :: rest =>
    if b == 0x25 then
      match rest with
      | x :: y :: more =>
        match Text.hexValue? (Char.ofNat x.toNat), Text.hexValue? (Char.ofNat y.toNat) with
        | some h, some l => UInt8.ofNat (h * 16 + l) :: percentDecode more
        | _, _ => b :: percentDecode (x :: y :: more)
      | short => b :: short
    else b :: percentDecode rest

/-- Whether a byte stands for itself in a form. -/
def isFormByte (b : UInt8) : Bool :=
  let c := Char.ofNat b.toNat
  b < 0x80 && (c.isAlphanum || ['*', '-', '.', '_'].contains c)

/-- A text in the form encoding. -/
def formEncode (s : String) : List Char :=
  (Text.Utf8.encode s).flatMap fun b =>
    if isFormByte b then [Char.ofNat b.toNat]
    else if b == 0x20 then ['+']
    else percentByte b

/-- Names and values in the form encoding. -/
def formPairs (pairs : List (String × String)) : List Char :=
  List.intercalate ['&'] (pairs.map fun p => formEncode p.1 ++ '=' :: formEncode p.2)

end CustomerDedupe.Url
