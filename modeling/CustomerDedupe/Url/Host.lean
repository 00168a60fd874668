import CustomerDedupe.Number.Total
import CustomerDedupe.Text.Quoted
import CustomerDedupe.Text.Split
import CustomerDedupe.Url.Percent
import CustomerDedupe.Url.Punycode

/-!
# Hosts of addresses

The host of an address: a domain name, written in ASCII and in lower case, a number of the old
or new Internet protocol in its canonical spelling, or, in addresses outside the web, any name.
Each text is read as at most one host, or refused with the reason.
-/

namespace CustomerDedupe.Url

/-- Why a text is no address. -/
inductive Problem where
  | emptyHost
  | domain
  | port
  | ipv4
  | ipv6
  | hostCharacter
  | relative
  deriving DecidableEq, Repr

/-- The wording of a problem. -/
def Problem.message : Problem → String
  | .emptyHost => "empty host"
  | .domain => "invalid international domain name"
  | .port => "invalid port number"
  | .ipv4 => "invalid IPv4 address"
  | .ipv6 => "invalid IPv6 address"
  | .hostCharacter => "invalid domain character"
  | .relative => "relative URL without a base"

/-- A host. -/
inductive Host where
  | domain (name : List Char)
  | ipv4 (n : Nat)
  | ipv6 (pieces : List Nat)
  | name (s : List Char)
  deriving DecidableEq, Repr

/-- Characters that no domain name may hold. -/
def isForbidden (c : Char) : Bool :=
  c.toNat ≤ 0x20 || c.toNat == 0x7F ||
    ['%', '#', '/', ':', '<', '>', '?', '@', '[', '\\', ']', '^', '|'].contains c

/-- Characters that a domain name passes over. -/
def isIgnored (c : Char) : Bool :=
  let n := c.toNat
  n == 0xAD || n == 0x34F || (0x180B ≤ n && n ≤ 0x180D) || n == 0x180F || n == 0x200B ||
    n == 0x2060 || n == 0x2064 || (0xFE00 ≤ n && n ≤ 0xFE0F) || n == 0xFEFF ||
    (0xE0100 ≤ n && n ≤ 0xE01EF)

/-- The form in which a character of a domain name counts: full-width forms are narrowed,
letters are lowered and full stops are dots. Nothing for a character that it may not hold. -/
def mappedChar? (c : Char) : Option (List Char) :=
  let n := c.toNat
  if isIgnored c then some []
  else if n == 0x3002 || n == 0xFF0E || n == 0xFF61 then some ['.']
  else
    let narrow := if 0xFF01 ≤ n ∧ n ≤ 0xFF5E then Char.ofNat (n - 0xFEE0) else c
    if isForbidden narrow || n == 0xFFFD then none
    else if 0x80 ≤ narrow.toNat ∧ Text.inRanges Text.hiddenRanges narrow.toNat then none
    else some (Text.lowerChar narrow)

/-- Whether a character attaches to the one before it. -/
def isAttached (c : Char) : Bool :=
  Text.inRanges Text.attachedRanges c.toNat

/-- Whether all characters of a label count as they are and the first stands by itself. -/
def isCanonical (label : List Char) : Bool :=
  label.all (fun c => mappedChar? c == some [c]) && !(label.head?.map isAttached).getD true

/-- A label in ASCII. Labels that are marked as ASCII have to be so. -/
def asciiLabel? (label : List Char) : Option (List Char) :=
  if label.take 4 = ['x', 'n', '-', '-'] ∧ label.all (fun c => c.toNat < 0x80) then
    match Punycode.decode? (label.drop 4) with
    | none => none
    | some decoded =>
      if isCanonical decoded ∧ decoded.any (fun c => 0x80 ≤ c.toNat) ∧
          Punycode.encode decoded = label.drop 4 then
        some label
      else none
  else if label.all fun c => c.toNat < 0x80 then some label
  else if isCanonical label then some (['x', 'n', '-', '-'] ++ Punycode.encode label)
  else none

/-- A domain name in ASCII. -/
def asciiDomain? (s : List Char) : Option (List Char) := do
  let mapped ← s.mapM mappedChar?
  let labels ← (Text.splitAt '.' mapped.flatten).mapM asciiLabel?
  pure (List.intercalate ['.'] labels)

/-- How domain names are written in ASCII: nothing for a text that is none. -/
class DomainNames where
  toAscii? : List Char → Option (List Char)

/-- Names are written character by character. Composed characters, compatibility forms other than
full width, joiners and the direction of writing are not looked at. -/
instance : DomainNames where
  toAscii? := asciiDomain?

/-- The part of a number of the old protocol: nothing if it is no number, and `some none` if it
is too large. A leading zero makes it octal and `0x` hexadecimal. -/
def ipv4Number? (s : List Char) : Option (Option Nat) :=
  let (base, ds) : Nat × List Char :=
    match s with
    | '0' :: 'x' :: rest | '0' :: 'X' :: rest => (16, rest)
    | '0' :: c :: rest => (8, c :: rest)
    | _ => (10, s)
  if s.isEmpty then none
  else
    match ds.mapM Text.hexValue? with
    | none => none
    | some values =>
      if values.all fun v => v < base then
        let n := values.foldl (fun acc v => acc * base + v) 0
        some (if n < Nat.pow 2 32 then some n else none)
      else none

/-- Whether a domain name ends in a number, so that it has to be one of the old protocol. -/
def endsInNumber (s : List Char) : Bool :=
  let check (last : List Char) : Bool :=
    (!last.isEmpty && last.all Char.isDigit) || (ipv4Number? last).isSome
  match (Text.splitAt '.' s).reverse with
  | [] => false
  | [] :: [] => false
  | [] :: last :: _ => check last
  | last :: _ => check last

/-- The number of the first parts and the last of an old address. -/
def ipv4Join (front : List Nat) (last : Nat) : Nat :=
  let place (i n : Nat) : Nat := n * Nat.pow 256 (3 - i)
  Number.total (front.zipIdx.map fun p => place p.2 p.1) + last

/-- The number of the old protocol that the parts of a name stand for: the last part fills what
the others leave. -/
def ipv4? (s : List Char) : Option Nat := do
  let parts := Text.splitAt '.' s
  let parts := if parts.getLast? = some [] then parts.dropLast else parts
  if 4 < parts.length then none
  else
    let numbers ← parts.mapM ipv4Number?
    let numbers ← numbers.mapM id
    let last ← numbers.getLast?
    let front := numbers.dropLast
    if front.any (fun n => 255 < n) ∨ Nat.pow 256 (4 - front.length) ≤ last then none
    else some (ipv4Join front last)

/-- Reads a piece of a new address: at most four hexadecimal digits. -/
def ipv6Piece? (s : List Char) : Option Nat := do
  if s.isEmpty ∨ 4 < s.length then none
  else
    let values ← s.mapM Text.hexValue?
    some (values.foldl (fun acc v => acc * 16 + v) 0)

/-- Reads an old address in strict decimal spelling as two pieces of a new one. -/
def ipv4Pieces? (s : List Char) : Option (List Nat) :=
  let part? (p : List Char) : Option Nat := do
    let n ← Text.readNat? p
    if 255 < n ∨ (p.head? = some '0' ∧ 1 < p.length) then none else some n
  match (Text.splitAt '.' s).mapM part? with
  | some [a, b, c, d] => some [a * 256 + b, c * 256 + d]
  | _ => none

/-- Reads pieces of a new address, of which the last may be an old address. -/
def ipv6Pieces? : List (List Char) → Option (List Nat)
  | [] => some []
  | [p] => if p.contains '.' then ipv4Pieces? p else (ipv6Piece? p).map fun n => [n]
  | p :: more => do
    let n ← ipv6Piece? p
    let ns ← ipv6Pieces? more
    some (n :: ns)

/-- Cuts a text at the first two colons in a row. -/
def splitDoubleColon : List Char → Option (List Char × List Char)
  | ':' :: ':' :: rest => some ([], rest)
  | c :: rest => (splitDoubleColon rest).map fun (a, b) => (c :: a, b)
  | [] => none

/-- The pieces between single colons. -/
def ipv6Parts (s : List Char) : List (List Char) :=
  if s.isEmpty then [] else Text.splitAt ':' s

/-- Reads a new address: eight pieces, or fewer with a gap that stands for zeros. -/
def ipv6? (s : List Char) : Option (List Nat) := do
  match splitDoubleColon s with
  | none =>
    let pieces ← ipv6Pieces? (ipv6Parts s)
    if pieces.length = 8 then some pieces else none
  | some (a, b) =>
    if a.contains '.' then none
    else
      let left ← ipv6Pieces? (ipv6Parts a)
      let right ← ipv6Pieces? (ipv6Parts b)
      let known := left.length + right.length
      if known < 8 then some (left ++ List.replicate (8 - known) 0 ++ right) else none

/-- The length of the run of zeros in front. -/
def zeroRun (pieces : List Nat) : Nat :=
  (pieces.takeWhile (· == 0)).length

/-- The first of the longest runs of at least two zeros: where it begins, and its length. -/
def longestZeroRun (pieces : List Nat) : Option (Nat × Nat) :=
  let runs := (List.range pieces.length).map fun i => (i, zeroRun (pieces.drop i))
  runs.foldl (fun best r =>
    if r.2 < 2 then best
    else match best with
      | none => some r
      | some b => if b.2 < r.2 then some r else best) none

/-- Pieces between colons. -/
def pieceText (pieces : List Nat) : List Char :=
  List.intercalate [':'] (pieces.map fun n => Nat.toDigits 16 n)

/-- The text of a host. -/
def Host.chars : Host → List Char
  | .domain s | .name s => s
  | .ipv4 n =>
    List.intercalate ['.']
      ([n / 16777216, n / 65536 % 256, n / 256 % 256, n % 256].map Text.writeNat)
  | .ipv6 pieces =>
    let inner :=
      match longestZeroRun pieces with
      | none => pieceText pieces
      | some (i, n) =>
        pieceText (pieces.take i) ++ [':', ':'] ++ pieceText (pieces.drop (i + n))
    '[' :: inner ++ [']']

/-- Whether a character may stand in the host that a request names. -/
def isUriChar (c : Char) : Bool :=
  c.isAlphanum ||
    ['!', '$', '&', '\'', '(', ')', '*', '+', ',', '-', '.', ':', ';', '=', '[', ']', '_',
      '~'].contains c

/-- Whether a request may name a host. -/
def Host.isUri (h : Host) : Bool :=
  h.chars.all isUriChar

/-- Reads what stands in brackets, if a text begins with one. -/
def bracketed? (s : List Char) : Option (Except Problem Host) :=
  match s with
  | '[' :: rest =>
    some (
      if rest.getLast? = some ']' then
        match ipv6? rest.dropLast with
        | some pieces => .ok (.ipv6 pieces)
        | none => .error .ipv6
      else .error .ipv6)
  | _ => none

/-- Reads the host of a web address. -/
def Host.readWeb [DomainNames] (s : List Char) : Except Problem Host :=
  match bracketed? s with
  | some r => r
  | none =>
    match Text.Utf8.decode? (percentDecode (Text.Utf8.encode (String.ofList s))) with
    | none => .error .domain
    | some decoded =>
      match DomainNames.toAscii? decoded with
      | none => .error .domain
      | some [] => .error .emptyHost
      | some ascii =>
        if endsInNumber ascii then
          match ipv4? ascii with
          | some n => .ok (.ipv4 n)
          | none => .error .ipv4
        else .ok (.domain ascii)

/-- Reads the host of another address. -/
def Host.readName (s : List Char) : Except Problem Host :=
  match bracketed? s with
  | some r => r
  | none =>
    let bad (c : Char) : Bool :=
      c.toNat == 0 || [' ', '#', '/', ':', '<', '>', '?', '@', '[', '\\', ']', '^', '|'].contains c
    if s.any bad then .error .hostCharacter else .ok (.name (percentEncode controlSet s))

end CustomerDedupe.Url
