import CustomerDedupe.Rest.Client

/-!
# Messages on the wire

A message as the bytes of an HTTP/1.1 request, and the delivery that the bytes of a response
mean. The server is asked to close the connection after its answer, so that all bytes are there
when they are read.
-/

namespace CustomerDedupe.Rest.Wire

/-- The end of a line. -/
def lineEnd : String :=
  "\r\n"

/-- A header. -/
def header (name value : String) : String :=
  name ++ ": " ++ value ++ lineEnd

/-- The host of an address with its port unless that is the usual one. -/
def hostText (u : Url) : String :=
  let host := (u.host.map Url.Host.chars).getD []
  let port := match u.port with
    | some n => ':' :: Text.writeNat n
    | none => []
  String.ofList (host ++ port)

/-- The bytes of a message. -/
def request (m : Message) : List UInt8 :=
  let body := match m.body with
    | some j => Text.Utf8.encode j.text
    | none => []
  let optional (name : String) : Option String → String
    | some value => header name value
    | none => ""
  Text.Utf8.encode
    (m.method ++ " " ++ m.url.target ++ " HTTP/1.1" ++ lineEnd ++
      header "host" (hostText m.url) ++
      header "accept" "*/*" ++
      header "apikey" m.apiKey ++
      header "authorization" m.authorization ++
      optional "prefer" m.prefer ++
      optional "content-type" m.contentType ++
      (if m.body.isSome then header "content-length" (Text.showNat body.length) else "") ++
      header "connection" "close" ++
      lineEnd) ++ body

/-- The bytes of the end of a line. -/
def lineEndBytes : List UInt8 :=
  [13, 10]

/-- The bytes before and after the end of the first line. -/
def cutLine? : List UInt8 → Option (List UInt8 × List UInt8)
  | [] => none
  | b :: rest =>
    if lineEndBytes.isPrefixOf (b :: rest) then some ([], rest.drop 1)
    else (cutLine? rest).map fun (line, after) => (b :: line, after)

/-- The lines of a head up to an empty one, and what follows it, after at most `fuel` lines. -/
def head? : Nat → List UInt8 → Option (List (List Char) × List UInt8)
  | 0, _ => none
  | fuel + 1, bytes => do
    let (line, after) ← cutLine? bytes
    if line.isEmpty then some ([], after)
    else
      let (lines, body) ← head? fuel after
      some (Text.Utf8.decodeLenient line :: lines, body)

/-- The value of a header, in whose name case does not matter. -/
def value? (name : String) (lines : List (List Char)) : Option (List Char) :=
  lines.findSome? fun line =>
    let start := line.takeWhile (· != ':')
    if Text.asciiLowercase (String.ofList start) == name then
      some (Text.trimChars (line.drop (start.length + 1)))
    else none

/-- The number of a line of hexadecimal digits, up to what is not one. -/
def hexNumber (line : List UInt8) : Nat :=
  let digits := (Text.Utf8.decodeLenient line).map Text.hexValue?
  (digits.takeWhile Option.isSome).foldl (fun n d => n * 16 + d.getD 0) 0

/-- The body that is sent in chunks, after at most `fuel` of them. -/
def chunks? : Nat → List UInt8 → Option (List UInt8)
  | 0, _ => none
  | fuel + 1, bytes => do
    let (line, after) ← cutLine? bytes
    match hexNumber line with
    | 0 => some []
    | n =>
      if after.length < n then none
      else
        let rest ← chunks? fuel (after.drop (n + lineEndBytes.length))
        some (after.take n ++ rest)

/-- The status of a response's first line. -/
def status? (line : List Char) : Option Nat :=
  match Text.splitAt ' ' line with
  | version :: code :: _ =>
    if "HTTP/1.".toList.isPrefixOf version then Text.readNat? code else none
  | _ => none

/-- The body of a response, if all of it is there. -/
def body? (lines : List (List Char)) (bytes : List UInt8) : Option (List UInt8) :=
  match value? "transfer-encoding" lines, (value? "content-length" lines).bind Text.readNat? with
  | some _, _ => chunks? (bytes.length + 1) bytes
  | none, some n => if bytes.length < n then none else some (bytes.take n)
  | none, none => some bytes

/-- What the bytes of a response mean. -/
def delivery (bytes : List UInt8) : Delivery :=
  let answer : Option Delivery := do
    let (lines, rest) ← head? (bytes.length + 1) bytes
    let status ← status? (← lines.head?)
    let body ← body? lines rest
    some (.answer status body)
  answer.getD .lost

end CustomerDedupe.Rest.Wire
