import CustomerDedupe.Rest.Request
import CustomerDedupe.Text.Blank
import CustomerDedupe.Url.Basic

/-!
# The client of the table server

A client knows the server's address and its keys. It turns a request into a message with an
address, headers and a body, hands it to the network, and tells from the answer's status and
body whether the request was served.
-/

namespace CustomerDedupe.Rest

/-- A client of a table server. -/
structure Client where
  baseUrl : String
  anonKey : String
  accessToken : Option String
  timeoutSeconds : Nat
  deriving DecidableEq, Repr

/-- The time an answer may take unless another is given, in seconds. -/
def defaultTimeout : Nat :=
  30

/-- A client of the server at an address, without the slashes at its end. -/
def Client.new (baseUrl anonKey : String) : Client where
  baseUrl := String.ofList ((baseUrl.toList.reverse.dropWhile (· == '/')).reverse)
  anonKey := anonKey
  accessToken := none
  timeoutSeconds := defaultTimeout

/-- A message to a server. -/
structure Message where
  method : String
  url : Url
  apiKey : String
  authorization : String
  prefer : Option String
  contentType : Option String
  body : Option Json
  timeoutSeconds : Nat

/-- The text of an address as messages name it. -/
def urlText (u : Url) : String :=
  u.withoutUser.text

/-- The most bytes that the address of a message may have. -/
def maxUrlBytes : Nat :=
  65534

/-- Whether an address is short enough for a message. -/
def isShortUrl (u : Url) : Bool :=
  (urlText u).utf8ByteSize ≤ maxUrlBytes

/-- What becomes of a message: an answer with a status and a body, none at all, none in time, or
a refusal to send it because its address is too long. -/
inductive Delivery where
  | answer (status : Nat) (body : List UInt8)
  | lost
  | late
  | overlong
  deriving DecidableEq, Repr

/-- A network delivers messages. -/
abbrev Network (σ : Type) :=
  Message → σ → Delivery × σ

/-- A network that is only handed messages with short addresses. -/
def shortOnly {σ : Type} (net : Network σ) : Network σ := fun m w =>
  if isShortUrl m.url then net m w else (.overlong, w)

/-- Whether a text may stand in a header. -/
def isHeaderText (s : String) : Bool :=
  s.toList.all fun c => c == '\t' || (0x20 ≤ c.toNat && c.toNat != 0x7F)

/-- The address of a table. -/
def Client.tableUrl (c : Client) (table : String) : String :=
  c.baseUrl ++ "/rest/v1/" ++ table

/-- The address of a request, with its parameters. -/
def Client.address [Url.DomainNames] (c : Client) (r : Request) : Except ExchangeProblem Url :=
  match Url.read (c.tableUrl r.table) with
  | .error _ => .error (.unbuildable none)
  | .ok u =>
    if u.hasHost then .ok (u.addQuery r.params) else .error (.unbuildable (some u.text))

/-- The message of a request. -/
def Client.message [Url.DomainNames] (c : Client) (r : Request) :
    Except ExchangeProblem Message := do
  let url ← c.address r
  let bearer := c.accessToken.getD c.anonKey
  if !isHeaderText c.anonKey || !isHeaderText bearer then throw (.unbuildable none)
  if url.scheme ≠ "http".toList ∧ url.scheme ≠ "https".toList then
    throw (.unbuildable (some (urlText url)))
  if !url.host.all Url.Host.isUri then throw (.unbuildable (some (urlText url)))
  let hasBody := r.verb.body?.isSome
  pure {
    method := r.verb.method
    url
    apiKey := c.anonKey
    authorization := "Bearer " ++ bearer
    prefer := if hasBody then some "return=representation" else none
    contentType := if hasBody then some "application/json" else none
    body := r.verb.body?
    timeoutSeconds := c.timeoutSeconds }

/-- What the statuses of answers are called. -/
def statusNames : List (Nat × String) :=
  [(100, "Continue"), (101, "Switching Protocols"), (102, "Processing"), (103, "Early Hints"),
    (200, "OK"), (201, "Created"), (202, "Accepted"), (203, "Non Authoritative Information"),
    (204, "No Content"), (205, "Reset Content"), (206, "Partial Content"),
    (207, "Multi-Status"), (208, "Already Reported"), (226, "IM Used"),
    (300, "Multiple Choices"), (301, "Moved Permanently"), (302, "Found"), (303, "See Other"),
    (304, "Not Modified"), (305, "Use Proxy"), (307, "Temporary Redirect"),
    (308, "Permanent Redirect"), (400, "Bad Request"), (401, "Unauthorized"),
    (402, "Payment Required"), (403, "Forbidden"), (404, "Not Found"),
    (405, "Method Not Allowed"), (406, "Not Acceptable"),
    (407, "Proxy Authentication Required"), (408, "Request Timeout"), (409, "Conflict"),
    (410, "Gone"), (411, "Length Required"), (412, "Precondition Failed"),
    (413, "Payload Too Large"), (414, "URI Too Long"), (415, "Unsupported Media Type"),
    (416, "Range Not Satisfiable"), (417, "Expectation Failed"), (418, "I'm a teapot"),
    (421, "Misdirected Request"), (422, "Unprocessable Entity"), (423, "Locked"),
    (424, "Failed Dependency"), (425, "Too Early"), (426, "Upgrade Required"),
    (428, "Precondition Required"), (429, "Too Many Requests"),
    (431, "Request Header Fields Too Large"), (451, "Unavailable For Legal Reasons"),
    (500, "Internal Server Error"), (501, "Not Implemented"), (502, "Bad Gateway"),
    (503, "Service Unavailable"), (504, "Gateway Timeout"), (505, "HTTP Version Not Supported"),
    (506, "Variant Also Negotiates"), (507, "Insufficient Storage"), (508, "Loop Detected"),
    (510, "Not Extended"), (511, "Network Authentication Required")]

/-- A status with its name. -/
def statusText (status : Nat) : String :=
  Text.showNat status ++ " " ++ (statusNames.lookup status).getD "<unknown status code>"

/-- The message of an answer that refuses a request: the one its document gives, its body as
it is, or what its status is called. -/
def refusalMessage (status : Nat) (body : List UInt8) : String :=
  let text := String.ofList (Text.Utf8.decodeLenient body)
  let given : Option String := do
    let j ← (Json.Document.read (Text.Utf8.encode text)).toJson.toOption
    let m ← j.member? "message"
    m.asStr?
  match given with
  | some m => m
  | none =>
    if body.isEmpty then (statusNames.lookup status).getD "request failed" else text

/-- The failure that an answer's status means, if it is no success. -/
def refusal? (status : Nat) (body : List UInt8) : Option Failure :=
  if 200 ≤ status ∧ status < 300 then none
  else
    let m := refusalMessage status body
    some (if status = 401 then .unauthorized m else .refused status m)

/-- A client on a network answers requests. -/
def Client.exchange {σ : Type} (c : Client) (net : Network σ) : Exchange σ := fun r => do
  match c.message r with
  | .error p => throw (.exchange p)
  | .ok m =>
    let delivery ← Action.perform fun w =>
      let (d, w) := net m w
      (.ok d, w)
    match delivery with
    | .lost => throw (.exchange (.unsent (urlText m.url)))
    | .late => throw (.exchange (.timedOut (urlText m.url)))
    | .overlong => throw (.exchange (.unbuildable (some (urlText m.url))))
    | .answer status body =>
      match refusal? status body with
      | none => pure (.read body)
      | some f =>
        .log .debug .client
          ("Supabase error " ++ statusText status ++ ": " ++ refusalMessage status body)
        throw f

end CustomerDedupe.Rest
