import CustomerDedupe.Rest.Client

/-!
# A server that follows a script

A network with one server whose answers are laid down beforehand, one for each message, and
which keeps the messages that reach it. It is for trying out clients. When the script is used
up, every answer is an empty array; messages to other hosts are lost.
-/

namespace CustomerDedupe.Rest

/-- A message as the server keeps it. -/
structure Received where
  method : String
  target : String
  apiKey : String
  authorization : String
  prefer : Option String
  contentType : Option String
  body : Option Json

/-- A scripted server: where it is, the answers to come, and the messages received, last
first. -/
structure Script where
  host : Url.Host
  port : Option Nat
  answers : List Delivery
  received : List Received

namespace Script

/-- A server that is found under a domain name. -/
def new (domain : String) (answers : List Delivery) : Script :=
  ⟨.domain domain.toList, none, answers, []⟩

/-- A header without the blanks around it, as it arrives. -/
def arrived (s : String) : String :=
  let strip (cs : List Char) : List Char := (cs.dropWhile Text.isSpaceOrTab).reverse
  String.ofList (strip (strip s.toList))

/-- A message as the server receives it. -/
def receive (m : Message) : Received where
  method := m.method
  target := m.url.target
  apiKey := arrived m.apiKey
  authorization := arrived m.authorization
  prefer := m.prefer
  contentType := m.contentType
  body := m.body

/-- An answer as it is sent: some statuses have no body. -/
def asSent : Delivery → Delivery
  | .answer status body => .answer status (if status = 204 ∨ status = 304 then [] else body)
  | d => d

/-- The body of the answers after the script. -/
def emptyArray : List UInt8 :=
  Text.Utf8.encode "[]"

/-- The network with the server as its only host. -/
def network : Network Script := shortOnly fun m s =>
  if m.url.scheme = "http".toList ∧ m.url.host = some s.host ∧ m.url.port = s.port then
    let s := { s with received := receive m :: s.received }
    match s.answers with
    | [] => (.answer 200 emptyArray, s)
    | d :: rest => (asSent d, { s with answers := rest })
  else (.lost, s)

end Script

end CustomerDedupe.Rest
