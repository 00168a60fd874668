import CustomerDedupe.Failure
import CustomerDedupe.Json.Decode

/-!
# Loading records

Records from values in memory and from texts, where a refusal becomes a failure whose message
names the place in the text.
-/

namespace CustomerDedupe.Json

/-- The failure that a refusal of a value in memory is. -/
def Refusal.toFailure (r : Refusal) : Failure :=
  .data r.message

/-- Loads a record from a value in memory. -/
def load {α : Type} (schema : Origin → Schema α) (j : Json) : Except Failure α :=
  match (schema .memory).ofJson j with
  | .ok a => .ok a
  | .error r => .error r.toFailure

/-- Loads a record from a text. -/
def loadText {α : Type} (schema : Origin → Schema α) (s : String) : Except Failure α :=
  let bytes := Text.Utf8.encode s
  match (Document.read bytes).decode ((schema .text).decode .text) with
  | .ok a => .ok a
  | .error r => .error (.data (r.messageIn bytes))

/-- Loads any value from a text. -/
def loadValue (s : String) : Except Failure Json :=
  let bytes := Text.Utf8.encode s
  match (Document.read bytes).toJson with
  | .ok j => .ok j
  | .error f => .error (.data ((Refusal.ofFault f).messageIn bytes))

end CustomerDedupe.Json
