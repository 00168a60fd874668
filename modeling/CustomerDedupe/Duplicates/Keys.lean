import CustomerDedupe.Text.Blank
import CustomerDedupe.Text.EditDistance
import CustomerDedupe.Text.Lowercase

/-!
# Keys of customers

What customers are grouped by: the digits of the phone number in domestic form, their last
four, and the beginning of the name. Names are compared without white space and case, and are
similar if at most two edits lead from one to the other.
-/

namespace CustomerDedupe.Duplicates

/-- The domestic form of the digits of an international number: the country code gives way to
a leading zero. -/
def domestic : List Char → List Char
  | '8' :: '2' :: '0' :: rest => '0' :: rest
  | '8' :: '2' :: rest => '0' :: rest
  | ds => ds

/-- The digits of a phone number, in domestic form if it begins with a plus sign. -/
def numberDigits (s : List Char) : List Char :=
  let raw := Text.trimChars s
  let ds := raw.filter Char.isDigit
  if raw.head? = some '+' then domestic ds else ds

/-- The digits of an optional phone number. -/
def normalizeDigits (number : Option String) : List Char :=
  numberDigits ((number.getD "").toList)

/-- The last four digits of a phone number, or all of fewer. -/
def lastFour (number : Option String) : List Char :=
  let ds := normalizeDigits number
  ds.drop (ds.length - 4)

/-- A name without white space and case. -/
def normalizeName (name : Option String) : List Char :=
  Text.lowerChars (Text.withoutBlanks ((name.getD "").toList))

/-- The first two characters of a name without white space and case. -/
def namePrefix (name : Option String) : List Char :=
  (normalizeName name).take 2

/-- The greatest number of edits between similar names. -/
def nameDistanceLimit : Nat :=
  2

/-- Whether two names are similar. -/
def namesSimilar (a b : Option String) : Bool :=
  Text.distance (normalizeName a) (normalizeName b) ≤ nameDistanceLimit

end CustomerDedupe.Duplicates
