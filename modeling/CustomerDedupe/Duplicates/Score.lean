import CustomerDedupe.Customer.Basic
import CustomerDedupe.Duplicates.Keys
import CustomerDedupe.Number.Total
import CustomerDedupe.Settings.Basic

/-!
# Scores of groups

How strongly the members of a group agree. The member assigned last is the reference; every
other member is compared with it in every active field, and the weight of the agreeing fields
is set in proportion to the weight of all. A member with a similar name adds ten per cent. The
score is counted in tenths of a per cent; each step is rounded to binary floating point.
-/

namespace CustomerDedupe.Duplicates

open Number

/-- The value of a field that is compared. -/
inductive FieldValue where
  | text (s : Option String)
  | amount (d : Option Decimal)
  | date (d : Option Calendar.Date)
  deriving DecidableEq, Repr

/-- The value of a customer's field. -/
def fieldValue (c : Customer) : CompareField → FieldValue
  | .gender => .text c.gender
  | .address => .text c.address
  | .jobTitle => .text c.jobTitle
  | .maritalStatus => .text c.maritalStatus
  | .proofNumber => .text c.proofNumber
  | .dbPrice => .amount c.dbPrice
  | .headquarters => .text c.headquarters
  | .insuranceName => .text c.insuranceName
  | .carJoinDate => .date c.carJoinDate
  | .notes => .text c.notes

/-- A text as it is compared: without the white space around it and without case. -/
def comparedText (s : Option String) : List Char :=
  Text.lowerChars (Text.trimChars ((s.getD "").toList))

/-- Whether two texts agree: neither is blank, and they differ at most in case and in the white
space around them. -/
def textsMatch (a b : Option String) : Bool :=
  !Text.isMissing a && !Text.isMissing b && comparedText a == comparedText b

/-- Whether two values agree. Absent values agree with nothing. -/
def valuesMatch : FieldValue → FieldValue → Bool
  | .text a, .text b => textsMatch a b
  | .amount (some a), .amount (some b) => a.sameValue b
  | .date (some a), .date (some b) => a == b
  | _, _ => false

/-- Whether two customers agree in a field. -/
def agreeOn (a b : Customer) (f : CompareField) : Bool :=
  valuesMatch (fieldValue a f) (fieldValue b f)

/-- Takes the member assigned last, the first of several, out of a group that begins with
`best`, and returns it with the others. -/
def splitReference (best : Customer) : List Customer → Customer × List Customer
  | [] => (best, [])
  | c :: rest =>
    if best.assignedDate < c.assignedDate then
      let (r, others) := splitReference c rest
      (r, best :: others)
    else
      let (r, others) := splitReference best rest
      (r, c :: others)

/-- The weight of the active fields. -/
def totalWeight (fields : List (CompareField × Nat)) : Nat :=
  total (fields.map Prod.snd)

/-- The weight of the fields in which two customers agree. -/
def matchedWeight (fields : List (CompareField × Nat)) (reference other : Customer) : Nat :=
  total ((fields.filter fun f => agreeOn reference other f.1).map Prod.snd)

/-- The score in tenths of a share of the greatest possible agreement, with ten per cent more
if a name is similar. -/
def scoreOf (matched possible : Nat) (similar : Bool) : Nat :=
  let share := Binary64.nearest (mkRat matched possible)
  let percent := Binary64.nearest (share * 100)
  let raised := if similar then Binary64.nearest (percent + 10) else percent
  let capped := if raised ≤ 100 then raised else 100
  (roundHalfEven (Binary64.nearest (capped * 10))).toNat

/-- The score of a group, in tenths. -/
def computeScore (s : Settings) : List Customer → Nat
  | [] => 0
  | [_] => 0
  | first :: rest =>
    let fields := s.activeFields
    let weight := totalWeight fields
    if weight = 0 then 0
    else
      let (reference, others) := splitReference first rest
      let matched := total (others.map (matchedWeight fields reference))
      let similar := others.any fun c => namesSimilar reference.customerName c.customerName
      scoreOf matched (weight * others.length) similar

/-- A score as a number of per cent. -/
def scoreJson (tenths : Nat) : Json :=
  .num (.real ⟨false, Binary64.nearest (mkRat tenths 10)⟩)

/-- A score with one decimal place. -/
def scoreText (tenths : Nat) : String :=
  Text.showNat (tenths / 10) ++ "." ++ Text.showNat (tenths % 10)

end CustomerDedupe.Duplicates
