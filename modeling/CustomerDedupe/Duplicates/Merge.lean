import CustomerDedupe.Customer.Basic
import CustomerDedupe.Duplicates.Group

/-!
# Merging customers

Folding duplicates into one customer: empty fields are filled from the duplicate assigned last
that has the field, and all distinct notes are kept. `MergePlan` decides what a merge does to
the table once the customers concerned are known.
-/

namespace CustomerDedupe.Duplicates

/-- A text for a field: the present one unless it is blank, and otherwise the first that is not
blank among the candidates. -/
def filledText (present : Option String) (candidates : List (Option String)) : Option String :=
  if Text.isMissing present then
    match candidates.find? fun v => !Text.isMissing v with
    | some v => v
    | none => present
  else present

/-- A value for a field: the present one, or the first among the candidates. -/
def filledValue {α : Type} (present : Option α) (candidates : List (Option α)) : Option α :=
  present.or (candidates.findSome? id)

/-- Adds a note to the distinct ones: notes that differ only in case or in the white space
around them count once. -/
def addNote (segments : List (List Char)) (note : Option String) : List (List Char) :=
  let trimmed := Text.trimChars ((note.getD "").toList)
  if trimmed.isEmpty then segments
  else if segments.any fun s => Text.lowerChars s == Text.lowerChars trimmed then segments
  else segments ++ [trimmed]

/-- The distinct notes among some. -/
def noteSegments (notes : List (Option String)) : List (List Char) :=
  notes.foldl addNote []

/-- What separates notes. -/
def noteSeparator : List Char :=
  [' ', '|', ' ']

/-- The notes of a customer and its duplicates in one text. -/
def mergedNotes (present : Option String) (others : List (Option String)) : Option String :=
  match noteSegments (present :: others) with
  | [] => present
  | segments => some (String.ofList (List.intercalate noteSeparator segments))

/-- A customer after folding duplicates into it. -/
def mergeInto (primary : Customer) (duplicates : List Customer) : Customer :=
  if duplicates.isEmpty then primary
  else
    let newest := newestFirst duplicates
    let text (f : Customer → Option String) : Option String :=
      filledText (f primary) (newest.map f)
    { primary with
      gender := text Customer.gender
      address := text Customer.address
      jobTitle := text Customer.jobTitle
      maritalStatus := text Customer.maritalStatus
      proofNumber := text Customer.proofNumber
      headquarters := text Customer.headquarters
      insuranceName := text Customer.insuranceName
      dbPrice := filledValue primary.dbPrice (newest.map Customer.dbPrice)
      carJoinDate := filledValue primary.carJoinDate (newest.map Customer.carJoinDate)
      notes := mergedNotes primary.notes (duplicates.map Customer.notes) }

/-- The distinct identifiers among some that pass a test, in order of first occurrence. -/
def distinctIds (keep : Int → Bool) (ids : List Int) : List Int :=
  ids.foldl (fun out id => if keep id && !out.contains id then out ++ [id] else out) []

/-- The duplicates that a merge into a contact concerns. -/
def duplicateIds (primary : Int) (ids : List Int) : List Int :=
  distinctIds (fun id => 0 < id && id != primary) ids

/-- What a merge does to the table. -/
inductive MergePlan where
  /-- Nothing is to be done. -/
  | nothing
  /-- There is no primary customer, so the duplicates are only removed. -/
  | removeOnly
  /-- The primary customer is replaced and the duplicates are removed; `count` of them were
  found. -/
  | fold (merged : Customer) (count : Nat)
  deriving DecidableEq, Repr

/-- The plan for the customers found for a primary contact and its duplicates. -/
def MergePlan.make (primary : Int) (duplicates : List Int) (found : List Customer) :
    MergePlan :=
  if found.isEmpty then .nothing
  else
    match found.find? fun c => c.contactId == primary with
    | none => .removeOnly
    | some p =>
      let others := found.filter fun c => duplicates.contains c.contactId
      if others.isEmpty then .nothing
      else .fold (mergeInto p others) others.length

end CustomerDedupe.Duplicates
