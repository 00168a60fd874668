import CustomerDedupe.Duplicates.Score

/-!
# Groups of duplicates

A group gathers the customers that share a key, the one assigned last first. Groups of one
phone number are exact; groups of the same last four digits and the same beginning of the name
are fuzzy.
-/

namespace CustomerDedupe.Duplicates

open Calendar (Instant)

/-- What the members of a group share. -/
inductive GroupKind where
  | exact
  | fuzzy
  deriving DecidableEq, Repr

/-- The name of a kind. -/
def GroupKind.name : GroupKind → String
  | .exact => "Exact"
  | .fuzzy => "Fuzzy"

/-- A member as it is shown. -/
structure Candidate where
  contactId : Int
  customerName : String
  assignedDate : Instant
  deriving DecidableEq, Repr

/-- A group of duplicates. The score is in tenths. -/
structure Group where
  key : String
  kind : GroupKind
  display : String
  count : Nat
  score : Nat
  latestAssigned : Instant
  sampleName : Option String
  contactIds : List Int
  candidates : List Candidate
  deriving DecidableEq, Repr

/-- Customers in the order in which groups list them: assigned last first, those assigned at
the same time in the order given. -/
def newestFirst (cs : List Customer) : List Customer :=
  cs.mergeSort fun a b => decide (b.assignedDate ≤ a.assignedDate)

/-- A customer as a member of a group. -/
def Candidate.ofCustomer (c : Customer) : Candidate :=
  ⟨c.contactId, c.customerName.getD "", c.assignedDate⟩

/-- The group of some customers, of which there is at least one. -/
def Group.build? (s : Settings) (key display : String) (kind : GroupKind)
    (members : List Customer) : Option Group :=
  match newestFirst members with
  | [] => none
  | newest :: rest =>
    let sorted := newest :: rest
    some {
      key, kind, display
      count := sorted.length
      score := computeScore s sorted
      latestAssigned := newest.assignedDate
      sampleName := newest.customerName
      contactIds := sorted.map Customer.contactId
      candidates := sorted.map Candidate.ofCustomer }

/-- A group as it is written. -/
def Group.toJson (g : Group) : Json :=
  .obj [
    ("candidates", .arr (g.candidates.map fun c =>
      .obj [
        ("assigned_date", .str c.assignedDate.text),
        ("contact_id", Json.int c.contactId),
        ("customer_name", .str c.customerName)])),
    ("contact_display", .str g.display),
    ("contact_ids", .arr (g.contactIds.map Json.int)),
    ("count", Json.nat g.count),
    ("key", .str g.key),
    ("kind", .str g.kind.name),
    ("latest_assigned", .str g.latestAssigned.text),
    ("sample_name", Json.optStr g.sampleName),
    ("score", scoreJson g.score)]

end CustomerDedupe.Duplicates
