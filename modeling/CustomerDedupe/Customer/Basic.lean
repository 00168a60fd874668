import CustomerDedupe.Calendar.Instant
import CustomerDedupe.Customer.Status
import CustomerDedupe.Number.Decimal

/-!
# Customers

A customer as duplicate detection sees one: who it is, when it was assigned, and the
descriptive columns that are compared and merged.
-/

namespace CustomerDedupe

open Calendar (Date Instant)

/-- A customer. -/
structure Customer where
  id : Int
  contactId : Int
  customerName : Option String
  contactNumber : Option String
  group : Option String
  assignedTo : Option String
  assigner : Option String
  assignedDate : Instant
  lastContactDate : Instant
  status : Status
  isStarred : Bool
  isArchived : Bool
  gender : Option String
  address : Option String
  jobTitle : Option String
  maritalStatus : Option String
  proofNumber : Option String
  dbPrice : Option Number.Decimal
  headquarters : Option String
  insuranceName : Option String
  carJoinDate : Option Date
  notes : Option String
  deriving DecidableEq, Repr

/-- A customer of whom only the contact and the time of assignment are known. -/
def Customer.assigned (contactId : Int) (at' : Instant) : Customer where
  id := 0
  contactId := contactId
  customerName := none
  contactNumber := none
  group := none
  assignedTo := none
  assigner := none
  assignedDate := at'
  lastContactDate := at'
  status := .new
  isStarred := false
  isArchived := false
  gender := none
  address := none
  jobTitle := none
  maritalStatus := none
  proofNumber := none
  dbPrice := none
  headquarters := none
  insuranceName := none
  carJoinDate := none
  notes := none

end CustomerDedupe
