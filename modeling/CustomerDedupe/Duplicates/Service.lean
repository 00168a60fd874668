import CustomerDedupe.Customer.Store
import CustomerDedupe.Duplicates.Merge
import CustomerDedupe.Duplicates.Scan

/-!
# Handling duplicates in a store

Searching a store for duplicates, and the three ways to resolve what was found: archiving or
removing all customers of a group, and folding duplicates into one customer.
-/

namespace CustomerDedupe.Duplicates

open Calendar (Date)

variable {σ : Type}

/-- Writes a log entry. -/
def note (level : Level) (message : String) : Action σ Unit :=
  .log level .duplicates message

/-- Searches a store for duplicates among the customers of the last days. -/
def find (store : CustomerStore σ) (s : Settings) (today : Date) (days : Int)
    (includeFuzzy : Bool) : Action σ (List Group) := do
  let table ← store.list
  note .debug ("Scanning " ++ Text.showNat (recentCustomers today days table).length ++ " of " ++
    Text.showNat table.length ++ " customers assigned since " ++ (cutoff today days).text)
  let groups := scan s today days includeFuzzy table
  note .info ("Found " ++ Text.showNat groups.length ++ " duplicate group(s) within " ++
    Text.showNat (window days) ++ " day(s) (fuzzy: " ++
    (if includeFuzzy then "true" else "false") ++ ", threshold: " ++
    Text.showNat (thresholdTenths s / 10) ++ ")")
  pure groups

/-- Archives the customers of a group. -/
def archiveGroup (store : CustomerStore σ) (g : Group) : Action σ Unit := do
  note .info ("Archiving " ++ Text.showNat g.count ++ " customer(s) in group " ++ g.key)
  store.archive g.contactIds

/-- Removes the customers of a group. -/
def deleteGroup (store : CustomerStore σ) (g : Group) : Action σ Unit := do
  note .info ("Deleting " ++ Text.showNat g.count ++ " customer(s) in group " ++ g.key)
  store.delete g.contactIds

/-- Carries out the plan of a merge. -/
def carryOut (store : CustomerStore σ) (primary : Int) (duplicates : List Int) :
    MergePlan → Action σ Unit
  | .nothing => pure ()
  | .removeOnly => do
    note .warn ("Primary contact " ++ Text.showInt primary ++ " not found; deleting " ++
      Text.showNat duplicates.length ++ " duplicate(s)")
    store.delete duplicates
  | .fold merged count => do
    store.update merged
    store.delete duplicates
    note .info ("Merged " ++ Text.showNat count ++ " duplicate(s) into contact " ++
      Text.showInt primary)

/-- Folds duplicates into the customer of a contact and removes them. Without such a customer
the duplicates are only removed. -/
def merge (store : CustomerStore σ) (primary : Int) (ids : List Int) : Action σ Unit := do
  let duplicates := duplicateIds primary ids
  if primary ≤ 0 ∨ duplicates.isEmpty then pure ()
  else
    let found ← store.byContactIds (duplicates ++ [primary])
    carryOut store primary duplicates (.make primary duplicates found)

/-- The group of a key. -/
def groupOf? (groups : List Group) (key : String) : Option Group :=
  groups.find? fun g => g.key == key

end CustomerDedupe.Duplicates
