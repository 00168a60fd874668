import CustomerDedupe.Action
import CustomerDedupe.Customer.Basic

/-!
# Customer stores

What duplicate handling needs of the place where customers are kept, and the plainest such
place: a table in memory. The table's rows are found by contact, replaced by identifier, and
archived and removed by contact.
-/

namespace CustomerDedupe

/-- A place where customers are kept. -/
structure CustomerStore (σ : Type) where
  /-- Every customer, archived ones included. -/
  list : Action σ (List Customer)
  /-- The customers of some contacts. -/
  byContactIds : List Int → Action σ (List Customer)
  /-- Replaces a customer. -/
  update : Customer → Action σ Unit
  /-- Archives the customers of some contacts. -/
  archive : List Int → Action σ Unit
  /-- Removes the customers of some contacts. -/
  delete : List Int → Action σ Unit

namespace Table

/-- The rows of some contacts, in table order. -/
def select (ids : List Int) (table : List Customer) : List Customer :=
  table.filter fun c => ids.contains c.contactId

/-- The table with the first row of the same identifier replaced. -/
def replace (c : Customer) : List Customer → List Customer
  | [] => []
  | d :: rest => if d.id = c.id then c :: rest else d :: replace c rest

/-- The table with the rows of some contacts archived. -/
def archive (ids : List Int) (table : List Customer) : List Customer :=
  table.map fun c => if ids.contains c.contactId then { c with isArchived := true } else c

/-- The table without the rows of some contacts. -/
def delete (ids : List Int) (table : List Customer) : List Customer :=
  table.filter fun c => !ids.contains c.contactId

end Table

/-- The requests that a store takes. -/
inductive StoreCall where
  | list
  | byContactIds (ids : List Int)
  | update (c : Customer)
  | archive (ids : List Int)
  | delete (ids : List Int)
  deriving DecidableEq, Repr

/-- The kinds of requests. -/
inductive StoreMethod where
  | list
  | byContactIds
  | update
  | archive
  | delete
  deriving DecidableEq, Repr

/-- The kind of a request. -/
def StoreCall.method : StoreCall → StoreMethod
  | .list => .list
  | .byContactIds _ => .byContactIds
  | .update _ => .update
  | .archive _ => .archive
  | .delete _ => .delete

/-- The name of a kind of request. -/
def StoreMethod.name : StoreMethod → String
  | .list => "list"
  | .byContactIds => "by_ids"
  | .update => "update"
  | .archive => "archive"
  | .delete => "delete"

/-- A table in memory with the requests it has taken, last first, and the kind of request that
it refuses to serve. -/
structure MemoryStore where
  rows : List Customer
  calls : List StoreCall
  failing : Option StoreMethod

namespace MemoryStore

/-- A table that has taken no requests. -/
def ofRows (rows : List Customer) : MemoryStore :=
  ⟨rows, [], none⟩

/-- Takes a request, which fails if its kind is refused and is served otherwise. -/
def serve {α : Type} (call : StoreCall) (f : List Customer → α × List Customer) :
    Action MemoryStore α :=
  .perform fun m =>
    let noted := { m with calls := call :: m.calls }
    if m.failing = some call.method then
      (.error (.refused 500 (call.method.name ++ " failed")), noted)
    else
      let (a, rows) := f m.rows
      (.ok a, { noted with rows := rows })

/-- The table as a store. -/
def store : CustomerStore MemoryStore where
  list := serve .list fun rows => (rows, rows)
  byContactIds ids := serve (.byContactIds ids) fun rows => (Table.select ids rows, rows)
  update c := serve (.update c) fun rows => ((), Table.replace c rows)
  archive ids := serve (.archive ids) fun rows => ((), Table.archive ids rows)
  delete ids := serve (.delete ids) fun rows => ((), Table.delete ids rows)

end MemoryStore

end CustomerDedupe
