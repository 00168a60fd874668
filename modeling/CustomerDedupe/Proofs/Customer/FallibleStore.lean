import CustomerDedupe.Proofs.Action

/-!
# Stores whose requests may fail

A store may refuse any request before it has done anything. `CustomerStore.Fallible` says this of
a store that otherwise serves requests from a table, whatever decides which of them fail. The
table in memory is such a store (`MemoryStore.fallible`).
-/

namespace CustomerDedupe

variable {σ α : Type}

/-- What is seen of a store: its rows, and the requests it has taken, last first, each with
whether it was served. -/
structure StoreView (σ : Type) where
  rows : σ → List Customer
  requests : σ → List (StoreCall × Bool)

/-- An action takes a request: it fails and leaves the rows as they are, or it answers from the
rows and changes them accordingly. In either case the request is noted. -/
def StoreView.Takes (v : StoreView σ) (call : StoreCall)
    (answer : List Customer → α × List Customer) (a : Action σ α) : Prop :=
  ∀ s : Session σ,
    (∃ e after, a.run s = (.error e, after) ∧ v.rows after.world = v.rows s.world ∧
      v.requests after.world = (call, false) :: v.requests s.world) ∨
    ∃ after, a.run s = (.ok (answer (v.rows s.world)).1, after) ∧
      v.rows after.world = (answer (v.rows s.world)).2 ∧
      v.requests after.world = (call, true) :: v.requests s.world

/-- A store that serves the requests of a merge from a table, but for those that fail before
doing anything. -/
structure CustomerStore.Fallible (store : CustomerStore σ) (v : StoreView σ) : Prop where
  byContactIds : ∀ ids, v.Takes (.byContactIds ids) (fun rows => (Table.select ids rows, rows))
    (store.byContactIds ids)
  update : ∀ c, v.Takes (.update c) (fun rows => ((), Table.replace c rows)) (store.update c)
  delete : ∀ ids, v.Takes (.delete ids) (fun rows => ((), Table.delete ids rows))
    (store.delete ids)

namespace MemoryStore

/-- What is seen of a table in memory, which serves all requests but those of one kind. -/
def view : StoreView MemoryStore where
  rows m := m.rows
  requests m := m.calls.map fun call => (call, decide (m.failing ≠ some call.method))

/-- A table in memory takes a request. -/
theorem takes_serve (call : StoreCall) (f : List Customer → α × List Customer) :
    view.Takes call f (serve call f) := by
  intro s
  by_cases h : s.world.failing = some call.method
  · refine .inl ⟨_, _, serve_refused call f h, rfl, ?_⟩
    simp [view, noted, h]
  · refine .inr ⟨_, serve_ok call f h, rfl, ?_⟩
    simp [view, noted, h]

/-- A table in memory is a store whose requests may fail. -/
theorem fallible : store.Fallible view where
  byContactIds ids := takes_serve (.byContactIds ids) fun rows => (Table.select ids rows, rows)
  update c := takes_serve (.update c) fun rows => ((), Table.replace c rows)
  delete ids := takes_serve (.delete ids) fun rows => ((), Table.delete ids rows)

end MemoryStore

end CustomerDedupe
