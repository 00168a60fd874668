import CustomerDedupe.Duplicates.Service
import CustomerDedupe.Proofs.Action

/-!
# Searching a store

A search asks the store for its customers once and returns what a scan of them finds.
-/

namespace CustomerDedupe.Duplicates

open Calendar (Date)

variable {σ : Type}

/-- If the store lists its customers, a search returns the groups of a scan of them and leaves
the store as listing left it. -/
theorem find_run {store : CustomerStore σ} {s after : Session σ} {table : List Customer}
    (h : store.list.run s = (.ok table, after)) (settings : Settings) (today : Date)
    (days : Int) (includeFuzzy : Bool) :
    ∃ journal, (find store settings today days includeFuzzy).run s =
      (.ok (scan settings today days includeFuzzy table), ⟨after.world, journal⟩) := by
  unfold find
  rw [Action.run_bind_ok h]
  exact ⟨_, rfl⟩

/-- A search of a table in memory that lists its rows returns the groups of a scan of them and
leaves them as they are. -/
theorem find_served {m : MemoryStore} (h : m.failing ≠ some .list) (settings : Settings)
    (today : Date) (days : Int) (includeFuzzy : Bool) :
    Action.runOn (find MemoryStore.store settings today days includeFuzzy) m =
      (.ok (scan settings today days includeFuzzy m.rows), m.noted .list) := by
  have hlist := MemoryStore.list_ok (s := ⟨m, []⟩) h
  obtain ⟨journal, hfind⟩ := find_run hlist settings today days includeFuzzy
  exact Action.run_on_of_run hfind

/-- A search of a table in memory returns the groups of a scan of its rows. -/
theorem find_in_memory (settings : Settings) (today : Date) (days : Int) (includeFuzzy : Bool)
    (table : List Customer) :
    (Action.runOn (find MemoryStore.store settings today days includeFuzzy)
      (MemoryStore.ofRows table)).1 = .ok (scan settings today days includeFuzzy table) := by
  have hserved : (MemoryStore.ofRows table).failing ≠ some .list := by simp [MemoryStore.ofRows]
  rw [find_served hserved]
  rfl

end CustomerDedupe.Duplicates
