import CustomerDedupe.Duplicates.Service
import CustomerDedupe.Proofs.Action
import CustomerDedupe.Proofs.Customer.Table
import CustomerDedupe.Proofs.Duplicates.DistinctIds

/-!
# What a merge does to a table

A merge looks up the customers concerned, decides on a plan, and carries it out by at most one
update and one deletion. For each plan there is one lemma on the requests that are made. The
main result, `merge_transforms_table`, puts the table after a merge in terms of the table before
it, and the customer that is kept is never removed.
-/

namespace CustomerDedupe

/-- What is left of a customer without the details that duplicates are compared in. -/
def Customer.withoutDetails (c : Customer) : Customer :=
  { c with
    gender := none
    address := none
    jobTitle := none
    maritalStatus := none
    proofNumber := none
    dbPrice := none
    headquarters := none
    insuranceName := none
    carJoinDate := none
    notes := none }

/-- A request that changes the table. -/
def StoreCall.IsWrite (call : StoreCall) : Prop :=
  call.method ≠ .list ∧ call.method ≠ .byContactIds

instance (call : StoreCall) : Decidable call.IsWrite :=
  inferInstanceAs (Decidable (_ ∧ _))

/-- The requests taken so far that change the table, last first. -/
def MemoryStore.writes (m : MemoryStore) : List StoreCall :=
  m.calls.filter fun call => call.IsWrite

namespace Duplicates

/-- The contacts that a merge removes are the positive ones named other than the one that is
kept, each at its first occurrence. -/
theorem duplicate_ids_eq (primary : Int) (ids : List Int) :
    duplicateIds primary ids = (ids.filter fun id => 0 < id ∧ id ≠ primary).eraseDups := by
  rw [duplicateIds, distinct_ids_eq]
  congr 2
  funext id
  simp [bne, beq_eq_decide]

theorem mem_duplicate_ids {primary : Int} {ids : List Int} {id : Int} :
    id ∈ duplicateIds primary ids ↔ id ∈ ids ∧ 0 < id ∧ id ≠ primary := by
  simp [duplicate_ids_eq]

/-- A merge never removes the contact that is kept. -/
theorem primary_not_mem_duplicate_ids (primary : Int) (ids : List Int) :
    primary ∉ duplicateIds primary ids :=
  fun h => (mem_duplicate_ids.mp h).2.2 rfl

/-- The rows of a table that a merge folds into another. -/
def duplicateRows (primary : Int) (ids : List Int) (table : List Customer) : List Customer :=
  table.filter fun c => c.contactId ∈ duplicateIds primary ids

/-- If there are rows of some contacts, there are contacts. -/
theorem contacts_ne_nil {contacts : List Int} {rows : List Customer} (hsome : rows ≠ [])
    (h : ∀ c ∈ rows, c.contactId ∈ contacts) : contacts ≠ [] := by
  obtain ⟨c, hc⟩ := List.exists_mem_of_ne_nil _ hsome
  exact List.ne_nil_of_mem (h c hc)

/-- The duplicates have contacts that a merge removes. -/
theorem contact_mem_of_mem_duplicate_rows {primary : Int} {ids : List Int}
    {table : List Customer} {c : Customer} (hc : c ∈ duplicateRows primary ids table) :
    c.contactId ∈ duplicateIds primary ids := by
  simpa using (List.mem_filter.mp hc).2

/-- Folding duplicates into a customer changes nothing but its details. -/
theorem merge_into_without_details (primary : Customer) (duplicates : List Customer) :
    (mergeInto primary duplicates).withoutDetails = primary.withoutDetails := by
  unfold mergeInto
  split <;> rfl

/-- Folding duplicates into a customer keeps its identifier. -/
@[simp] theorem merge_into_id (primary : Customer) (duplicates : List Customer) :
    (mergeInto primary duplicates).id = primary.id := by
  have h := congrArg Customer.id (merge_into_without_details primary duplicates)
  exact h

/-- Folding duplicates into a customer keeps its contact. -/
@[simp] theorem merge_into_contact (primary : Customer) (duplicates : List Customer) :
    (mergeInto primary duplicates).contactId = primary.contactId := by
  have h := congrArg Customer.contactId (merge_into_without_details primary duplicates)
  exact h

section Plan

variable {primary : Int} {ids : List Int} {table : List Customer}

/-- The plan of a merge into a contact of a table. -/
def mergePlan (primary : Int) (ids : List Int) (table : List Customer) : MergePlan :=
  if primary ≤ 0 ∨ duplicateIds primary ids = [] then .nothing
  else .make primary (duplicateIds primary ids)
    (Table.select (duplicateIds primary ids ++ [primary]) table)

/-- Among the customers looked up, the duplicates are all those of the table. -/
theorem found_duplicates_eq :
    ((Table.select (duplicateIds primary ids ++ [primary]) table).filter fun c =>
      (duplicateIds primary ids).contains c.contactId) = duplicateRows primary ids table := by
  rw [Table.select_eq, List.filter_filter, duplicateRows]
  apply List.filter_congr
  intro c _
  by_cases hc : c.contactId ∈ duplicateIds primary ids <;> simp [hc]

/-- Among the customers looked up, the one that is kept is the first of the table. -/
theorem found_primary_eq :
    (Table.select (duplicateIds primary ids ++ [primary]) table).find?
      (fun c => c.contactId == primary) = table.find? fun c => c.contactId == primary := by
  rw [Table.select_eq, List.find?_filter]
  -- the contact that is kept is looked up as well, so the look-up hides none of its rows
  congr 1
  funext c
  by_cases hc : c.contactId = primary <;> simp [hc]

/-- Looking up the customers of a merge that has duplicates finds some. -/
theorem found_ne_nil (hsome : duplicateRows primary ids table ≠ []) :
    (Table.select (duplicateIds primary ids ++ [primary]) table).isEmpty = false := by
  rw [List.isEmpty_eq_false_iff]
  intro hnil
  apply hsome
  rw [← found_duplicates_eq, hnil, List.filter_nil]

/-- Without duplicates there is nothing to do. -/
theorem merge_plan_nothing
    (hnone : primary ≤ 0 ∨ duplicateIds primary ids = [] ∨ duplicateRows primary ids table = []) :
    mergePlan primary ids table = .nothing := by
  unfold mergePlan
  split
  · rfl
  · next hskip =>
    have hrows : duplicateRows primary ids table = [] :=
      (or_assoc.mpr hnone).resolve_left hskip
    unfold MergePlan.make
    rw [found_duplicates_eq, hrows]
    split
    · rfl
    · next hfound =>
      -- the only customer that can have been found is the one that is kept
      split
      · next hprimary =>
        rw [found_primary_eq, List.find?_eq_none] at hprimary
        refine absurd (List.isEmpty_iff.mpr ?_) hfound
        rw [Table.select_eq, List.filter_eq_nil_iff]
        intro c hc hmem
        have hkept := hprimary c hc
        have hdup := List.filter_eq_nil_iff.mp hrows c hc
        simp_all
      · rfl

/-- A merge that has duplicates names some. -/
theorem not_skipped (hpos : 0 < primary) (hsome : duplicateRows primary ids table ≠ []) :
    ¬(primary ≤ 0 ∨ duplicateIds primary ids = []) := by
  rintro (h | h)
  · omega
  · exact contacts_ne_nil hsome (fun _ => contact_mem_of_mem_duplicate_rows) h

/-- Duplicates of a contact that is not stored are removed. -/
theorem merge_plan_remove_only (hpos : 0 < primary)
    (hsome : duplicateRows primary ids table ≠ [])
    (habsent : ∀ c ∈ table, c.contactId ≠ primary) :
    mergePlan primary ids table = .removeOnly := by
  have hfind : table.find? (fun c => c.contactId == primary) = none := by
    rw [List.find?_eq_none]
    intro c hc
    simpa using habsent c hc
  rw [mergePlan, if_neg (not_skipped hpos hsome)]
  simp only [MergePlan.make, found_ne_nil hsome, found_primary_eq, hfind]
  rfl

/-- Duplicates of a stored contact are folded into its row. -/
theorem merge_plan_fold (hpos : 0 < primary) (hsome : duplicateRows primary ids table ≠ [])
    {c : Customer} (hfind : table.find? (fun d => d.contactId == primary) = some c) :
    mergePlan primary ids table =
      .fold (mergeInto c (duplicateRows primary ids table))
        (duplicateRows primary ids table).length := by
  have hothers : (duplicateRows primary ids table).isEmpty = false := by
    rw [List.isEmpty_eq_false_iff]
    exact hsome
  rw [mergePlan, if_neg (not_skipped hpos hsome)]
  simp only [MergePlan.make, found_ne_nil hsome, found_primary_eq, hfind,
    found_duplicates_eq, hothers]
  rfl

/-- What a merge into a contact plans for a table of distinct contacts: to do nothing, to remove
the duplicates of a contact that is not stored, or to fold them into its row. -/
theorem merge_plan_cases (hcontacts : (table.map Customer.contactId).Nodup) (primary : Int)
    (ids : List Int) :
    mergePlan primary ids table = .nothing ∨
      (mergePlan primary ids table = .removeOnly ∧ ∀ c ∈ table, c.contactId ≠ primary) ∨
      ∃ c ∈ table, c.contactId = primary ∧
        mergePlan primary ids table = .fold (mergeInto c (duplicateRows primary ids table))
          (duplicateRows primary ids table).length := by
  by_cases hnone : primary ≤ 0 ∨ duplicateRows primary ids table = []
  · exact .inl (merge_plan_nothing (hnone.imp_right .inr))
  · obtain ⟨hle, hsome⟩ := not_or.mp hnone
    have hpos : 0 < primary := by omega
    by_cases hstored : ∃ c ∈ table, c.contactId = primary
    · obtain ⟨c, hc, hcontact⟩ := hstored
      have hfind := Table.find_contact hcontacts hc
      rw [hcontact] at hfind
      exact .inr (.inr ⟨c, hc, hcontact, merge_plan_fold hpos hsome hfind⟩)
    · have habsent : ∀ c ∈ table, c.contactId ≠ primary := fun c hc h => hstored ⟨c, hc, h⟩
      exact .inr (.inl ⟨merge_plan_remove_only hpos hsome habsent, habsent⟩)

end Plan

section Run

/-- What a plan makes of a table, if the contacts to remove are removed. -/
def MergePlan.rows (removed : List Int) (table : List Customer) : MergePlan → List Customer
  | .nothing => table
  | .removeOnly => Table.delete removed table
  | .fold merged _ => Table.delete removed (Table.replace merged table)

/-- What a plan makes of a table up to the deletion. -/
def MergePlan.rowsBeforeDelete (table : List Customer) : MergePlan → List Customer
  | .nothing => table
  | .removeOnly => table
  | .fold merged _ => Table.replace merged table

/-- The requests of a plan that change the table, last first. -/
def MergePlan.writes (removed : List Int) : MergePlan → List StoreCall
  | .nothing => []
  | .removeOnly => [.delete removed]
  | .fold merged _ => [.delete removed, .update merged]

variable {m : MemoryStore}

/-- A plan carried out over a table that serves its requests. -/
theorem carry_out_served (hworks : m.failing = none) (primary : Int) (removed : List Int)
    (plan : MergePlan) (journal : List Written) :
    let result := (carryOut MemoryStore.store primary removed plan).run ⟨m, journal⟩
    result.1 = .ok () ∧
      result.2.world = ⟨plan.rows removed m.rows, plan.writes removed ++ m.calls, m.failing⟩ := by
  intro result
  have hserved : ∀ method, m.failing ≠ some method := by
    intro method
    rw [hworks]
    exact nofun
  cases plan with
  | nothing => exact ⟨rfl, rfl⟩
  | removeOnly =>
      have hrun : result = _ := Action.run_bind_ok (Action.run_log _ _ _ _) _
      rw [hrun, MemoryStore.delete_ok (hserved _)]
      exact ⟨rfl, rfl⟩
  | fold merged count =>
      have hrun : result = _ := Action.run_bind_ok (MemoryStore.update_ok (hserved _)) _
      rw [hrun, Action.run_bind_ok (MemoryStore.delete_ok (hserved _))]
      exact ⟨rfl, rfl⟩

/-- A plan carried out over a table that refuses deletions stops there with the failure. -/
theorem carry_out_refused (hrefused : m.failing = some .delete) (primary : Int)
    (removed : List Int) (plan : MergePlan) (journal : List Written) :
    let result := (carryOut MemoryStore.store primary removed plan).run ⟨m, journal⟩
    (plan ≠ .nothing → result.1 = .error (.refused 500 "delete failed")) ∧
      result.2.world.rows = plan.rowsBeforeDelete m.rows := by
  intro result
  cases plan with
  | nothing => exact ⟨fun h => absurd rfl h, rfl⟩
  | removeOnly =>
      have hrun : result = _ := Action.run_bind_ok (Action.run_log _ _ _ _) _
      rw [hrun, MemoryStore.delete_refused hrefused]
      exact ⟨fun _ => rfl, rfl⟩
  | fold merged count =>
      have hupdate : m.failing ≠ some .update := by
        rw [hrefused]
        decide
      have hrun : result = _ := Action.run_bind_ok (MemoryStore.update_ok hupdate) _
      rw [hrun, Action.run_bind_error (MemoryStore.delete_refused hrefused)]
      exact ⟨fun _ => rfl, rfl⟩

variable (primary : Int) (ids : List Int)

/-- A merge that names contacts to remove looks up the customers concerned and carries out its
plan, and any other does nothing. -/
theorem merge_run (hfound : m.failing ≠ some .byContactIds) :
    (merge MemoryStore.store primary ids).run ⟨m, []⟩ =
      if primary ≤ 0 ∨ duplicateIds primary ids = [] then (.ok (), ⟨m, []⟩)
      else (carryOut MemoryStore.store primary (duplicateIds primary ids)
        (mergePlan primary ids m.rows)).run
          ⟨m.noted (.byContactIds (duplicateIds primary ids ++ [primary])), []⟩ := by
  unfold merge
  simp only [List.isEmpty_iff]
  split
  · rfl
  · next hskip =>
    rw [mergePlan, if_neg hskip]
    exact Action.run_bind_ok (MemoryStore.by_contact_ids_ok (s := ⟨m, []⟩) hfound) _

/-- Without duplicates or without the contact that is kept, no row is replaced. -/
theorem rows_before_delete_unstored {table : List Customer}
    (hnone : primary ≤ 0 ∨ duplicateRows primary ids table = [] ∨
      ∀ c ∈ table, c.contactId ≠ primary) :
    (mergePlan primary ids table).rowsBeforeDelete table = table := by
  by_cases hnothing : primary ≤ 0 ∨ duplicateRows primary ids table = []
  · rw [merge_plan_nothing (hnothing.imp_right .inr)]
    rfl
  · obtain ⟨hle, hsome⟩ := not_or.mp hnothing
    have hpos : 0 < primary := by omega
    rw [merge_plan_remove_only hpos hsome ((or_assoc.mpr hnone).resolve_left hnothing)]
    rfl

/-- All requests of a plan other than looking customers up change the table. -/
theorem filter_writes (removed : List Int) (plan : MergePlan) :
    ((plan.writes removed).filter fun call => call.IsWrite) = plan.writes removed := by
  cases plan <;> rfl

/-- A merge over a table that serves its requests carries out its plan, and the table goes on
serving. -/
theorem merge_run_served (hworks : m.failing = none) :
    ∃ calls,
      Action.runOn (merge MemoryStore.store primary ids) m =
        (.ok (), ⟨(mergePlan primary ids m.rows).rows (duplicateIds primary ids) m.rows, calls,
          m.failing⟩) ∧
      calls.filter (fun call => call.IsWrite) =
        (mergePlan primary ids m.rows).writes (duplicateIds primary ids) ++ m.writes := by
  have hfound : m.failing ≠ some .byContactIds := by
    rw [hworks]
    exact nofun
  have hrun := merge_run primary ids hfound
  by_cases hskip : primary ≤ 0 ∨ duplicateIds primary ids = []
  · -- a merge that is skipped has the plan to do nothing
    rw [if_pos hskip] at hrun
    rw [Action.run_on_of_run hrun, mergePlan, if_pos hskip]
    exact ⟨m.calls, rfl, rfl⟩
  · rw [if_neg hskip] at hrun
    obtain ⟨hok, hworld⟩ := carry_out_served
      (m := m.noted (.byContactIds (duplicateIds primary ids ++ [primary]))) hworks primary
      (duplicateIds primary ids) (mergePlan primary ids m.rows) []
    refine ⟨_, (Action.run_on_of_run hrun).trans (Prod.ext hok hworld), ?_⟩
    rw [List.filter_append, filter_writes]
    rfl

/-- What a merge over a table that serves its requests returns, and the rows and requests after
it. -/
theorem merge_served (hworks : m.failing = none) :
    let result := Action.runOn (merge MemoryStore.store primary ids) m
    result.1 = .ok () ∧
      result.2.rows = (mergePlan primary ids m.rows).rows (duplicateIds primary ids) m.rows ∧
      result.2.writes =
        (mergePlan primary ids m.rows).writes (duplicateIds primary ids) ++ m.writes := by
  obtain ⟨calls, hrun, hwrites⟩ := merge_run_served primary ids hworks
  rw [hrun]
  exact ⟨rfl, rfl, hwrites⟩

/-- A merge over a table that refuses deletions carries out its plan up to the deletion. -/
theorem merge_refused (hrefused : m.failing = some .delete) :
    let result := Action.runOn (merge MemoryStore.store primary ids) m
    (mergePlan primary ids m.rows ≠ .nothing →
        result.1 = .error (.refused 500 "delete failed")) ∧
      result.2.rows = (mergePlan primary ids m.rows).rowsBeforeDelete m.rows := by
  have hfound : m.failing ≠ some .byContactIds := by
    rw [hrefused]
    decide
  have hrun := merge_run primary ids hfound
  intro result
  by_cases hskip : primary ≤ 0 ∨ duplicateIds primary ids = []
  · rw [if_pos hskip] at hrun
    have hresult : result = (.ok (), m) := Action.run_on_of_run hrun
    rw [hresult, mergePlan, if_pos hskip]
    exact ⟨fun h => absurd rfl h, rfl⟩
  · rw [if_neg hskip] at hrun
    have hresult : result = _ := Action.run_on_of_run hrun
    rw [hresult]
    exact carry_out_refused
      (m := m.noted (.byContactIds (duplicateIds primary ids ++ [primary]))) hrefused primary
      (duplicateIds primary ids) (mergePlan primary ids m.rows) []

end Run

/-- How a merge that removes some contacts, of which the duplicates are stored, leaves a table. -/
structure MergeOutcome (primary : Int) (removed : List Int) (duplicates : List Customer)
    (before after : MemoryStore) : Prop where
  /-- Nothing is written unless there are duplicates of a contact. -/
  unchanged : primary ≤ 0 ∨ removed = [] ∨ duplicates = [] →
    after.rows = before.rows ∧ after.writes = before.writes
  /-- Duplicates of a contact that is not stored are removed, and no row is updated. -/
  removed_only : 0 < primary → duplicates ≠ [] → (∀ c ∈ before.rows, c.contactId ≠ primary) →
    after.rows = (before.rows.filter fun d => d.contactId ∉ removed) ∧
      after.writes = .delete removed :: before.writes
  /-- Duplicates of a stored contact are folded into its row and removed, and all other rows
  stay as and where they are. -/
  folded : 0 < primary → duplicates ≠ [] → ∀ c ∈ before.rows, c.contactId = primary →
    after.rows = ((before.rows.filter fun d => d.contactId ∉ removed).map fun d =>
        if d.contactId = primary then mergeInto c duplicates else d) ∧
      after.writes = .delete removed :: .update (mergeInto c duplicates) :: before.writes
  /-- The contact that is kept is stored after the merge exactly if it was before. -/
  kept : ∀ id, (∃ c ∈ after.rows, c.contactId = primary ∧ c.id = id) ↔
    ∃ c ∈ before.rows, c.contactId = primary ∧ c.id = id
  /-- No deletion is asked for that names the contact that is kept. -/
  spared : ∃ requests, after.writes = requests ++ before.writes ∧
    ∀ gone, .delete gone ∈ requests → primary ∉ gone

namespace MergeOutcome

variable {primary : Int} {removed : List Int} {duplicates : List Customer}
  {before after : MemoryStore}

/-- A merge that has duplicates is not one that writes nothing. -/
theorem not_unchanged (hpos : 0 < primary) (hsome : duplicates ≠ [])
    (hdup : ∀ c ∈ duplicates, c.contactId ∈ removed) :
    ¬(primary ≤ 0 ∨ removed = [] ∨ duplicates = []) := by
  rintro (h | h | h)
  · omega
  · exact contacts_ne_nil hsome hdup h
  · exact hsome h

/-- A merge that writes nothing. -/
theorem of_unchanged (hnone : primary ≤ 0 ∨ removed = [] ∨ duplicates = [])
    (hdup : ∀ c ∈ duplicates, c.contactId ∈ removed) (hrows : after.rows = before.rows)
    (hwrites : after.writes = before.writes) :
    MergeOutcome primary removed duplicates before after := by
  refine ⟨fun _ => ⟨hrows, hwrites⟩,
    fun hpos hsome => absurd hnone (not_unchanged hpos hsome hdup),
    fun hpos hsome => absurd hnone (not_unchanged hpos hsome hdup), ?_, [], hwrites, ?_⟩
  · intro id
    rw [hrows]
  · intro gone h
    cases h

section Writes

variable (hpos : 0 < primary) (hsome : duplicates ≠ []) (hkeep : primary ∉ removed)
  (hdup : ∀ c ∈ duplicates, c.contactId ∈ removed)

include hpos hsome hkeep hdup

/-- A merge that only removes rows. -/
theorem of_removed_only (habsent : ∀ c ∈ before.rows, c.contactId ≠ primary)
    (hrows : after.rows = before.rows.filter fun d => d.contactId ∉ removed)
    (hwrites : after.writes = .delete removed :: before.writes) :
    MergeOutcome primary removed duplicates before after := by
  refine ⟨fun h => absurd h (not_unchanged hpos hsome hdup), fun _ _ _ => ⟨hrows, hwrites⟩,
    fun _ _ c hc hcontact => absurd hcontact (habsent c hc), ?_, [.delete removed], hwrites, ?_⟩
  · intro id
    constructor
    · rintro ⟨c, hc, hcontact, -⟩
      rw [hrows] at hc
      exact absurd hcontact (habsent c (List.mem_filter.mp hc).1)
    · rintro ⟨c, hc, hcontact, -⟩
      exact absurd hcontact (habsent c hc)
  · intro gone h
    obtain rfl : gone = removed := by simpa using h
    exact hkeep

/-- A merge that folds the duplicates into a row. -/
theorem of_folded {c : Customer} (hcontacts : (before.rows.map Customer.contactId).Nodup)
    (hc : c ∈ before.rows) (hcontact : c.contactId = primary)
    (hrows : after.rows = (before.rows.filter fun d => d.contactId ∉ removed).map fun d =>
      if d.contactId = primary then mergeInto c duplicates else d)
    (hwrites : after.writes =
      .delete removed :: .update (mergeInto c duplicates) :: before.writes) :
    MergeOutcome primary removed duplicates before after := by
  have honly : ∀ d ∈ before.rows, d.contactId = primary → d = c := by
    intro d hd h
    exact List.inj_on_of_nodup_map hcontacts hd hc (h.trans hcontact.symm)
  refine ⟨fun h => absurd h (not_unchanged hpos hsome hdup),
    fun _ _ habsent => absurd hcontact (habsent c hc), ?_, ?_,
    [.delete removed, .update (mergeInto c duplicates)], hwrites, ?_⟩
  · intro _ _ d hd h
    rw [honly d hd h]
    exact ⟨hrows, hwrites⟩
  · intro id
    constructor
    · -- a row of the contact that is kept is the merged one, which has the old identifier
      rintro ⟨d, hd, hd', hid⟩
      rw [hrows] at hd
      obtain ⟨e, he, rfl⟩ := List.mem_map.mp hd
      refine ⟨c, hc, hcontact, ?_⟩
      by_cases he' : e.contactId = primary
      · rwa [if_pos he', merge_into_id] at hid
      · rw [if_neg he'] at hd'
        exact absurd hd' he'
    · rintro ⟨d, hd, hd', hid⟩
      rw [honly d hd hd'] at hid
      have hmem : c ∈ before.rows.filter fun d => d.contactId ∉ removed := by
        rw [List.mem_filter, hcontact]
        exact ⟨hc, by simpa using hkeep⟩
      refine ⟨mergeInto c duplicates, ?_, ?_, ?_⟩
      · rw [hrows]
        exact List.mem_map.mpr ⟨c, hmem, if_pos hcontact⟩
      · rw [merge_into_contact, hcontact]
      · rw [merge_into_id, hid]
  · intro gone h
    obtain rfl : gone = removed := by simpa using h
    exact hkeep

end Writes

end MergeOutcome

/-- A merge over a table of distinct identifiers and contacts that serves its requests returns
no error. The contacts removed are the positive ones named other than the one that is kept, each
at its first occurrence. If no row has them the table stays as it is and nothing is written; if
the contact that is kept has no row, exactly their rows are removed; otherwise its row becomes
what folding their rows into it gives, in table order, their rows are removed, and every other
row stays as and where it is. The row that is kept is never removed. -/
theorem merge_transforms_table {m : MemoryStore} (hids : (m.rows.map Customer.id).Nodup)
    (hcontacts : (m.rows.map Customer.contactId).Nodup) (hworks : m.failing = none)
    (primary : Int) (ids : List Int) :
    let removed := (ids.filter fun id => 0 < id ∧ id ≠ primary).eraseDups
    let duplicates := m.rows.filter fun c => c.contactId ∈ removed
    ∃ after, Action.runOn (merge MemoryStore.store primary ids) m = (.ok (), after) ∧
      MergeOutcome primary removed duplicates m after := by
  intro removed duplicates
  have hremoved : duplicateIds primary ids = removed := duplicate_ids_eq primary ids
  have hduplicates : duplicateRows primary ids m.rows = duplicates := by
    rw [duplicateRows, hremoved]
  have hkeep : primary ∉ removed := hremoved ▸ primary_not_mem_duplicate_ids primary ids
  have hdup : ∀ c ∈ duplicates, c.contactId ∈ removed := by
    intro c hc
    simpa using (List.mem_filter.mp hc).2
  obtain ⟨hok, hrows, hwrites⟩ := merge_served primary ids hworks
  rw [hremoved] at hrows hwrites
  refine ⟨_, Prod.ext hok rfl, ?_⟩
  by_cases hnone : primary ≤ 0 ∨ removed = [] ∨ duplicates = []
  · have hplan : mergePlan primary ids m.rows = .nothing := by
      apply merge_plan_nothing
      rwa [hremoved, hduplicates]
    rw [hplan] at hrows hwrites
    exact .of_unchanged hnone hdup hrows hwrites
  -- from here on there are duplicates, and what is written depends on whether the contact that
  -- is kept is stored
  obtain ⟨hle, hnamed⟩ := not_or.mp hnone
  have hpos : 0 < primary := by omega
  have hsome : duplicates ≠ [] := (not_or.mp hnamed).2
  have hsome' : duplicateRows primary ids m.rows ≠ [] := hduplicates ▸ hsome
  by_cases hstored : ∃ c ∈ m.rows, c.contactId = primary
  · obtain ⟨c, hc, hcontact⟩ := hstored
    have hfind := Table.find_contact hcontacts hc
    rw [hcontact] at hfind
    rw [merge_plan_fold hpos hsome' hfind, hduplicates] at hrows hwrites
    refine .of_folded hpos hsome hkeep hdup hcontacts hc hcontact ?_ hwrites
    rw [hrows, ← hcontact]
    exact Table.delete_replace hids hcontacts hc (merge_into_id c duplicates)
      (merge_into_contact c duplicates) removed
  · have habsent : ∀ c ∈ m.rows, c.contactId ≠ primary := fun c hc h => hstored ⟨c, hc, h⟩
    rw [merge_plan_remove_only hpos hsome' habsent] at hrows hwrites
    refine .of_removed_only hpos hsome hkeep hdup habsent ?_ hwrites
    rw [hrows]
    exact Table.delete_eq removed m.rows

/-- A row of a table whose contact is numbered like the row. -/
def numberedRow (number : Int) (notes : Option String) : Customer :=
  { Customer.assigned number (.midnight (.newYear 2025)) with id := number, notes }

theorem merge_of_named_twice :
    let rows := [numberedRow 1 none, numberedRow 2 (some "Prefers SMS"), numberedRow 3 none]
    (rows.map Customer.id).Nodup ∧ (rows.map Customer.contactId).Nodup ∧
      (MemoryStore.ofRows rows).failing = none ∧
      ∃ after,
        Action.runOn (merge MemoryStore.store 3 [2, 3, -1, 2]) (MemoryStore.ofRows rows) =
          (.ok (), after) ∧
        after.rows = [numberedRow 1 none,
          mergeInto (numberedRow 3 none) [numberedRow 2 (some "Prefers SMS")]] := by
  intro rows
  have hids : (rows.map Customer.id).Nodup := by decide
  have hcontacts : (rows.map Customer.contactId).Nodup := by decide
  obtain ⟨after, hrun, houtcome⟩ := merge_transforms_table (m := MemoryStore.ofRows rows)
    hids hcontacts rfl 3 [2, 3, -1, 2]
  have hdup : ((MemoryStore.ofRows rows).rows.filter fun c => c.contactId ∈
      ([2, 3, -1, 2].filter fun id => 0 < id ∧ id ≠ 3).eraseDups) =
        [numberedRow 2 (some "Prefers SMS")] := by
    decide +kernel
  rw [hdup] at houtcome
  have hafter := houtcome.folded (by decide) (List.cons_ne_nil _ _) (numberedRow 3 none)
    (by simp [rows, MemoryStore.ofRows]) rfl
  refine ⟨hids, hcontacts, rfl, after, hrun, ?_⟩
  rw [hafter.1]
  have hrest : ((MemoryStore.ofRows rows).rows.filter fun c => c.contactId ∉
      ([2, 3, -1, 2].filter fun id => 0 < id ∧ id ≠ 3).eraseDups) =
        [numberedRow 1 none, numberedRow 3 none] := by
    decide +kernel
  rw [hrest]
  rfl

end Duplicates

end CustomerDedupe
