import CustomerDedupe.Proofs.Duplicates.FuzzyGroups

/-!
# The order of the rows does not matter

A search sees the rows of a table in the order in which the store lists them. If no two recent
rows were assigned at the same time, this order leaves no trace: the buckets have the same keys,
each group lists its members by their dates, and whether a fuzzy group is covered depends only on
which contacts it has. `all_groups_perm` puts these together, and the main result,
`find_ignores_row_order`, compares two searches.
-/

namespace CustomerDedupe.Duplicates

open Calendar (Date Instant)

section Members

variable {members members' : List Customer} (h : members.Perm members')

include h

/-- Whether contacts are covered does not depend on their order. -/
theorem covered_perm (groups : List Group) :
    covered groups (members.map Customer.contactId) =
      covered groups (members'.map Customer.contactId) := by
  rw [Bool.eq_iff_iff, covered_iff, covered_iff]
  simp only [(h.map Customer.contactId).mem_iff]

variable (hdates : (members.map Customer.assignedDate).Nodup)

include hdates

/-- The group of some members does not depend on their order. -/
theorem build_perm (s : Settings) (key display : String) (kind : GroupKind) :
    Group.build? s key display kind members = Group.build? s key display kind members' := by
  unfold Group.build?
  rw [newest_first_eq_of_perm h hdates]

/-- The exact group of a bucket does not depend on the order of its members. -/
theorem exact_group_perm (s : Settings) (number : List Char) :
    exactGroup? s (number, members) = exactGroup? s (number, members') := by
  simp only [exactGroup?, h.length_eq, build_perm h hdates]

/-- What becomes of a fuzzy bucket does not depend on the order of its members. -/
theorem add_fuzzy_perm (s : Settings) (found : List Group) (key : FuzzyKey) :
    addFuzzy s found (key, members) = addFuzzy s found (key, members') := by
  simp only [addFuzzy, h.length_eq, covered_perm h, build_perm h hdates]

end Members

section Recent

variable {recent recent' : List Customer} (h : recent.Perm recent')
  (hdates : (recent.map Customer.assignedDate).Nodup)

include h hdates

/-- The exact groups do not depend on the order of the rows. -/
theorem exact_groups_perm (s : Settings) : exactGroups s recent = exactGroups s recent' := by
  unfold exactGroups
  rw [Buckets.gather_eq_map chars_key_order exactKey recent,
    Buckets.gather_eq_map chars_key_order exactKey recent',
    ← Buckets.keys_gather_perm chars_key_order exactKey h]
  generalize (Buckets.gather charsBefore exactKey recent).map Prod.fst = numbers
  rw [List.filterMap_map, List.filterMap_map]
  congr 1
  funext number
  exact exact_group_perm (h.filter _) (hdates.sublist (List.filter_sublist.map _)) s number

/-- The groups before ranking do not depend on the order of the rows. -/
theorem all_groups_perm (s : Settings) (includeFuzzy : Bool) :
    allGroups s recent includeFuzzy = allGroups s recent' includeFuzzy := by
  cases includeFuzzy with
  | false => exact exact_groups_perm h hdates s
  | true =>
      rw [allGroups, allGroups, if_pos rfl, if_pos rfl, exact_groups_perm h hdates s,
        Buckets.gather_eq_map fuzzy_key_order fuzzyKey recent,
        Buckets.gather_eq_map fuzzy_key_order fuzzyKey recent',
        ← Buckets.keys_gather_perm fuzzy_key_order fuzzyKey h]
      generalize (Buckets.gather fuzzyBefore fuzzyKey recent).map Prod.fst = keys
      rw [List.foldl_map, List.foldl_map]
      congr 1
      funext found key
      exact add_fuzzy_perm (h.filter _) (hdates.sublist (List.filter_sublist.map _)) s found key

end Recent

/-- A scan does not depend on the order of the rows. -/
theorem scan_eq_of_perm {table table' : List Customer} (h : table.Perm table') (s : Settings)
    {today : Date} {days : Int} (includeFuzzy : Bool)
    (hdates : ((table.filter fun c => Recent today days c).map Customer.assignedDate).Nodup) :
    scan s today days includeFuzzy table = scan s today days includeFuzzy table' := by
  rw [← recent_customers_eq] at hdates
  have hrecent : (recentCustomers today days table).Perm (recentCustomers today days table') :=
    h.filter _
  unfold scan
  rw [all_groups_perm hrecent hdates]

/-- Two stores that list the same rows, in whatever order, give the same groups, with the same
members in the same order and in the same ranking, provided that no two recent rows were
assigned at the same time. -/
theorem find_ignores_row_order {σ τ : Type} {store : CustomerStore σ} {store' : CustomerStore τ}
    {session after : Session σ} {session' after' : Session τ} {table table' : List Customer}
    (hlist : store.list.run session = (.ok table, after))
    (hlist' : store'.list.run session' = (.ok table', after'))
    (hperm : table.Perm table') {today : Date} {days : Int}
    (hdates : ((table.filter fun c => Recent today days c).map Customer.assignedDate).Nodup)
    (s : Settings) (includeFuzzy : Bool) :
    ∃ groups,
      ((find store s today days includeFuzzy).run session).1 = .ok groups ∧
      ((find store' s today days includeFuzzy).run session').1 = .ok groups := by
  obtain ⟨_, hfind⟩ := find_run hlist s today days includeFuzzy
  obtain ⟨_, hfind'⟩ := find_run hlist' s today days includeFuzzy
  refine ⟨scan s today days includeFuzzy table, by rw [hfind], ?_⟩
  rw [hfind', scan_eq_of_perm hperm s includeFuzzy hdates]

theorem find_of_swapped_rows :
    let s := { Settings.default with scoreThreshold := 0 }
    let session : Session MemoryStore := ⟨MemoryStore.ofRows sameEnding, []⟩
    let session' : Session MemoryStore := ⟨MemoryStore.ofRows sameEnding.reverse, []⟩
    (∃ after, MemoryStore.store.list.run session = (.ok sameEnding, after)) ∧
      (∃ after, MemoryStore.store.list.run session' = (.ok sameEnding.reverse, after)) ∧
      sameEnding.Perm sameEnding.reverse ∧ sameEnding ≠ sameEnding.reverse ∧
      ((sameEnding.filter fun c => Recent dayAfter 30 c).map Customer.assignedDate).Nodup ∧
      ∃ groups, (∃ g ∈ groups, g.kind = .fuzzy) ∧
        ((find MemoryStore.store s dayAfter 30 true).run session).1 = .ok groups ∧
        ((find MemoryStore.store s dayAfter 30 true).run session').1 = .ok groups := by
  intro s session session'
  have hlist := MemoryStore.list_ok (s := session) (by decide)
  have hlist' := MemoryStore.list_ok (s := session') (by decide)
  have hperm : sameEnding.Perm sameEnding.reverse := (List.reverse_perm _).symm
  have hdates : ((sameEnding.filter fun c => Recent dayAfter 30 c).map
      Customer.assignedDate).Nodup := by
    decide +kernel
  obtain ⟨groups, hfound, hfound'⟩ := find_ignores_row_order hlist hlist' hperm hdates s true
  have hscan : scan s dayAfter 30 true sameEnding = groups := by
    obtain ⟨_, hrun⟩ := find_run hlist s dayAfter 30 true
    rw [hrun] at hfound
    exact Except.ok.inj hfound
  obtain ⟨g, hg, hkind, -⟩ := exists_mem_scan_of_shared_pair (s := s) (by decide)
    same_ending_ids_nodup same_ending_shared
  rw [hscan] at hg
  exact ⟨⟨_, hlist⟩, ⟨_, hlist'⟩, hperm, by decide +kernel, hdates, groups, ⟨g, hg, hkind⟩,
    hfound, hfound'⟩

end CustomerDedupe.Duplicates
