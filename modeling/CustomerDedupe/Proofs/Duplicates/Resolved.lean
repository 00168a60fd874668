import CustomerDedupe.Proofs.Duplicates.MergeTable
import CustomerDedupe.Proofs.Duplicates.SharedKey

/-!
# Acting on a group resolves it

A group has all recent customers of its key. Once they are archived or removed, no recent
customer has the key any more, and the customers of other contacts are what they were. Once all
but one of them are folded into that one, it is the only recent customer with the key.
The main result, `acting_on_group_resolves`, compares the groups that a search returns before and
after.
-/

namespace CustomerDedupe.Duplicates

open Calendar (Date)

/-! ## The recent customers after acting -/

/-- Removing rows removes them from the recent ones. -/
theorem recent_customers_delete (today : Date) (days : Int) (ids : List Int)
    (table : List Customer) :
    recentCustomers today days (Table.delete ids table) =
      (recentCustomers today days table).filter fun c => c.contactId ∉ ids := by
  rw [Table.delete_eq]
  exact List.filter_comm _ _ table

/-- Archiving rows removes them from the recent ones. -/
theorem recent_customers_archive (today : Date) (days : Int) (ids : List Int)
    (table : List Customer) :
    recentCustomers today days (Table.archive ids table) =
      (recentCustomers today days table).filter fun c => c.contactId ∉ ids := by
  have hleft : (isRecent (cutoff today days) ∘ fun c =>
      if ids.contains c.contactId then { c with isArchived := true } else c) =
        fun c => decide (c.contactId ∉ ids) && isRecent (cutoff today days) c := by
    funext c
    by_cases hc : c.contactId ∈ ids <;> simp [isRecent, hc]
  unfold recentCustomers Table.archive
  rw [List.filter_map, List.filter_filter, hleft]
  refine (List.map_congr_left ?_).trans (List.map_id' _)
  intro c hc
  have hout : c.contactId ∉ ids :=
    of_decide_eq_true (Bool.and_eq_true_iff.mp (List.mem_filter.mp hc).2).1
  exact if_neg (by simpa using hout)

/-! ## The groups among the customers left -/

namespace SharedKey.IsGroup

variable {s : Settings} {recent : List Customer} {k k' : SharedKey} {g h : Group}

/-- Without the contacts of a group there is no customer of its key. -/
theorem rows_without (hg : k.IsGroup s recent g) :
    k.rows (recent.filter fun c => c.contactId ∉ g.contactIds) = [] := by
  rw [rows_filter, List.filter_eq_nil_iff]
  intro c hc hout
  obtain ⟨hrecent, hhas⟩ := mem_rows.mp hc
  exact of_decide_eq_true hout (hg.mem_contact_ids.mpr ⟨c, hrecent, hhas, rfl⟩)

/-- Without the contacts of a group there is no group of its written key. -/
theorem key_ne_without (hg : k.IsGroup s recent g)
    (hh : k'.IsGroup s (recent.filter fun c => c.contactId ∉ g.contactIds) h) :
    h.key ≠ g.key := by
  intro heq
  obtain rfl := hh.key_unique hg heq
  have htwo := hh.two_le_length
  rw [hg.rows_without] at htwo
  exact Nat.not_succ_le_zero 1 htwo

/-- Without some contacts no group has one of them. -/
theorem contact_not_mem_without {ids : List Int}
    (hh : k'.IsGroup s (recent.filter fun c => c.contactId ∉ ids) h) {id : Int} (hid : id ∈ ids) :
    id ∉ h.contactIds := by
  intro hmem
  obtain ⟨c, hc, -, rfl⟩ := hh.mem_contact_ids.mp hmem
  exact of_decide_eq_true (List.mem_filter.mp hc).2 hid

/-- A group with none of some contacts is there without them as well. -/
theorem without {ids : List Int} (hh : k.IsGroup s recent h)
    (hdisjoint : ∀ id ∈ h.contactIds, id ∉ ids) :
    k.IsGroup s (recent.filter fun c => c.contactId ∉ ids) h := by
  have hrows : k.rows (recent.filter fun c => c.contactId ∉ ids) = k.rows recent := by
    rw [rows_filter, List.filter_eq_self]
    intro c hc
    obtain ⟨hrecent, hhas⟩ := mem_rows.mp hc
    exact decide_eq_true (hdisjoint _ (hh.mem_contact_ids.mpr ⟨c, hrecent, hhas, rfl⟩))
  refine ⟨hh.digits_ne_nil, ?_, ?_⟩
  · rw [hrows]
    exact hh.two_le_length
  · rw [group?, hrows]
    exact hh.built

end SharedKey.IsGroup

/-- What has become of the groups after acting on one of them: no group has its key or one of
its contacts, and the exact groups that share no contact with it are as they were. -/
structure Resolves (g : Group) (before after : List Group) : Prop where
  key_gone : ∀ h ∈ after, h.key ≠ g.key
  contacts_gone : ∀ h ∈ after, ∀ id ∈ g.contactIds, id ∉ h.contactIds
  exact_kept : ∀ h ∈ before, h.kind = .exact → (∀ id ∈ h.contactIds, id ∉ g.contactIds) →
    h ∈ after

/-- If the recent customers lose exactly those of a group's contacts, the group is resolved. -/
theorem resolves_of_recent {s : Settings} {today : Date} {days : Int} {includeFuzzy : Bool}
    {before after : List Customer} {g : Group} (hg : g ∈ scan s today days includeFuzzy before)
    (hafter : recentCustomers today days after =
      (recentCustomers today days before).filter fun c => c.contactId ∉ g.contactIds) :
    Resolves g (scan s today days includeFuzzy before) (scan s today days includeFuzzy after) := by
  obtain ⟨k, hk⟩ := SharedKey.exists_key_of_mem_all_groups (mem_scan.mp hg).1
  refine ⟨?_, ?_, ?_⟩
  · intro h hh
    obtain ⟨k', hk'⟩ := SharedKey.exists_key_of_mem_all_groups (mem_scan.mp hh).1
    rw [hafter] at hk'
    exact hk.key_ne_without hk'
  · intro h hh id hid
    obtain ⟨k', hk'⟩ := SharedKey.exists_key_of_mem_all_groups (mem_scan.mp hh).1
    rw [hafter] at hk'
    exact hk'.contact_not_mem_without hid
  · intro h hh hkind hdisjoint
    obtain ⟨hgroup, hscore⟩ := mem_scan_exact.mp ⟨hh, hkind⟩
    obtain ⟨digits, hdigits⟩ := SharedKey.mem_exact_groups_iff.mp hgroup
    have hstays := hdigits.without hdisjoint
    rw [← hafter] at hstays
    exact (mem_scan_exact.mpr ⟨SharedKey.mem_exact_groups_iff.mpr ⟨digits, hstays⟩, hscore⟩).1

/-! ## Folding a group into one of its members -/

/-- A table after some contacts are removed and a merged customer is put in the place of the row
of its contact. -/
def afterFold (removed : List Int) (merged : Customer) (before : List Customer) : List Customer :=
  (before.filter fun d => d.contactId ∉ removed).map fun d =>
    if d.contactId = merged.contactId then merged else d

/-- A row after folding is the merged customer or was there before and is not removed. -/
theorem mem_after_fold {removed : List Int} {merged d : Customer} {before : List Customer}
    (h : d ∈ afterFold removed merged before) :
    d = merged ∨ d ∈ before ∧ d.contactId ∉ removed := by
  obtain ⟨e, he, rfl⟩ := List.mem_map.mp h
  split
  · exact .inl rfl
  · exact .inr ⟨(List.mem_filter.mp he).1, of_decide_eq_true (List.mem_filter.mp he).2⟩

/-- Folding leaves contacts distinct. -/
theorem contacts_nodup_after_fold (removed : List Int) (merged : Customer)
    {before : List Customer} (h : (before.map Customer.contactId).Nodup) :
    ((afterFold removed merged before).map Customer.contactId).Nodup := by
  have hcontact : (Customer.contactId ∘ fun d : Customer =>
      if d.contactId = merged.contactId then merged else d) = Customer.contactId := by
    funext d
    exact Table.contact_replaced rfl d
  rw [afterFold, List.map_map, hcontact]
  exact h.sublist (List.filter_sublist.map _)

/-- Of at least two customers of distinct contacts one is not of a given contact. -/
theorem exists_contact_ne {rows : List Customer} (htwo : 2 ≤ rows.length)
    (hcontacts : (rows.map Customer.contactId).Nodup) (kept : Int) :
    ∃ c ∈ rows, c.contactId ≠ kept := by
  by_contra hnone
  have hall : ∀ id ∈ rows.map Customer.contactId, id = kept := by
    intro id hid
    obtain ⟨c, hc, rfl⟩ := List.mem_map.mp hid
    by_contra hne
    exact hnone ⟨c, hc, hne⟩
  rw [List.eq_replicate_of_mem hall, List.nodup_replicate, List.length_map] at hcontacts
  exact Nat.not_succ_le_self 1 (Nat.le_trans htwo hcontacts)

/-- Once the other members of a group are removed and folded into one member, there is no group
of the written key. -/
theorem key_ne_after_fold {s : Settings} {today : Date} {days : Int} {before : List Customer}
    {removed : List Int} {merged : Customer} {k k' : SharedKey} {g h : Group}
    (hg : k.IsGroup s (recentCustomers today days before) g)
    (hcontacts : (before.map Customer.contactId).Nodup)
    (hremoved : ∀ id ∈ g.contactIds, id ≠ merged.contactId → id ∈ removed)
    (hh : k'.IsGroup s (recentCustomers today days (afterFold removed merged before)) h) :
    h.key ≠ g.key := by
  intro heq
  obtain rfl := hh.key_unique hg heq
  have hsub : (k'.rows (recentCustomers today days (afterFold removed merged before))).Sublist
      (afterFold removed merged before) :=
    List.filter_sublist.trans List.filter_sublist
  obtain ⟨d, hd, hne⟩ := exists_contact_ne hh.two_le_length
    ((contacts_nodup_after_fold removed merged hcontacts).sublist (hsub.map _)) merged.contactId
  -- a recent customer with the key other than the one kept was a member of the group
  obtain ⟨hrecent, hhas⟩ := SharedKey.mem_rows.mp hd
  obtain ⟨hafter, hlive⟩ := List.mem_filter.mp hrecent
  rcases mem_after_fold hafter with rfl | ⟨hbefore, hout⟩
  · exact hne rfl
  · refine hout (hremoved _ (hg.mem_contact_ids.mpr ⟨d, ?_, hhas, rfl⟩) hne)
    exact List.mem_filter.mpr ⟨hbefore, hlive⟩

section Act

variable {m : MemoryStore} (hworks : m.failing = none)

include hworks

/-- A table that serves its requests refuses none. -/
theorem not_refused (method : StoreMethod) : m.failing ≠ some method := by
  rw [hworks]
  exact nofun

/-- Archiving a group over a table that serves its requests archives the rows of its contacts. -/
theorem archive_group_served (g : Group) :
    Action.runOn (archiveGroup MemoryStore.store g) m =
      (.ok (), { m.noted (.archive g.contactIds) with
        rows := Table.archive g.contactIds m.rows }) := by
  have hrun : (archiveGroup MemoryStore.store g).run ⟨m, []⟩ = _ :=
    (Action.run_bind_ok (Action.run_log _ _ _ _) _).trans
      (MemoryStore.archive_ok (not_refused hworks _))
  exact Action.run_on_of_run hrun

/-- Removing a group over a table that serves its requests removes the rows of its contacts. -/
theorem delete_group_served (g : Group) :
    Action.runOn (deleteGroup MemoryStore.store g) m =
      (.ok (), { m.noted (.delete g.contactIds) with
        rows := Table.delete g.contactIds m.rows }) := by
  have hrun : (deleteGroup MemoryStore.store g).run ⟨m, []⟩ = _ :=
    (Action.run_bind_ok (Action.run_log _ _ _ _) _).trans
      (MemoryStore.delete_ok (not_refused hworks _))
  exact Action.run_on_of_run hrun

/-- A merge into a stored customer over a table that serves its requests folds the duplicates
into its row. -/
theorem merge_folds (hids : (m.rows.map Customer.id).Nodup)
    (hcontacts : (m.rows.map Customer.contactId).Nodup) {c : Customer} (hc : c ∈ m.rows)
    (hpos : 0 < c.contactId) {ids : List Int}
    (hsome : duplicateRows c.contactId ids m.rows ≠ []) :
    ∃ calls, Action.runOn (merge MemoryStore.store c.contactId ids) m =
      (.ok (), ⟨afterFold (duplicateIds c.contactId ids)
        (mergeInto c (duplicateRows c.contactId ids m.rows)) m.rows, calls, m.failing⟩) := by
  obtain ⟨calls, hrun, -⟩ := merge_run_served c.contactId ids hworks
  rw [merge_plan_fold hpos hsome (Table.find_contact hcontacts hc), MergePlan.rows,
    Table.delete_replace hids hcontacts hc (merge_into_id c _) (merge_into_contact c _)] at hrun
  rw [afterFold, merge_into_contact]
  exact ⟨calls, hrun⟩

end Act

/-- A group of distinct contacts has a member besides any one contact. -/
theorem SharedKey.IsGroup.exists_other {s : Settings} {recent : List Customer} {k : SharedKey}
    {g : Group} (hg : k.IsGroup s recent g) (hcontacts : (recent.map Customer.contactId).Nodup)
    (kept : Int) : ∃ c ∈ recent, c.contactId ∈ g.contactIds ∧ c.contactId ≠ kept := by
  obtain ⟨c, hc, hne⟩ := exists_contact_ne hg.two_le_length
    (hcontacts.sublist (List.filter_sublist.map Customer.contactId)) kept
  obtain ⟨hrecent, hhas⟩ := SharedKey.mem_rows.mp hc
  exact ⟨c, hrecent, hg.mem_contact_ids.mpr ⟨c, hrecent, hhas, rfl⟩, hne⟩

/-- If contacts are positive, the duplicates of a contact are the rows of all others named. -/
theorem duplicate_rows_of_positive {table : List Customer} {kept : Int} {others : List Int}
    (hpositive : ∀ c ∈ table, 0 < c.contactId) (hkept : kept ∉ others) :
    duplicateRows kept others table = table.filter fun e => e.contactId ∈ others := by
  refine List.filter_congr ?_
  intro d hd
  rw [decide_eq_decide, mem_duplicate_ids]
  refine ⟨fun h => h.1, fun h => ⟨h, hpositive d hd, ?_⟩⟩
  rintro rfl
  exact hkept h

/-- Folding all other members of a group into one member leaves no group of its key, and the
member keeps its row. -/
theorem folding_group_resolves {m : MemoryStore} (hworks : m.failing = none)
    (hids : (m.rows.map Customer.id).Nodup) (hcontacts : (m.rows.map Customer.contactId).Nodup)
    (hpositive : ∀ c ∈ m.rows, 0 < c.contactId) {s : Settings} {today : Date} {days : Int}
    {includeFuzzy : Bool} {g : Group} (hg : g ∈ scan s today days includeFuzzy m.rows)
    {kept : Int} (hkept : kept ∈ g.contactIds) {others : List Int}
    (hothers : ∀ id, id ∈ others ↔ id ∈ g.contactIds ∧ id ≠ kept) :
    ∃ merged, Action.runOn (merge MemoryStore.store kept others) m = (.ok (), merged) ∧
      merged.failing = none ∧
      (∀ h ∈ scan s today days includeFuzzy merged.rows, h.key ≠ g.key) ∧
      ∃ c ∈ m.rows, ∃ d ∈ merged.rows, c.contactId = kept ∧
        d = mergeInto c (m.rows.filter fun e => e.contactId ∈ others) ∧
        d.contactId = kept ∧ d.id = c.id := by
  obtain ⟨k, hk⟩ := SharedKey.exists_key_of_mem_all_groups (mem_scan.mp hg).1
  obtain ⟨c, hc, -, rfl⟩ := hk.mem_contact_ids.mp hkept
  have hctable : c ∈ m.rows := (List.mem_filter.mp hc).1
  have hrows : duplicateRows c.contactId others m.rows =
      m.rows.filter fun e => e.contactId ∈ others :=
    duplicate_rows_of_positive hpositive fun h => ((hothers _).mp h).2 rfl
  have hsome : duplicateRows c.contactId others m.rows ≠ [] := by
    obtain ⟨d, hd, hd', hne⟩ := hk.exists_other
      (hcontacts.sublist (List.filter_sublist.map _)) c.contactId
    rw [hrows]
    exact List.ne_nil_of_mem (List.mem_filter.mpr
      ⟨(List.mem_filter.mp hd).1, decide_eq_true ((hothers _).mpr ⟨hd', hne⟩)⟩)
  obtain ⟨calls, hrun⟩ := merge_folds hworks hids hcontacts hctable (hpositive c hctable) hsome
  refine ⟨_, hrun, hworks, ?_, ?_⟩
  · intro h hh
    obtain ⟨k', hk'⟩ := SharedKey.exists_key_of_mem_all_groups (mem_scan.mp hh).1
    refine key_ne_after_fold hk hcontacts ?_ hk'
    intro id hid hne
    rw [merge_into_contact] at hne
    obtain ⟨d, hd, -, rfl⟩ := hk.mem_contact_ids.mp hid
    exact mem_duplicate_ids.mpr
      ⟨(hothers _).mpr ⟨hid, hne⟩, hpositive d (List.mem_filter.mp hd).1, hne⟩
  · have hstays : c ∈ m.rows.filter fun d => d.contactId ∉ duplicateIds c.contactId others :=
      List.mem_filter.mpr ⟨hctable,
        decide_eq_true (primary_not_mem_duplicate_ids c.contactId others)⟩
    refine ⟨c, hctable, _, ?_, rfl, rfl, merge_into_contact _ _, merge_into_id _ _⟩
    rw [← hrows]
    exact List.mem_map.mpr ⟨c, hstays, if_pos (merge_into_contact _ _).symm⟩

/-- A search of a table that serves its requests finds some groups. Take one of them. Once it is
archived or removed, the same search returns no group of its key and none with one of its
contacts, and every exact group that shares no contact with it is returned as it was. If
identifiers are distinct and contacts distinct and positive, any one member may instead be kept
and all others folded into it. Then the same search returns no group of the key, and the row of
the member kept is still there, with the others folded into it. -/
theorem acting_on_group_resolves {m : MemoryStore} (hworks : m.failing = none) (s : Settings)
    (today : Date) (days : Int) (includeFuzzy : Bool) :
    ∃ groups scanned,
      Action.runOn (find MemoryStore.store s today days includeFuzzy) m =
        (.ok groups, scanned) ∧
      ∀ g ∈ groups,
        (∀ act, act = archiveGroup MemoryStore.store g ∨ act = deleteGroup MemoryStore.store g →
          ∃ acted again rescanned,
            Action.runOn act scanned = (.ok (), acted) ∧
            Action.runOn (find MemoryStore.store s today days includeFuzzy) acted =
              (.ok again, rescanned) ∧
            Resolves g groups again) ∧
        ((m.rows.map Customer.id).Nodup → (m.rows.map Customer.contactId).Nodup →
          (∀ c ∈ m.rows, 0 < c.contactId) →
          ∀ kept ∈ g.contactIds, ∀ others,
            (∀ id, id ∈ others ↔ id ∈ g.contactIds ∧ id ≠ kept) →
            ∃ merged again rescanned,
              Action.runOn (merge MemoryStore.store kept others) scanned = (.ok (), merged) ∧
              Action.runOn (find MemoryStore.store s today days includeFuzzy) merged =
                (.ok again, rescanned) ∧
              (∀ h ∈ again, h.key ≠ g.key) ∧
              ∃ c ∈ m.rows, ∃ d ∈ merged.rows, c.contactId = kept ∧
                d = mergeInto c (m.rows.filter fun e => e.contactId ∈ others) ∧
                d.contactId = kept ∧ d.id = c.id) := by
  have hscanned : (m.noted .list).failing = none := hworks
  refine ⟨_, _, find_served (not_refused hworks _) s today days includeFuzzy, ?_⟩
  intro g hg
  constructor
  · rintro act (rfl | rfl)
    · refine ⟨_, _, _, archive_group_served hscanned g,
        find_served ?_ s today days includeFuzzy, ?_⟩
      · exact not_refused hscanned _
      · exact resolves_of_recent hg (recent_customers_archive today days g.contactIds m.rows)
    · refine ⟨_, _, _, delete_group_served hscanned g,
        find_served ?_ s today days includeFuzzy, ?_⟩
      · exact not_refused hscanned _
      · exact resolves_of_recent hg (recent_customers_delete today days g.contactIds m.rows)
  · intro hids hcontacts hpositive kept hkept others hothers
    obtain ⟨merged, hrun, hfine, hgone, hrow⟩ :=
      folding_group_resolves hscanned hids hcontacts hpositive hg hkept hothers
    exact ⟨_, _, _, hrun, find_served (not_refused hfine _) s today days includeFuzzy, hgone, hrow⟩

/-- Three customers of one phone number. -/
def threeOfOneNumber : List Customer :=
  [1, 2, 3].map fun number =>
    { numberedRow number none with contactNumber := some "010-1234-5678" }

theorem resolved_group_of_three :
    let s := { Settings.default with scoreThreshold := 0 }
    let search := find MemoryStore.store s (.newYear 2025) 30 true
    (MemoryStore.ofRows threeOfOneNumber).failing = none ∧
      ∃ groups scanned,
        Action.runOn search (MemoryStore.ofRows threeOfOneNumber) = (.ok groups, scanned) ∧
        ∃ g ∈ groups, g.key = "01012345678" ∧
          (∃ acted again rescanned,
            Action.runOn (archiveGroup MemoryStore.store g) scanned = (.ok (), acted) ∧
            Action.runOn search acted = (.ok again, rescanned) ∧ Resolves g groups again) ∧
          ∃ merged again rescanned,
            Action.runOn (merge MemoryStore.store 2 [1, 3]) scanned = (.ok (), merged) ∧
            Action.runOn search merged = (.ok again, rescanned) ∧
            (∀ h ∈ again, h.key ≠ g.key) ∧ ∃ d ∈ merged.rows, d.contactId = 2 := by
  intro s search
  obtain ⟨groups, scanned, hfind, hact⟩ := acting_on_group_resolves
    (m := MemoryStore.ofRows threeOfOneNumber) rfl s (.newYear 2025) 30 true
  have hscan : scan s (.newYear 2025) 30 true threeOfOneNumber = groups :=
    Except.ok.inj ((find_in_memory s _ 30 true _).symm.trans (congrArg Prod.fst hfind))
  have hrows : (threeOfOneNumber.filter fun c => Recent (.newYear 2025) 30 c ∧
      normalizeDigits c.contactNumber = "01012345678".toList) = threeOfOneNumber := by
    decide +kernel
  have hshared : SharedNumber s (.newYear 2025) 30 threeOfOneNumber "01012345678".toList
      threeOfOneNumber := by
    refine ⟨by decide, ?_, by decide, Int.natCast_nonneg _⟩
    rw [hrows]
    exact ⟨List.Perm.refl _, by decide +kernel, fun _ => rfl⟩
  obtain ⟨g, hg, -, hkey, -, hshows⟩ := exists_mem_scan_of_shared_number true hshared
  rw [hscan] at hg
  have hcontacts : g.contactIds = [1, 2, 3] := hshows.contactIds
  obtain ⟨hresolves, hfolds⟩ := hact g hg
  obtain ⟨merged, again, rescanned, hmerge, hagain, hgone, -, -, d, hd, -, -, hkept, -⟩ :=
    hfolds (by decide) (by decide) (by decide) 2 (by rw [hcontacts]; decide) [1, 3] (by
      intro id
      rw [hcontacts]
      simp only [List.mem_cons, List.not_mem_nil, or_false]
      omega)
  exact ⟨rfl, groups, scanned, hfind, g, hg, hkey, hresolves _ (.inl rfl),
    merged, again, rescanned, hmerge, hagain, hgone, d, hd, hkept⟩

end CustomerDedupe.Duplicates
