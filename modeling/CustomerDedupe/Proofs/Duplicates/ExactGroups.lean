import CustomerDedupe.Proofs.Duplicates.Find
import CustomerDedupe.Proofs.Duplicates.Groups

/-!
# Exact groups are sound and complete

`SharedNumber` says, without the buckets of a scan, which recent rows make an exact group.
`exact_groups_iff_shared_number` says that a search returns these groups and no others, each
with all its rows.
-/

namespace CustomerDedupe.Duplicates

open Calendar (Date)

/-- A row is recent if it is not archived and was assigned at most as many days ago as the
window has, which lies between 1 and 365. -/
def Recent (today : Date) (days : Int) (c : Customer) : Prop :=
  c.isArchived = false ∧ today.daysBefore (max 1 (min days 365)).toNat ≤ c.assignedDate.date

instance (today : Date) (days : Int) (c : Customer) : Decidable (Recent today days c) :=
  inferInstanceAs (Decidable (_ ∧ _))

/-- Moving a number between two bounds takes the greater of the lower bound and the lesser of
the number and the upper bound. -/
theorem clamp_eq {low high : Int} (h : low ≤ high) (n : Int) :
    clamp low high n = max low (min n high) := by
  unfold clamp
  split
  · omega
  · split <;> omega

/-- The customers that a scan looks at are the recent rows. -/
theorem recent_customers_eq (today : Date) (days : Int) (table : List Customer) :
    recentCustomers today days table = table.filter fun c => Recent today days c := by
  have hwindow : window days = (max 1 (min days 365)).toNat := by
    rw [window, clamp_eq (by decide)]
    rfl
  unfold recentCustomers
  congr 1
  funext c
  rw [isRecent, cutoff, hwindow, Bool.eq_iff_iff, Bool.and_eq_true, Bool.not_eq_true',
    decide_eq_true_eq, decide_eq_true_eq]
  rfl

/-- The threshold in tenths is ten times the threshold moved between 0 and 100. -/
theorem threshold_tenths_le_iff (s : Settings) (score : Nat) :
    thresholdTenths s ≤ score ↔ 10 * max 0 (min s.scoreThreshold 100) ≤ (score : Int) := by
  rw [thresholdTenths, clamp_eq (by decide)]
  omega

/-- `members` are all recent rows of one phone number, the one assigned last first. There are
at least two of them, and their score reaches the threshold. -/
structure SharedNumber (s : Settings) (today : Date) (days : Int) (table : List Customer)
    (number : List Char) (members : List Customer) : Prop where
  number_ne_nil : number ≠ []
  listed : ListedNewestFirst
    (table.filter fun c => Recent today days c ∧ normalizeDigits c.contactNumber = number) members
  two_le_length : 2 ≤ members.length
  threshold_le : 10 * max 0 (min s.scoreThreshold 100) ≤ (computeScore s members : Int)

/-- The customers that a scan looks at and that have a property are the recent rows that have
it. -/
theorem filter_recent (today : Date) (days : Int) (table : List Customer) (p : Customer → Prop)
    [DecidablePred p] :
    ((recentCustomers today days table).filter fun c => p c) =
      table.filter fun c => Recent today days c ∧ p c := by
  rw [recent_customers_eq, List.filter_filter]
  refine List.filter_congr ?_
  intro c _
  rw [Bool.eq_iff_iff, Bool.and_eq_true, decide_eq_true_eq, decide_eq_true_eq, decide_eq_true_eq]
  exact and_comm

/-- The rows of a number among the customers that a scan looks at. -/
theorem number_rows_recent (today : Date) (days : Int) (table : List Customer)
    (number : List Char) :
    numberRows (recentCustomers today days table) number =
      table.filter fun c => Recent today days c ∧ normalizeDigits c.contactNumber = number :=
  filter_recent today days table fun c => exactKey c = number

/-- The exact groups of a scan are the exact groups of the recent rows that reach the
threshold. -/
theorem mem_scan_exact {s : Settings} {today : Date} {days : Int} {includeFuzzy : Bool}
    {table : List Customer} {g : Group} :
    g ∈ scan s today days includeFuzzy table ∧ g.kind = .exact ↔
      g ∈ exactGroups s (recentCustomers today days table) ∧ thresholdTenths s ≤ g.score := by
  rw [mem_scan, ← filter_exact_all_groups s _ includeFuzzy, List.mem_filter, decide_eq_true_eq]
  exact and_right_comm

/-- An exact group that a scan returns shows all recent rows of its number. -/
theorem shared_number_of_mem_scan {s : Settings} {today : Date} {days : Int}
    {includeFuzzy : Bool} {table : List Customer} {g : Group}
    (h : g ∈ scan s today days includeFuzzy table) (hkind : g.kind = .exact) :
    ∃ number members, SharedNumber s today days table number members ∧
      g.key = String.ofList number ∧ g.display = String.ofList number ∧ g.Shows s members := by
  obtain ⟨hgroup, hscore⟩ := mem_scan_exact.mp ⟨h, hkind⟩
  obtain ⟨number, hnumber, htwo, hbuild⟩ := mem_exact_groups.mp hgroup
  obtain ⟨hkey, hdisplay, -, hshows⟩ := build_shows hbuild
  rw [number_rows_recent] at htwo hshows
  refine ⟨number, _, ⟨hnumber, newest_first_listed _, ?_, ?_⟩, hkey, hdisplay, hshows⟩
  · rw [length_newest_first]
    exact htwo
  · rw [← threshold_tenths_le_iff, ← hshows.score]
    exact hscore

/-- The rows of a shared number make an exact group that the scan returns. -/
theorem exists_mem_scan_of_shared_number {s : Settings} {today : Date} {days : Int}
    (includeFuzzy : Bool) {table : List Customer} {number : List Char} {members : List Customer}
    (h : SharedNumber s today days table number members) :
    ∃ g ∈ scan s today days includeFuzzy table, g.kind = .exact ∧
      g.key = String.ofList number ∧ g.display = String.ofList number ∧ g.Shows s members := by
  have hrows := number_rows_recent today days table number
  have hmembers := h.listed.unique
  have htwo : 2 ≤ (numberRows (recentCustomers today days table) number).length := by
    rw [hrows, ← h.listed.perm.length_eq]
    exact h.two_le_length
  obtain ⟨g, hbuild⟩ := exists_build s (String.ofList number) (String.ofList number) .exact
    (ne_nil_of_two_le htwo)
  obtain ⟨hkey, hdisplay, hkind, hshows⟩ := build_shows hbuild
  rw [hrows, ← hmembers] at hshows
  have hscore : thresholdTenths s ≤ g.score := by
    rw [threshold_tenths_le_iff, hshows.score]
    exact h.threshold_le
  have hgroup := mem_exact_groups.mpr ⟨number, h.number_ne_nil, htwo, hbuild⟩
  exact ⟨g, (mem_scan_exact.mpr ⟨hgroup, hscore⟩).1, hkind, hkey, hdisplay, hshows⟩

/-- No two exact groups of a scan have one key. -/
theorem scan_exact_keys_nodup (s : Settings) (today : Date) (days : Int) (includeFuzzy : Bool)
    (table : List Customer) :
    (((scan s today days includeFuzzy table).filter fun g => g.kind = .exact).map
      Group.key).Nodup := by
  have hperm := ((scan_perm s today days includeFuzzy table).filter
    fun g => decide (g.kind = .exact)).map Group.key
  rw [hperm.nodup_iff, filter_threshold_comm, filter_exact_all_groups]
  exact (exact_groups_keys_nodup s _).sublist (List.filter_sublist.map _)

/-- No row has two numbers, so the members of different numbers have none in common. -/
theorem SharedNumber.number_unique {s : Settings} {today : Date} {days : Int}
    {table : List Customer} {number number' : List Char} {members members' : List Customer}
    (h : SharedNumber s today days table number members)
    (h' : SharedNumber s today days table number' members') {c : Customer}
    (hc : c ∈ members) (hc' : c ∈ members') : number = number' := by
  have hrow := List.mem_filter.mp (h.listed.perm.mem_iff.mp hc)
  have hrow' := List.mem_filter.mp (h'.listed.perm.mem_iff.mp hc')
  exact (of_decide_eq_true hrow.2).2.symm.trans (of_decide_eq_true hrow'.2).2

/-- The exact groups that a search of a table returns are those of the numbers that at least
two recent rows share and whose score reaches the threshold: one group for each such number,
whose key and text are the number and which shows all its rows, each once, from the last
assignment to the first. A row is a member of at most one of them. -/
theorem exact_groups_iff_shared_number (s : Settings) (today : Date) (days : Int)
    (includeFuzzy : Bool) (table : List Customer) :
    ∃ groups,
      (Action.runOn (find MemoryStore.store s today days includeFuzzy)
        (MemoryStore.ofRows table)).1 = .ok groups ∧
      ((groups.filter fun g => g.kind = .exact).map Group.key).Nodup ∧
      (∀ g ∈ groups, g.kind = .exact →
        ∃ number members, SharedNumber s today days table number members ∧
          g.key = String.ofList number ∧ g.display = String.ofList number ∧
          g.Shows s members) ∧
      (∀ number members, SharedNumber s today days table number members →
        ∃ g ∈ groups, g.kind = .exact ∧ g.key = String.ofList number ∧
          g.display = String.ofList number ∧ g.Shows s members) ∧
      (∀ c number number' members members',
        SharedNumber s today days table number members →
        SharedNumber s today days table number' members' →
        c ∈ members → c ∈ members' → number = number') := by
  refine ⟨_, find_in_memory s today days includeFuzzy table,
    scan_exact_keys_nodup s today days includeFuzzy table, ?_, ?_, ?_⟩
  · intro g hg hkind
    exact shared_number_of_mem_scan hg hkind
  · intro number members h
    exact exists_mem_scan_of_shared_number includeFuzzy h
  · intro c number number' members members' h h' hc hc'
    exact h.number_unique h' hc hc'

end CustomerDedupe.Duplicates
