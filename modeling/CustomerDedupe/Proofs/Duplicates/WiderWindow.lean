import CustomerDedupe.Proofs.Duplicates.SharedKey

/-!
# A wider window only appends older members

A window that begins earlier admits rows that are older than all that were recent before, so a
group keeps its members in their places and gains others behind them
(`newest_first_append_older`). A number that two rows share is still shared, and rows of
different numbers still differ, so no group goes away either. The main result,
`wider_window_appends_older`, compares the groups that two searches return.
-/

namespace CustomerDedupe.Duplicates

open Calendar (Date Instant)

/-! ## The rows of two windows -/

/-- A wider window begins no later. -/
theorem cutoff_antitone (today : Date) {narrow wide : Int} (h : narrow ≤ wide) :
    cutoff today wide ≤ cutoff today narrow := by
  apply Date.days_before_le
  rw [window, window, clamp_eq (by decide), clamp_eq (by decide)]
  omega

/-- The recent rows of a window are those of a wider one that its first day admits. -/
theorem recent_customers_narrow (today : Date) {narrow wide : Int} (h : narrow ≤ wide)
    (table : List Customer) :
    recentCustomers today narrow table =
      (recentCustomers today wide table).filter
        fun c => cutoff today narrow ≤ c.assignedDate.date := by
  unfold recentCustomers
  rw [List.filter_filter]
  refine List.filter_congr ?_
  intro c _
  rw [Bool.eq_iff_iff, isRecent, isRecent, Bool.and_eq_true, Bool.and_eq_true, Bool.and_eq_true,
    decide_eq_true_eq, decide_eq_true_eq]
  constructor
  · rintro ⟨hlive, hdate⟩
    exact ⟨hdate, hlive, Int.le_trans (cutoff_antitone today h) hdate⟩
  · rintro ⟨hdate, hlive, -⟩
    exact ⟨hlive, hdate⟩

/-- If no item behind one that fails a test passes it, those that pass stand first. -/
theorem filter_append_filter_not {α : Type} {p : α → Bool} {l : List α}
    (h : l.Pairwise fun a b => p b = true → p a = true) :
    l.filter p ++ l.filter (fun a => !p a) = l := by
  induction l with
  | nil => rfl
  | cons a l ih =>
      obtain ⟨hfirst, hrest⟩ := List.pairwise_cons.mp h
      by_cases ha : p a = true
      · rw [List.filter_cons_of_pos ha, List.filter_cons_of_neg (by simp [ha]),
          List.cons_append, ih hrest]
      · have hnone : l.filter p = [] :=
          List.filter_eq_nil_iff.mpr fun b hb hpb => ha (hfirst b hb hpb)
        have hall : l.filter (fun b => !p b) = l :=
          List.filter_eq_self.mpr fun b hb => by
            simpa using fun hpb => ha (hfirst b hb hpb)
        rw [List.filter_cons_of_neg ha, hnone, List.nil_append,
          List.filter_cons_of_pos (by simp [ha]), hall]

/-- Rows assigned from some day on are listed first, and behind them those assigned before. -/
theorem newest_first_append_older (first : Date) (rows : List Customer) :
    ∃ older, newestFirst rows =
        newestFirst (rows.filter fun c => first ≤ c.assignedDate.date) ++ older ∧
      ∀ c ∈ older, ∀ d ∈ newestFirst (rows.filter fun c => first ≤ c.assignedDate.date),
        c.assignedDate < d.assignedDate := by
  have hsplit := filter_append_filter_not (p := fun c : Customer =>
    decide (first ≤ c.assignedDate.date)) ((newest_first_listed rows).descending.imp
      fun hle hb => decide_eq_true
        (Int.le_trans (of_decide_eq_true hb) (Instant.date_le_of_le hle)))
  rw [newest_first_filter]
  refine ⟨_, hsplit.symm, ?_⟩
  intro c hc d hd
  have hearly : ¬first ≤ c.assignedDate.date := by simpa using (List.mem_filter.mp hc).2
  have hlate : first ≤ d.assignedDate.date := of_decide_eq_true (List.mem_filter.mp hd).2
  exact Instant.rank_lt_of_date_lt (Int.lt_of_lt_of_le (Int.not_le.mp hearly) hlate)

/-! ## The groups of two windows -/

/-- A group with older members appended: what it shares and what it shows of its newest member
are the same. -/
structure Group.ExtendedBy (g wider : Group) : Prop where
  key : wider.key = g.key
  kind : wider.kind = g.kind
  latestAssigned : wider.latestAssigned = g.latestAssigned
  sampleName : wider.sampleName = g.sampleName
  contactIds : g.contactIds <+: wider.contactIds
  candidates : ∃ older, wider.candidates = g.candidates ++ older ∧
    ∀ c ∈ older, ∀ d ∈ g.candidates, c.assignedDate < d.assignedDate

/-- The group of more rows of a key extends that of the rows assigned from some day on. -/
theorem SharedKey.IsGroup.extended {k : SharedKey} {s : Settings} {recent : List Customer}
    {first : Date} {g : Group}
    (h : k.IsGroup s (recent.filter fun c => first ≤ c.assignedDate.date) g) :
    ∃ wider, k.IsGroup s recent wider ∧ g.ExtendedBy wider := by
  have hrows := k.rows_filter (fun c => decide (first ≤ c.assignedDate.date)) recent
  have htwo := h.two_le_length
  rw [hrows] at htwo
  have htwo' : 2 ≤ (k.rows recent).length := Nat.le_trans htwo List.filter_sublist.length_le
  obtain ⟨wider, hbuild⟩ := exists_build s k.text k.display k.kind (ne_nil_of_two_le htwo')
  obtain ⟨hkey, -, hkind, hshows⟩ := build_shows h.built
  obtain ⟨hkey', -, hkind', hshows'⟩ := build_shows hbuild
  obtain ⟨older, happend, holder⟩ := newest_first_append_older first (k.rows recent)
  rw [hrows] at hshows
  rw [happend] at hshows'
  refine ⟨wider, ⟨h.digits_ne_nil, htwo', hbuild⟩, hkey'.trans hkey.symm,
    hkind'.trans hkind.symm, ?_, ?_, ?_, older.map Candidate.ofCustomer, ?_, ?_⟩
  · obtain ⟨c, rest, hmembers, hlatest, -⟩ := hshows.newest
    obtain ⟨c', rest', hmembers', hlatest', -⟩ := hshows'.newest
    rw [hmembers, List.cons_append] at hmembers'
    rw [hlatest, hlatest', (List.cons.inj hmembers').1]
  · obtain ⟨c, rest, hmembers, -, hname⟩ := hshows.newest
    obtain ⟨c', rest', hmembers', -, hname'⟩ := hshows'.newest
    rw [hmembers, List.cons_append] at hmembers'
    rw [hname, hname', (List.cons.inj hmembers').1]
  · rw [hshows.contactIds, hshows'.contactIds, List.map_append]
    exact List.prefix_append _ _
  · rw [hshows.candidates, hshows'.candidates, List.map_append]
  · rw [hshows.candidates]
    intro _ hc _ hd
    obtain ⟨c, hc', rfl⟩ := List.mem_map.mp hc
    obtain ⟨d, hd', rfl⟩ := List.mem_map.mp hd
    exact holder c hc' d hd'

/-- Rows of which two differ in their number still do among more rows. -/
theorem not_share_number_mono {rows more : List Customer} (hsub : rows ⊆ more)
    (h : ¬ShareNumber rows) : ¬ShareNumber more :=
  fun hshare => h fun c hc d hd => hshare c (hsub hc) d (hsub hd)

section NoThreshold

variable {s : Settings} {today : Date} {narrow wide : Int} {table : List Customer}
  (hthreshold : s.scoreThreshold ≤ 0) (hle : narrow ≤ wide)

include hthreshold hle

/-- An exact group of a scan is extended by one of the scan of a wider window. -/
theorem exact_group_extended {includeFuzzy : Bool} {g : Group}
    (hg : g ∈ scan s today narrow includeFuzzy table) (hkind : g.kind = .exact) :
    ∃ wider ∈ scan s today wide includeFuzzy table, g.ExtendedBy wider := by
  obtain ⟨hgroup, -⟩ := mem_scan_exact.mp ⟨hg, hkind⟩
  obtain ⟨digits, hdigits⟩ := SharedKey.mem_exact_groups_iff.mp hgroup
  rw [recent_customers_narrow today hle] at hdigits
  obtain ⟨wider, hwider, hextended⟩ := hdigits.extended
  have hscore : thresholdTenths s ≤ wider.score := by
    rw [threshold_tenths_eq_zero hthreshold]
    exact Nat.zero_le _
  have hmem : wider ∈ scan s today wide includeFuzzy table ∧ wider.kind = .exact :=
    mem_scan_exact.mpr ⟨SharedKey.mem_exact_groups_iff.mpr ⟨digits, hwider⟩, hscore⟩
  exact ⟨wider, hmem.1, hextended⟩

/-- If contacts are distinct, a fuzzy group of a scan is extended by one of the scan of a wider
window. -/
theorem fuzzy_group_extended (hids : (table.map Customer.contactId).Nodup) {g : Group}
    (hg : g ∈ scan s today narrow true table) (hkind : g.kind = .fuzzy) :
    ∃ wider ∈ scan s today wide true table, g.ExtendedBy wider := by
  have hdistinct : ∀ days,
      ((table.filter fun c => Recent today days c).map Customer.contactId).Nodup :=
    fun days => hids.sublist (List.filter_sublist.map _)
  obtain ⟨key, hdigits, htwo, hdiffer, hbuild⟩ :=
    (mem_scan_fuzzy hthreshold (hdistinct narrow)).mp ⟨hg, hkind⟩
  have hgroup : (SharedKey.pair key).IsGroup s (recentCustomers today narrow table) g :=
    ⟨hdigits, htwo, hbuild⟩
  have hsub : pairRows (recentCustomers today narrow table) key ⊆
      pairRows (recentCustomers today wide table) key := by
    rw [recent_customers_narrow today hle]
    exact (List.filter_sublist.filter _).subset
  rw [recent_customers_narrow today hle] at hgroup
  obtain ⟨wider, hwider, hextended⟩ := hgroup.extended
  have hmem := (mem_scan_fuzzy hthreshold (hdistinct wide)).mpr
    ⟨key, hdigits, hwider.two_le_length, not_share_number_mono hsub hdiffer, hwider.built⟩
  exact ⟨wider, hmem.1, hextended⟩

end NoThreshold

/-- If contacts are distinct and no group is dropped for its score, a search of a wider window
returns for every group of a narrower one a group of the same key and kind, with the same latest
assignment and sample name, whose contacts begin with those of the first. The members that it has
in addition were all assigned before the others. -/
theorem wider_window_appends_older {table : List Customer}
    (hids : (table.map Customer.contactId).Nodup) {s : Settings} (hthreshold : s.scoreThreshold ≤ 0)
    (today : Date) {narrow wide : Int} (hle : narrow ≤ wide) (includeFuzzy : Bool) :
    ∃ groups more,
      (Action.runOn (find MemoryStore.store s today narrow includeFuzzy)
        (MemoryStore.ofRows table)).1 = .ok groups ∧
      (Action.runOn (find MemoryStore.store s today wide includeFuzzy)
        (MemoryStore.ofRows table)).1 = .ok more ∧
      ∀ g ∈ groups, ∃ wider ∈ more, g.ExtendedBy wider := by
  refine ⟨_, _, find_in_memory s today narrow includeFuzzy table,
    find_in_memory s today wide includeFuzzy table, ?_⟩
  intro g hg
  cases hkind : g.kind with
  | exact => exact exact_group_extended hthreshold hle hg hkind
  | fuzzy =>
      cases includeFuzzy with
      | false =>
          -- without the fuzzy search there are only exact groups
          have hexact := kind_of_mem_exact_groups (mem_scan.mp hg).1
          rw [hkind] at hexact
          cases hexact
      | true => exact fuzzy_group_extended hthreshold hle hids hg hkind

/-- A customer assigned in January whose number ends like those of the two assigned in March. -/
def assignedEarlier : Customer :=
  { Customer.assigned 3 (.midnight (.newYear 2025)) with
      customerName := some "Kim Sora", contactNumber := some "031-777-5678" }

theorem fuzzy_group_extended_by_earlier :
    let s := { Settings.default with scoreThreshold := 0 }
    let today : Date := ⟨2025, 3, 10, by decide, by decide, by decide, by decide⟩
    let table := assignedEarlier :: sameEnding
    (table.map Customer.contactId).Nodup ∧ s.scoreThreshold ≤ 0 ∧ (5 : Int) ≤ 400 ∧
      ∃ groups more,
        (Action.runOn (find MemoryStore.store s today 5 true) (MemoryStore.ofRows table)).1 =
          .ok groups ∧
        (Action.runOn (find MemoryStore.store s today 400 true) (MemoryStore.ofRows table)).1 =
          .ok more ∧
        ∃ g ∈ groups, g.kind = .fuzzy ∧ g.contactIds = [1, 2] ∧
          ∃ wider ∈ more, g.ExtendedBy wider := by
  intro s today table
  have hids : (table.map Customer.contactId).Nodup := by decide
  have hrecent : ((table.filter fun c => Recent today 5 c).map Customer.contactId).Nodup :=
    hids.sublist (List.filter_sublist.map _)
  have hrows : (table.filter fun c => Recent today 5 c ∧
      lastFour c.contactNumber = ['5', '6', '7', '8'] ∧
      namePrefix c.customerName = ['k', 'i']) = sameEnding := by
    decide +kernel
  have hordered : sameEnding.Pairwise fun a b => b.assignedDate ≤ a.assignedDate := by
    decide +kernel
  have hpair : SharedPair today 5 table ['5', '6', '7', '8'] ['k', 'i'] sameEnding := by
    refine ⟨by decide, ?_, by decide, by decide +kernel⟩
    rw [hrows]
    exact ⟨List.Perm.refl _, hordered, fun _ => rfl⟩
  obtain ⟨groups, more, hnarrow, hwide, hextended⟩ :=
    wider_window_appends_older hids (s := s) (by decide) today (by decide : (5 : Int) ≤ 400) true
  have hscan : scan s today 5 true table = groups :=
    Except.ok.inj ((find_in_memory s today 5 true table).symm.trans hnarrow)
  obtain ⟨g, hg, hkind, -, hshows⟩ :=
    exists_mem_scan_of_shared_pair (s := s) (by decide) hrecent hpair
  rw [hscan] at hg
  exact ⟨hids, by decide, by decide, groups, more, hnarrow, hwide, g, hg, hkind,
    hshows.contactIds, hextended g hg⟩

end CustomerDedupe.Duplicates
