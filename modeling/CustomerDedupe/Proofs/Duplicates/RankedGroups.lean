import CustomerDedupe.Proofs.Duplicates.CoveredGroups
import CustomerDedupe.Proofs.Duplicates.Ranking
import CustomerDedupe.Proofs.Duplicates.ScoreParts

/-!
# The groups of a search in their order

Before ranking, groups stand in the order of their keys, numbers before pairs
(`all_groups_ascending`), so no two of them have one key and ranking leaves tied groups in this
order. `Group.Shows.led_by_newest` says that a group lists first the member with which scoring
compares the others. The main result, `groups_ranked_with_distinct_keys`, says this of every search.
-/

namespace CustomerDedupe.Duplicates

open Calendar (Date Instant)

/-! ## Groups in the order of their keys -/

namespace SharedKey

/-- The order of keys: numbers stand before pairs, numbers in the order of their digits, and
pairs in that of the last four digits and then of the beginning of the name. -/
def Before : SharedKey → SharedKey → Prop
  | number ds, number ds' => ds < ds'
  | number _, pair _ => True
  | pair _, number _ => False
  | pair key, pair key' => key.1 < key'.1 ∨ key.1 = key'.1 ∧ key.2 < key'.2

/-- No key stands before itself. -/
theorem not_before_self (k : SharedKey) : ¬k.Before k := by
  cases k with
  | number ds => exact List.lt_irrefl ds
  | pair key =>
      rintro (h | ⟨-, h⟩)
      · exact List.lt_irrefl key.1 h
      · exact List.lt_irrefl key.2 h

/-- Two groups are of keys of which the first stands before the second. -/
def Ascend (s : Settings) (recent : List Customer) (a b : Group) : Prop :=
  ∃ k l : SharedKey, k.IsGroup s recent a ∧ l.IsGroup s recent b ∧ k.Before l

/-- Exact groups stand in the order of their numbers. -/
theorem exact_groups_ascending (s : Settings) (recent : List Customer) :
    (exactGroups s recent).Pairwise (Ascend s recent) := by
  refine Buckets.pairwise_filter_map_gather chars_key_order exactKey recent (exactGroup? s) ?_
  intro ds ds' a b hbefore ha hb
  obtain ⟨hdigits, htwo, hbuild⟩ := exact_group_eq_some_iff.mp ha
  obtain ⟨hdigits', htwo', hbuild'⟩ := exact_group_eq_some_iff.mp hb
  have hlt : ds < ds' := of_decide_eq_true hbefore
  exact ⟨number ds, number ds', ⟨hdigits, htwo, hbuild⟩, ⟨hdigits', htwo', hbuild'⟩, hlt⟩

/-- Fuzzy candidates stand in the order of their pairs. -/
theorem candidates_ascending (s : Settings) (recent : List Customer) :
    ((Buckets.gather fuzzyBefore fuzzyKey recent).filterMap (fuzzyCandidate? s)).Pairwise
      (Ascend s recent) := by
  refine Buckets.pairwise_filter_map_gather fuzzy_key_order fuzzyKey recent
    (fuzzyCandidate? s) ?_
  intro key key' a b hbefore ha hb
  obtain ⟨hdigits, htwo, hbuild⟩ := fuzzy_candidate_eq_some_iff.mp ha
  obtain ⟨hdigits', htwo', hbuild'⟩ := fuzzy_candidate_eq_some_iff.mp hb
  exact ⟨pair key, pair key', ⟨hdigits, htwo, hbuild⟩, ⟨hdigits', htwo', hbuild'⟩,
    fuzzy_before_iff.mp hbefore⟩

/-- All groups stand in the order of their keys before they are ranked. -/
theorem all_groups_ascending (s : Settings) (recent : List Customer) (includeFuzzy : Bool) :
    (allGroups s recent includeFuzzy).Pairwise (Ascend s recent) := by
  cases includeFuzzy with
  | false => exact exact_groups_ascending s recent
  | true =>
      obtain ⟨fuzzy, hfold, hsub⟩ := fold_add_fuzzy_append s
        (Buckets.gather fuzzyBefore fuzzyKey recent) (exactGroups s recent)
      rw [allGroups, if_pos rfl, hfold, List.pairwise_append]
      refine ⟨exact_groups_ascending s recent, (candidates_ascending s recent).sublist hsub, ?_⟩
      intro a ha b hb
      obtain ⟨ds, hds⟩ := mem_exact_groups_iff.mp ha
      obtain ⟨key, hkey⟩ := mem_candidates_iff.mp (hsub.subset hb)
      exact ⟨number ds, pair key, hds, hkey, trivial⟩

/-- Groups of different keys are written with different keys. -/
theorem Ascend.key_ne {s : Settings} {recent : List Customer} {a b : Group}
    (h : Ascend s recent a b) : a.key ≠ b.key := by
  obtain ⟨k, l, hk, hl, hbefore⟩ := h
  intro heq
  obtain rfl := hk.key_unique hl heq
  exact k.not_before_self hbefore

end SharedKey

/-- No two groups of a scan have one key, of whatever kinds they are. -/
theorem scan_keys_nodup (s : Settings) (today : Date) (days : Int) (includeFuzzy : Bool)
    (table : List Customer) :
    ((scan s today days includeFuzzy table).map Group.key).Nodup := by
  have hall := SharedKey.all_groups_ascending s (recentCustomers today days table) includeFuzzy
  rw [((scan_perm s today days includeFuzzy table).map Group.key).nodup_iff, List.Nodup,
    List.pairwise_map]
  exact (hall.filter _).imp SharedKey.Ascend.key_ne

/-- Where keys are distinct, the group of a key is the only one with it. -/
theorem group_of_eq_some_iff {groups : List Group} (hkeys : (groups.map Group.key).Nodup)
    {key : String} {g : Group} : groupOf? groups key = some g ↔ g ∈ groups ∧ g.key = key := by
  constructor
  · intro hfind
    exact ⟨List.mem_of_find?_eq_some hfind, by simpa using List.find?_some hfind⟩
  · rintro ⟨hg, rfl⟩
    obtain ⟨h, hh⟩ := Option.isSome_iff_exists.mp
      (List.find?_isSome (p := fun h : Group => h.key == g.key).mpr ⟨g, hg, by simp⟩)
    have hkey : h.key = g.key := by simpa using List.find?_some hh
    rw [groupOf?, hh, List.inj_on_of_nodup_map hkeys (List.mem_of_find?_eq_some hh) hg hkey]

/-! ## Groups in the order of their rank -/

/-- A group ranks above another: its score is higher, or the scores are equal and it is larger,
or the sizes are equal as well and its latest assignment is later. -/
def Group.Above (a b : Group) : Prop :=
  b.score < a.score ∨ a.score = b.score ∧
    (b.count < a.count ∨ a.count = b.count ∧ b.latestAssigned < a.latestAssigned)

/-- Two groups rank alike. -/
def Group.Level (a b : Group) : Prop :=
  a.score = b.score ∧ a.count = b.count ∧ a.latestAssigned = b.latestAssigned

/-- A group that may stand before another ranks above it, or both rank alike and the other
might as well stand before. -/
theorem above_or_level {a b : Group} (h : ranksBefore a b = true) :
    a.Above b ∨ a.Level b ∧ ranksBefore b a = true := by
  rw [ranks_before_iff] at h ⊢
  rcases h with hscore | ⟨hscore, hcount | ⟨hcount, hlatest⟩⟩
  · exact .inl (.inl hscore)
  · exact .inl (.inr ⟨hscore, .inl hcount⟩)
  · rcases Int.lt_or_eq_of_le hlatest with hlater | hsame
    · exact .inl (.inr ⟨hscore, .inr ⟨hcount, hlater⟩⟩)
    · refine .inr ⟨⟨hscore, hcount, (Instant.rank_injective hsame).symm⟩, ?_⟩
      exact .inr ⟨hscore.symm, .inr ⟨hcount.symm, Int.le_of_eq hsame.symm⟩⟩

/-- The groups of a scan stand in the order of their rank, and those that rank alike in the order
of their keys. -/
theorem scan_ranked (s : Settings) (today : Date) (days : Int) (includeFuzzy : Bool)
    (table : List Customer) :
    (scan s today days includeFuzzy table).Pairwise fun a b => a.Above b ∨
      a.Level b ∧ SharedKey.Ascend s (recentCustomers today days table) a b := by
  have hall := SharedKey.all_groups_ascending s (recentCustomers today days table) includeFuzzy
  refine (ranks_preference.pairwise_merge_sort_of_pairwise (hall.filter _)).imp ?_
  rintro a b ⟨hrank, hties⟩
  exact (above_or_level hrank).imp_right fun ⟨hlevel, hback⟩ => ⟨hlevel, hties hback⟩

/-! ## The groups of a search -/

/-- The group counts its members, of which there are at least two, lists them from the last
assignment to the first, and takes its date and name from the first of them, with which scoring
compares the others. -/
structure Group.LedByNewest (s : Settings) (members : List Customer) (g : Group) : Prop where
  count_contacts : g.count = g.contactIds.length
  count_candidates : g.count = g.candidates.length
  two_le_count : 2 ≤ g.count
  descending : g.candidates.Pairwise fun a b => b.assignedDate ≤ a.assignedDate
  led : ∃ newest rest, members = newest :: rest ∧
    g.candidates.head? = some (Candidate.ofCustomer newest) ∧
    g.latestAssigned = newest.assignedDate ∧ g.sampleName = newest.customerName ∧
    splitReference newest rest = (newest, rest) ∧ g.score = scoreAgainst s newest rest

/-- A group that shows at least two members from the last assignment to the first is led by the
newest. -/
theorem Group.Shows.led_by_newest {s : Settings} {members : List Customer} {g : Group}
    (h : g.Shows s members) (htwo : 2 ≤ members.length)
    (hdescending : members.Pairwise fun a b => b.assignedDate ≤ a.assignedDate) :
    g.LedByNewest s members := by
  obtain ⟨newest, rest, hmembers, hlatest, hname⟩ := h.newest
  refine ⟨?_, ?_, ?_, ?_, newest, rest, hmembers, ?_, hlatest, hname, ?_⟩
  · rw [h.count, h.contactIds, List.length_map]
  · rw [h.count, h.candidates, List.length_map]
  · rw [h.count]
    exact htwo
  · rw [h.candidates, List.pairwise_map]
    exact hdescending
  · rw [h.candidates, hmembers]
    rfl
  · rw [hmembers] at hdescending htwo
    have holder := (List.pairwise_cons.mp hdescending).1
    have hrest : rest ≠ [] := by
      rintro rfl
      exact Nat.not_succ_le_self 1 htwo
    rw [h.score, hmembers]
    exact ⟨split_reference_newest holder, compute_score_newest s hrest holder⟩

/-- The group is that of a key and shows all its recent rows. -/
def SharedKey.GroupedAs (k : SharedKey) (s : Settings) (today : Date) (days : Int)
    (table : List Customer) (g : Group) : Prop :=
  ∃ members, k.Gathers today days table members ∧ k.ShownBy s members g

/-- A search ranks its groups by score, then by size, then by their latest assignment, the
highest first; groups alike in all three stand in the order of their keys, exact groups before
fuzzy ones. Every group shows at least two members, counts them, lists them from the last
assignment to the first, and takes its date and name from the first, with which scoring compares
the others. No two groups have one key, whatever their kinds, so the group that is found by a key
is the only one with it. -/
theorem groups_ranked_with_distinct_keys (s : Settings) (today : Date) (days : Int)
    (includeFuzzy : Bool) (table : List Customer) :
    ∃ groups,
      (Action.runOn (find MemoryStore.store s today days includeFuzzy)
        (MemoryStore.ofRows table)).1 = .ok groups ∧
      (groups.Pairwise fun a b => a.Above b ∨ a.Level b ∧
        ∃ k l : SharedKey, k.GroupedAs s today days table a ∧ l.GroupedAs s today days table b ∧
          k.Before l) ∧
      (∀ g ∈ groups, ∃ (k : SharedKey) (members : List Customer),
        k.Gathers today days table members ∧ k.ShownBy s members g ∧ g.LedByNewest s members) ∧
      (groups.map Group.key).Nodup ∧
      ∀ key g, groupOf? groups key = some g ↔ g ∈ groups ∧ g.key = key := by
  have hkeys := scan_keys_nodup s today days includeFuzzy table
  refine ⟨_, find_in_memory s today days includeFuzzy table, ?_, ?_, hkeys,
    fun key g => group_of_eq_some_iff hkeys⟩
  · refine (scan_ranked s today days includeFuzzy table).imp ?_
    intro a b h
    refine h.imp_right fun ⟨hlevel, k, l, hk, hl, hbefore⟩ => ⟨hlevel, k, l, ?_, ?_, hbefore⟩
    · exact hk.gathers
    · exact hl.gathers
  · intro g hg
    obtain ⟨k, hk⟩ := SharedKey.exists_key_of_mem_all_groups (mem_scan.mp hg).1
    obtain ⟨members, hmembers, hshown⟩ := hk.gathers
    exact ⟨k, members, hmembers, hshown,
      hshown.shows.led_by_newest hmembers.two_le_length hmembers.listed.descending⟩

end CustomerDedupe.Duplicates
