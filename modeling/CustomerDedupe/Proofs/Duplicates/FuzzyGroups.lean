import Mathlib.Data.List.Basic
import Mathlib.Data.List.Nodup
import CustomerDedupe.Proofs.Duplicates.ExactGroups
import CustomerDedupe.Proofs.Duplicates.Keys

/-!
# Fuzzy groups are the ones that no phone number explains

A fuzzy group is left out when its contacts are all in one group found before. If contacts are
distinct, `covered_iff_share_number` says that this happens exactly when its members share a
number: the group found before is then exact, never fuzzy. `fold_add_fuzzy_eq` follows the loop
with this test, and `fuzzy_groups_iff_numbers_differ` says which fuzzy groups a search returns.
-/

namespace CustomerDedupe.Duplicates

open Calendar (Date)

/-- The customers of a fuzzy key. -/
def pairRows (recent : List Customer) (key : FuzzyKey) : List Customer :=
  recent.filter fun c => fuzzyKey c = key

/-- The last four digits that customers have contain no colon. -/
theorem colon_not_mem_of_pair_rows {recent : List Customer} {key : FuzzyKey}
    (h : pairRows recent key ≠ []) : ':' ∉ key.1 := by
  obtain ⟨c, hc⟩ := List.exists_mem_of_ne_nil _ h
  have hkey : fuzzyKey c = key := of_decide_eq_true (List.mem_filter.mp hc).2
  rw [← hkey]
  exact colon_not_mem_last_four c.contactNumber

/-- All members have one phone number. -/
def ShareNumber (members : List Customer) : Prop :=
  ∀ c ∈ members, ∀ d ∈ members,
    normalizeDigits c.contactNumber = normalizeDigits d.contactNumber

instance (members : List Customer) : Decidable (ShareNumber members) :=
  inferInstanceAs (Decidable (∀ c ∈ members, ∀ d ∈ members, _))

/-- Contacts are covered exactly if one of the groups has them all. -/
theorem covered_iff {groups : List Group} {ids : List Int} :
    covered groups ids = true ↔ ∃ g ∈ groups, ∀ id ∈ ids, id ∈ g.contactIds := by
  simp [covered]

/-- Where contacts are distinct, a row is among others if its contact is. -/
theorem mem_of_contact_mem {recent rows : List Customer}
    (hids : (recent.map Customer.contactId).Nodup) (hrows : rows ⊆ recent) {c : Customer}
    (hc : c ∈ recent) (hcontact : c.contactId ∈ rows.map Customer.contactId) : c ∈ rows := by
  obtain ⟨d, hd, heq⟩ := List.mem_map.mp hcontact
  obtain rfl := List.inj_on_of_nodup_map hids (hrows hd) hc heq
  exact hd

/-- The contacts of a built group are those of its rows. -/
theorem mem_contact_ids_of_build {s : Settings} {key display : String} {kind : GroupKind}
    {rows : List Customer} {g : Group} (h : Group.build? s key display kind rows = some g)
    (id : Int) : id ∈ g.contactIds ↔ id ∈ rows.map Customer.contactId := by
  rw [(build_shows h).2.2.2.contactIds]
  exact ((newest_first_perm rows).map Customer.contactId).mem_iff

/-- Rows with the same last four digits that share a number are all in the exact group of this
number. -/
theorem exact_group_of_share_number (s : Settings) {recent : List Customer} {key : FuzzyKey}
    (hdigits : key.1 ≠ []) (htwo : 2 ≤ (pairRows recent key).length)
    (hshare : ShareNumber (pairRows recent key)) :
    ∃ g ∈ exactGroups s recent,
      ∀ id ∈ (pairRows recent key).map Customer.contactId, id ∈ g.contactIds := by
  obtain ⟨c, hc⟩ := List.exists_mem_of_ne_nil _ (ne_nil_of_two_le htwo)
  have hkey : fuzzyKey c = key := of_decide_eq_true (List.mem_filter.mp hc).2
  have hnumber : exactKey c ≠ [] := by
    apply normalize_digits_ne_nil
    rw [← hkey] at hdigits
    exact hdigits
  have hsub : (pairRows recent key).Sublist (numberRows recent (exactKey c)) := by
    have hmem : ∀ d ∈ pairRows recent key, exactKey d = exactKey c := fun d hd => hshare d hd c hc
    have hself : (pairRows recent key).filter (fun d => exactKey d = exactKey c) =
        pairRows recent key :=
      List.filter_eq_self.mpr fun d hd => decide_eq_true (hmem d hd)
    rw [← hself]
    exact List.filter_sublist.filter _
  obtain ⟨g, hbuild⟩ := exists_build s (String.ofList (exactKey c)) (String.ofList (exactKey c))
    .exact (List.ne_nil_of_mem (hsub.subset hc))
  refine ⟨g, mem_exact_groups.mpr ⟨exactKey c, hnumber, Nat.le_trans htwo hsub.length_le, hbuild⟩, ?_⟩
  intro id hid
  exact (mem_contact_ids_of_build hbuild id).mpr ((hsub.map _).subset hid)

/-- What the loop over the fuzzy buckets keeps true of the groups found so far, while some
buckets are pending: the exact groups are there, and every other group has the contacts of a
fuzzy key that is not pending any more. -/
structure FuzzyProgress (s : Settings) (recent : List Customer)
    (pending : Buckets FuzzyKey Customer) (found : List Group) : Prop where
  exact_mem : ∀ g ∈ exactGroups s recent, g ∈ found
  origin : ∀ g ∈ found, g ∈ exactGroups s recent ∨
    ∃ key, (∀ bucket ∈ pending, bucket.1 ≠ key) ∧
      ∀ id, id ∈ g.contactIds ↔ id ∈ (pairRows recent key).map Customer.contactId

/-- If contacts are distinct, the members of a pending bucket are covered exactly if they share
a number. -/
theorem covered_iff_share_number {s : Settings} {recent : List Customer}
    {pending : Buckets FuzzyKey Customer} {found : List Group} {key : FuzzyKey}
    {members : List Customer} (hids : (recent.map Customer.contactId).Nodup)
    (h : FuzzyProgress s recent pending found) (hbucket : (key, members) ∈ pending)
    (hmembers : members = pairRows recent key) (hdigits : key.1 ≠ [])
    (htwo : 2 ≤ members.length) :
    covered found (members.map Customer.contactId) = true ↔ ShareNumber members := by
  subst hmembers
  have hrecent : pairRows recent key ⊆ recent := List.filter_sublist.subset
  constructor
  · intro hcovered
    obtain ⟨g, hg, hall⟩ := covered_iff.mp hcovered
    rcases h.origin g hg with hexact | ⟨key', hkey', hcontacts⟩
    · obtain ⟨number, -, -, hbuild⟩ := mem_exact_groups.mp hexact
      have hnumber : ∀ c ∈ pairRows recent key, exactKey c = number := by
        intro c hc
        have hcontact := (mem_contact_ids_of_build hbuild c.contactId).mp
          (hall _ (List.mem_map_of_mem hc))
        have hrow := mem_of_contact_mem hids (List.filter_sublist.subset) (hrecent hc) hcontact
        exact of_decide_eq_true (List.mem_filter.mp hrow).2
      exact fun c hc d hd => (hnumber c hc).trans (hnumber d hd).symm
    · -- A group of another fuzzy key has none of these rows.
      obtain ⟨c, hc⟩ := List.exists_mem_of_ne_nil _ (ne_nil_of_two_le htwo)
      have hcontact := (hcontacts c.contactId).mp (hall _ (List.mem_map_of_mem hc))
      have hrow := mem_of_contact_mem hids (List.filter_sublist.subset) (hrecent hc) hcontact
      have hkey : fuzzyKey c = key := of_decide_eq_true (List.mem_filter.mp hc).2
      have hother : fuzzyKey c = key' := of_decide_eq_true (List.mem_filter.mp hrow).2
      exact absurd (hkey.symm.trans hother) (hkey' _ hbucket)
  · intro hshare
    obtain ⟨g, hg, hall⟩ := exact_group_of_share_number s hdigits htwo hshare
    exact covered_iff.mpr ⟨g, h.exact_mem g hg, hall⟩

/-- The fuzzy group of a bucket, if it has digits, at least two members, and members whose
numbers differ. -/
def unexplained? (s : Settings) (bucket : FuzzyKey × List Customer) : Option Group :=
  if bucket.1.1 = [] ∨ bucket.2.length < 2 ∨ ShareNumber bucket.2 then none
  else Group.build? s (fuzzyKeyText bucket.1) (fuzzyDisplay bucket.1) .fuzzy bucket.2

theorem unexplained_eq_some_iff {s : Settings} {key : FuzzyKey} {members : List Customer}
    {g : Group} :
    unexplained? s (key, members) = some g ↔
      key.1 ≠ [] ∧ 2 ≤ members.length ∧ ¬ShareNumber members ∧
        Group.build? s (fuzzyKeyText key) (fuzzyDisplay key) .fuzzy members = some g := by
  unfold unexplained?
  split
  · next hskip =>
    constructor
    · intro h
      cases h
    · rintro ⟨hdigits, htwo, hdiffer, -⟩
      rcases hskip with hskip | hskip | hskip
      · exact absurd hskip hdigits
      · exact absurd htwo (Nat.not_le.mpr hskip)
      · exact absurd hskip hdiffer
  · next hkeep =>
    rw [not_or, not_or, Nat.not_lt] at hkeep
    exact ⟨fun h => ⟨hkeep.1, hkeep.2.1, hkeep.2.2, h⟩, fun h => h.2.2.2⟩

/-- One turn of the loop adds the group of its bucket exactly if no number explains it. -/
theorem add_fuzzy_eq {s : Settings} {recent : List Customer}
    {pending : Buckets FuzzyKey Customer} {found : List Group} {key : FuzzyKey}
    {members : List Customer} (hids : (recent.map Customer.contactId).Nodup)
    (h : FuzzyProgress s recent pending found) (hbucket : (key, members) ∈ pending)
    (hmembers : members = pairRows recent key) :
    addFuzzy s found (key, members) = found ++ (unexplained? s (key, members)).toList := by
  rcases add_fuzzy_cases s found key members with
    ⟨hsame, hskip⟩ | ⟨hdigits, htwo, hcovered, g, hbuild, hadd⟩
  · have hnone : unexplained? s (key, members) = none := by
      by_contra hsome
      obtain ⟨g, hg⟩ := Option.ne_none_iff_exists'.mp hsome
      obtain ⟨hdigits, htwo, hdiffer, -⟩ := unexplained_eq_some_iff.mp hg
      rcases hskip with hskip | hskip | hskip
      · exact hdigits hskip
      · exact Nat.not_le.mpr hskip htwo
      · exact hdiffer ((covered_iff_share_number hids h hbucket hmembers hdigits htwo).mp hskip)
    rw [hsame, hnone, Option.toList_none, List.append_nil]
  · have hdiffer : ¬ShareNumber members := by
      rw [← covered_iff_share_number hids h hbucket hmembers hdigits htwo, hcovered]
      exact Bool.false_ne_true
    have hsome := unexplained_eq_some_iff.mpr ⟨hdigits, htwo, hdiffer, hbuild⟩
    rw [hadd, hsome, Option.toList_some]

/-- Adding the group of the first pending bucket keeps the progress. -/
theorem FuzzyProgress.next {s : Settings} {recent : List Customer}
    {rest : Buckets FuzzyKey Customer} {found : List Group} {key : FuzzyKey}
    {members : List Customer} (hmembers : members = pairRows recent key)
    (hkey : ∀ bucket ∈ rest, bucket.1 ≠ key)
    (h : FuzzyProgress s recent ((key, members) :: rest) found) :
    FuzzyProgress s recent rest (found ++ (unexplained? s (key, members)).toList) where
  exact_mem g hg := List.mem_append_left _ (h.exact_mem g hg)
  origin g hg := by
    rcases List.mem_append.mp hg with hg | hg
    · refine (h.origin g hg).imp_right ?_
      rintro ⟨key', hkey', hcontacts⟩
      exact ⟨key', fun bucket hb => hkey' bucket (List.mem_cons_of_mem _ hb), hcontacts⟩
    · obtain ⟨-, -, -, hbuild⟩ := unexplained_eq_some_iff.mp (Option.mem_toList.mp hg)
      rw [hmembers] at hbuild
      exact .inr ⟨key, hkey, mem_contact_ids_of_build hbuild⟩

/-- If contacts are distinct, the loop over the fuzzy buckets adds the groups that no number
explains, in the order of their keys. -/
theorem fold_add_fuzzy_eq {s : Settings} {recent : List Customer}
    {pending : Buckets FuzzyKey Customer} {found : List Group}
    (hids : (recent.map Customer.contactId).Nodup)
    (hkeys : (pending.map Prod.fst).Nodup)
    (hmembers : ∀ bucket ∈ pending, bucket.2 = pairRows recent bucket.1)
    (h : FuzzyProgress s recent pending found) :
    pending.foldl (addFuzzy s) found = found ++ pending.filterMap (unexplained? s) := by
  induction pending generalizing found with
  | nil => simp
  | cons bucket rest ih =>
      obtain ⟨key, members⟩ := bucket
      obtain ⟨hkey, hrest⟩ := List.nodup_cons.mp hkeys
      have hfirst : members = pairRows recent key := hmembers _ List.mem_cons_self
      have hother : ∀ bucket ∈ rest, bucket.1 ≠ key := by
        rintro bucket hb rfl
        have hmem : bucket.1 ∈ rest.map Prod.fst := List.mem_map_of_mem hb
        exact hkey hmem
      rw [List.foldl_cons, add_fuzzy_eq hids h List.mem_cons_self hfirst,
        ih hrest (fun b hb => hmembers b (List.mem_cons_of_mem _ hb))
          (h.next hfirst hother), List.append_assoc, List.filterMap_cons]
      cases unexplained? s (key, members) <;> rfl

/-- If contacts are distinct, all groups are the exact groups followed by the fuzzy groups that
no number explains. -/
theorem all_groups_eq (s : Settings) {recent : List Customer}
    (hids : (recent.map Customer.contactId).Nodup) :
    allGroups s recent true = exactGroups s recent ++
      (Buckets.gather fuzzyBefore fuzzyKey recent).filterMap (unexplained? s) := by
  rw [allGroups, if_pos rfl]
  refine fold_add_fuzzy_eq hids
    ((Buckets.ascending_gather fuzzy_key_order fuzzyKey recent).keys_nodup fuzzy_key_order) ?_ ?_
  · intro bucket hbucket
    exact ((Buckets.mem_gather fuzzy_key_order).mp hbucket).1
  · exact ⟨fun g hg => hg, fun g hg => .inl hg⟩

/-- The fuzzy groups that no number explains are those of the keys with digits that at least
two customers with different numbers share. -/
theorem mem_unexplained {s : Settings} {recent : List Customer} {g : Group} :
    g ∈ (Buckets.gather fuzzyBefore fuzzyKey recent).filterMap (unexplained? s) ↔
      ∃ key, key.1 ≠ [] ∧ 2 ≤ (pairRows recent key).length ∧
        ¬ShareNumber (pairRows recent key) ∧
        Group.build? s (fuzzyKeyText key) (fuzzyDisplay key) .fuzzy (pairRows recent key) =
          some g := by
  rw [List.mem_filterMap]
  constructor
  · rintro ⟨⟨key, members⟩, hbucket, hgroup⟩
    obtain ⟨hmembers, -⟩ := (Buckets.mem_gather fuzzy_key_order).mp hbucket
    have h := unexplained_eq_some_iff.mp hgroup
    rw [hmembers] at h
    exact ⟨key, h⟩
  · rintro ⟨key, h⟩
    have hne := ne_nil_of_two_le h.2.1
    exact ⟨(key, pairRows recent key), (Buckets.mem_gather fuzzy_key_order).mpr ⟨rfl, hne⟩,
      unexplained_eq_some_iff.mpr h⟩

/-- No two fuzzy groups that no number explains have one key. -/
theorem unexplained_keys_nodup (s : Settings) (recent : List Customer) :
    (((Buckets.gather fuzzyBefore fuzzyKey recent).filterMap (unexplained? s)).map
      Group.key).Nodup := by
  refine List.pairwise_map.mpr (Buckets.pairwise_filter_map_gather fuzzy_key_order fuzzyKey
    recent (unexplained? s) ?_)
  intro key key' g g' hbefore hg hg' heq
  obtain ⟨-, htwo, -, hbuild⟩ := unexplained_eq_some_iff.mp hg
  obtain ⟨-, htwo', -, hbuild'⟩ := unexplained_eq_some_iff.mp hg'
  rw [(build_shows hbuild).1, (build_shows hbuild').1] at heq
  have hcolon : ':' ∉ key.1 := colon_not_mem_of_pair_rows (ne_nil_of_two_le htwo)
  have hcolon' : ':' ∉ key'.1 := colon_not_mem_of_pair_rows (ne_nil_of_two_le htwo')
  exact fuzzy_key_order.ne hbefore (fuzzy_key_text_inj hcolon hcolon' heq)

/-! ## The fuzzy groups that a search returns -/

/-- `members` are all recent rows with the last four digits `tail` and the beginning of the
name `start`, the one assigned last first. There are digits and at least two rows, and not all
of them have the same number. -/
structure SharedPair (today : Date) (days : Int) (table : List Customer) (tail start : List Char)
    (members : List Customer) : Prop where
  tail_ne_nil : tail ≠ []
  listed : ListedNewestFirst
    (table.filter fun c => Recent today days c ∧ lastFour c.contactNumber = tail ∧
      namePrefix c.customerName = start) members
  two_le_length : 2 ≤ members.length
  numbers_differ : ∃ c ∈ members, ∃ d ∈ members,
    normalizeDigits c.contactNumber ≠ normalizeDigits d.contactNumber

/-- Members share a number exactly if no two of them differ in it, in whatever order they are
listed. -/
theorem not_share_number_iff {rows members : List Customer} (h : members.Perm rows) :
    ¬ShareNumber rows ↔ ∃ c ∈ members, ∃ d ∈ members,
      normalizeDigits c.contactNumber ≠ normalizeDigits d.contactNumber := by
  simp only [ShareNumber, h.mem_iff, not_forall, exists_prop, ne_eq]

/-- The rows of a fuzzy key among the customers that a scan looks at. -/
theorem pair_rows_recent (today : Date) (days : Int) (table : List Customer)
    (tail start : List Char) :
    pairRows (recentCustomers today days table) (tail, start) =
      table.filter fun c => Recent today days c ∧ lastFour c.contactNumber = tail ∧
        namePrefix c.customerName = start := by
  rw [pairRows, filter_recent]
  refine List.filter_congr ?_
  intro c _
  rw [decide_eq_decide, fuzzyKey, Prod.mk.injEq]

/-- A pair that the recent rows share is a fuzzy key that no number explains. -/
theorem SharedPair.unexplained {today : Date} {days : Int} {table : List Customer}
    {tail start : List Char} {members : List Customer}
    (h : SharedPair today days table tail start members) :
    2 ≤ (pairRows (recentCustomers today days table) (tail, start)).length ∧
      ¬ShareNumber (pairRows (recentCustomers today days table) (tail, start)) ∧
      members = newestFirst (pairRows (recentCustomers today days table) (tail, start)) := by
  rw [pair_rows_recent, ← h.listed.perm.length_eq, not_share_number_iff h.listed.perm]
  exact ⟨h.two_le_length, h.numbers_differ, h.listed.unique⟩

/-- The text of a fuzzy key: digits and beginning of the name behind a mark. -/
theorem fuzzy_key_text_eq (tail start : List Char) :
    fuzzyKeyText (tail, start) =
      "FUZZY:" ++ String.ofList tail ++ ":" ++ String.ofList start := by
  have hcolon : String.ofList [':'] = ":" := by decide
  have hmark : String.ofList "FUZZY:".toList = "FUZZY:" := String.ofList_toList
  rw [← hcolon, ← hmark, ← String.ofList_append, ← String.ofList_append,
    ← String.ofList_append, List.append_assoc _ [':'] start]
  rfl

/-- A threshold that is not positive drops no group. -/
theorem threshold_tenths_eq_zero {s : Settings} (h : s.scoreThreshold ≤ 0) :
    thresholdTenths s = 0 := by
  apply Nat.le_zero.mp
  rw [threshold_tenths_le_iff]
  omega

section NoThreshold

variable {s : Settings} {today : Date} {days : Int} {table : List Customer}

/-- If contacts are distinct and nothing is dropped, the fuzzy groups of a scan are those that
no number explains. -/
theorem mem_scan_fuzzy (hthreshold : s.scoreThreshold ≤ 0)
    (hids : ((table.filter fun c => Recent today days c).map Customer.contactId).Nodup)
    {g : Group} :
    g ∈ scan s today days true table ∧ g.kind = .fuzzy ↔
      ∃ key, key.1 ≠ [] ∧ 2 ≤ (pairRows (recentCustomers today days table) key).length ∧
        ¬ShareNumber (pairRows (recentCustomers today days table) key) ∧
        Group.build? s (fuzzyKeyText key) (fuzzyDisplay key) .fuzzy
          (pairRows (recentCustomers today days table) key) = some g := by
  rw [← recent_customers_eq] at hids
  rw [mem_scan, all_groups_eq s hids, threshold_tenths_eq_zero hthreshold, List.mem_append,
    ← mem_unexplained]
  constructor
  · rintro ⟨⟨hg | hg, -⟩, hkind⟩
    · rw [kind_of_mem_exact_groups hg] at hkind
      cases hkind
    · exact hg
  · intro hg
    obtain ⟨key, -, -, -, hbuild⟩ := mem_unexplained.mp hg
    exact ⟨⟨.inr hg, Nat.zero_le _⟩, (build_shows hbuild).2.2.1⟩

/-- A fuzzy group that a scan returns shows all recent rows of a pair that they share. -/
theorem shared_pair_of_mem_scan (hthreshold : s.scoreThreshold ≤ 0)
    (hids : ((table.filter fun c => Recent today days c).map Customer.contactId).Nodup)
    {g : Group} (hg : g ∈ scan s today days true table) (hkind : g.kind = .fuzzy) :
    ∃ tail start members, ':' ∉ tail ∧ SharedPair today days table tail start members ∧
      g.key = fuzzyKeyText (tail, start) ∧ g.Shows s members := by
  obtain ⟨⟨tail, start⟩, htail, htwo, hdiffer, hbuild⟩ :=
    (mem_scan_fuzzy hthreshold hids).mp ⟨hg, hkind⟩
  obtain ⟨hkey, -, -, hshows⟩ := build_shows hbuild
  have hcolon : ':' ∉ tail := colon_not_mem_of_pair_rows (ne_nil_of_two_le htwo)
  rw [pair_rows_recent] at htwo hdiffer hshows
  have hlisted := newest_first_listed (table.filter fun c => Recent today days c ∧
    lastFour c.contactNumber = tail ∧ namePrefix c.customerName = start)
  refine ⟨tail, start, _, hcolon, ⟨htail, hlisted, ?_, ?_⟩, hkey, hshows⟩
  · rw [length_newest_first]
    exact htwo
  · exact (not_share_number_iff hlisted.perm).mp hdiffer

/-- The rows of a shared pair make a fuzzy group that the scan returns. -/
theorem exists_mem_scan_of_shared_pair (hthreshold : s.scoreThreshold ≤ 0)
    (hids : ((table.filter fun c => Recent today days c).map Customer.contactId).Nodup)
    {tail start : List Char} {members : List Customer}
    (h : SharedPair today days table tail start members) :
    ∃ g ∈ scan s today days true table, g.kind = .fuzzy ∧
      g.key = fuzzyKeyText (tail, start) ∧ g.Shows s members := by
  obtain ⟨htwo, hdiffer, hmembers⟩ := h.unexplained
  obtain ⟨g, hbuild⟩ := exists_build s (fuzzyKeyText (tail, start)) (fuzzyDisplay (tail, start))
    .fuzzy (ne_nil_of_two_le htwo)
  obtain ⟨hkey, -, hkind, hshows⟩ := build_shows hbuild
  rw [← hmembers] at hshows
  have hmem := (mem_scan_fuzzy hthreshold hids).mpr
    ⟨(tail, start), h.tail_ne_nil, htwo, hdiffer, hbuild⟩
  exact ⟨g, hmem.1, hkind, hkey, hshows⟩

/-- Two fuzzy groups of a scan never have one key. -/
theorem scan_fuzzy_keys_nodup (s : Settings)
    (hids : ((table.filter fun c => Recent today days c).map Customer.contactId).Nodup) :
    (((scan s today days true table).filter fun g => g.kind = .fuzzy).map Group.key).Nodup := by
  rw [← recent_customers_eq] at hids
  have hperm := ((scan_perm s today days true table).filter
    fun g => decide (g.kind = .fuzzy)).map Group.key
  have hnone : (exactGroups s (recentCustomers today days table)).filter
      (fun g => g.kind = .fuzzy) = [] :=
    List.filter_eq_nil_iff.mpr fun g hg => by simp [kind_of_mem_exact_groups hg]
  rw [hperm.nodup_iff, filter_threshold_comm, all_groups_eq s hids, List.filter_append, hnone,
    List.nil_append]
  refine (unexplained_keys_nodup s (recentCustomers today days table)).sublist ?_
  exact (List.filter_sublist.trans List.filter_sublist).map _

/-- Rows of a pair that share a number are all in an exact group that the scan returns. -/
theorem exists_exact_of_share_number (hthreshold : s.scoreThreshold ≤ 0) {tail start : List Char}
    (htail : tail ≠ [])
    (htwo : 2 ≤ (pairRows (recentCustomers today days table) (tail, start)).length)
    (hshare : ShareNumber (pairRows (recentCustomers today days table) (tail, start))) :
    ∃ g ∈ scan s today days true table, g.kind = .exact ∧
      ∀ id ∈ (pairRows (recentCustomers today days table) (tail, start)).map
        Customer.contactId, id ∈ g.contactIds := by
  obtain ⟨g, hg, hall⟩ := exact_group_of_share_number s htail htwo hshare
  have hscore : thresholdTenths s ≤ g.score := by
    rw [threshold_tenths_eq_zero hthreshold]
    exact Nat.zero_le _
  have hmem : g ∈ scan s today days true table ∧ g.kind = .exact :=
    mem_scan_exact.mpr ⟨hg, hscore⟩
  exact ⟨g, hmem.1, hmem.2, hall⟩

end NoThreshold

/-- With distinct contacts and no threshold, a search returns the fuzzy group of some last four
digits and some beginning of a name exactly if at least two recent rows have them and these rows
do not all have the same number. The group then shows all these rows, from the last assignment
to the first. Rows that do have the same number are all in an exact group that is returned, so
no fuzzy group is left out because of another fuzzy group. -/
theorem fuzzy_groups_iff_numbers_differ {s : Settings} {today : Date} {days : Int}
    {table : List Customer} (hthreshold : s.scoreThreshold ≤ 0)
    (hids : ((table.filter fun c => Recent today days c).map Customer.contactId).Nodup) :
    ∃ groups,
      (Action.runOn (find MemoryStore.store s today days true)
        (MemoryStore.ofRows table)).1 = .ok groups ∧
      (∀ tail start, ':' ∉ tail →
        ((∃ g ∈ groups, g.kind = .fuzzy ∧
            g.key = "FUZZY:" ++ String.ofList tail ++ ":" ++ String.ofList start) ↔
          ∃ members, SharedPair today days table tail start members)) ∧
      (∀ g ∈ groups, g.kind = .fuzzy →
        ∃ tail start members, ':' ∉ tail ∧ SharedPair today days table tail start members ∧
          g.key = "FUZZY:" ++ String.ofList tail ++ ":" ++ String.ofList start ∧
          g.contactIds = members.map Customer.contactId ∧ g.Shows s members) ∧
      ((groups.filter fun g => g.kind = .fuzzy).map Group.key).Nodup ∧
      (∀ tail start members,
        tail ≠ [] →
        ListedNewestFirst (table.filter fun c => Recent today days c ∧
          lastFour c.contactNumber = tail ∧ namePrefix c.customerName = start) members →
        2 ≤ members.length → ShareNumber members →
        ∃ g ∈ groups, g.kind = .exact ∧ ∀ c ∈ members, c.contactId ∈ g.contactIds) := by
  refine ⟨_, find_in_memory s today days true table, ?_, ?_,
    scan_fuzzy_keys_nodup s hids, ?_⟩
  · intro tail start hcolon
    rw [← fuzzy_key_text_eq]
    constructor
    · rintro ⟨g, hg, hkind, hkey⟩
      obtain ⟨tail', start', members, hcolon', hpair, hkey', -⟩ :=
        shared_pair_of_mem_scan hthreshold hids hg hkind
      have hsame : (tail, start) = (tail', start') :=
        fuzzy_key_text_inj hcolon hcolon' (hkey.symm.trans hkey')
      obtain ⟨rfl, rfl⟩ := Prod.mk.inj hsame
      exact ⟨members, hpair⟩
    · rintro ⟨members, hpair⟩
      obtain ⟨g, hg, hkind, hkey, -⟩ := exists_mem_scan_of_shared_pair hthreshold hids hpair
      exact ⟨g, hg, hkind, hkey⟩
  · intro g hg hkind
    obtain ⟨tail, start, members, hcolon, hpair, hkey, hshows⟩ :=
      shared_pair_of_mem_scan hthreshold hids hg hkind
    rw [fuzzy_key_text_eq] at hkey
    exact ⟨tail, start, members, hcolon, hpair, hkey, hshows.contactIds, hshows⟩
  · intro tail start members htail hlisted htwo hshare
    rw [← pair_rows_recent] at hlisted
    have hrows : ShareNumber (pairRows (recentCustomers today days table) (tail, start)) :=
      fun c hc d hd => hshare c (hlisted.perm.mem_iff.mpr hc) d (hlisted.perm.mem_iff.mpr hd)
    rw [hlisted.perm.length_eq] at htwo
    obtain ⟨g, hg, hkind, hall⟩ := exists_exact_of_share_number hthreshold htail htwo hrows
    refine ⟨g, hg, hkind, ?_⟩
    intro c hc
    exact hall _ (List.mem_map_of_mem (hlisted.perm.mem_iff.mp hc))

/-- Two customers of one beginning of the name whose different numbers end alike. -/
def sameEnding : List Customer :=
  [{ Customer.assigned 1 (.midnight ⟨2025, 3, 9, by decide, by decide, by decide, by decide⟩) with
      customerName := some "Kim Minsu", contactNumber := some "010-1234-5678" },
   { Customer.assigned 2 (.midnight ⟨2025, 3, 8, by decide, by decide, by decide, by decide⟩) with
      customerName := some "Kim Jiho", contactNumber := some "02-999-5678" }]

/-- The day after the last of them was assigned. -/
def dayAfter : Date :=
  ⟨2025, 3, 10, by decide, by decide, by decide, by decide⟩

theorem same_ending_ids_nodup :
    ((sameEnding.filter fun c => Recent dayAfter 30 c).map Customer.contactId).Nodup := by
  decide +kernel

theorem same_ending_shared :
    SharedPair dayAfter 30 sameEnding ['5', '6', '7', '8'] ['k', 'i']
      (newestFirst sameEnding) := by
  have hrows : (sameEnding.filter fun c => Recent dayAfter 30 c ∧
      lastFour c.contactNumber = ['5', '6', '7', '8'] ∧
      namePrefix c.customerName = ['k', 'i']) = sameEnding := by
    decide +kernel
  have hdiffer : ∃ c ∈ sameEnding, ∃ d ∈ sameEnding,
      normalizeDigits c.contactNumber ≠ normalizeDigits d.contactNumber := by
    decide +kernel
  refine ⟨by decide, ?_, ?_, ?_⟩
  · rw [hrows]
    exact newest_first_listed sameEnding
  · rw [length_newest_first]
    decide
  · simpa only [mem_newest_first] using hdiffer

theorem fuzzy_group_of_same_ending :
    let s := { Settings.default with scoreThreshold := 0 }
    let today : Date := ⟨2025, 3, 10, by decide, by decide, by decide, by decide⟩
    s.scoreThreshold ≤ 0 ∧
      ((sameEnding.filter fun c => Recent today 30 c).map Customer.contactId).Nodup ∧
      ∃ groups,
        (Action.runOn (find MemoryStore.store s today 30 true)
          (MemoryStore.ofRows sameEnding)).1 = .ok groups ∧
        ∃ g ∈ groups, g.kind = .fuzzy ∧
          g.key = "FUZZY:" ++ String.ofList ['5', '6', '7', '8'] ++ ":" ++
            String.ofList ['k', 'i'] := by
  intro s today
  obtain ⟨groups, hrun, hiff, -⟩ :=
    fuzzy_groups_iff_numbers_differ (s := s) (by decide) same_ending_ids_nodup
  exact ⟨by decide, same_ending_ids_nodup, groups, hrun,
    (hiff _ _ (by decide)).mpr ⟨_, same_ending_shared⟩⟩

end CustomerDedupe.Duplicates
