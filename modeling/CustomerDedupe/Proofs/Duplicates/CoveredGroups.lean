import CustomerDedupe.Proofs.Duplicates.SharedKey

/-!
# What becomes of covered fuzzy groups

A fuzzy group is left out when one group found before it has all its contacts. This is decided
before groups below the threshold are dropped, so the covering group may itself be dropped, and
`covered_pair_hidden` is a table where neither group is returned.
`found_or_covered` follows the loop over the fuzzy buckets: a candidate is found or covered in
the end. From it, `fuzzy_candidate_returned_or_covered` says what a search returns for a
candidate that reaches the threshold.
-/

namespace CustomerDedupe.Duplicates

open Calendar (Date)

/-- More groups cover more. -/
theorem covered_mono {groups more : List Group} {ids : List Int} (hsub : groups ⊆ more)
    (h : covered groups ids = true) : covered more ids = true := by
  obtain ⟨g, hg, hall⟩ := covered_iff.mp h
  exact covered_iff.mpr ⟨g, hsub hg, hall⟩

/-- A bucket without digits, with too few members or with covered members is passed over. -/
theorem add_fuzzy_eq_self {s : Settings} {found : List Group} {key : FuzzyKey}
    {members : List Customer}
    (h : key.1 = [] ∨ members.length < 2 ∨
      covered found (members.map Customer.contactId) = true) :
    addFuzzy s found (key, members) = found := by
  simp only [addFuzzy, List.isEmpty_iff]
  exact if_pos h

/-- Every fuzzy candidate is in the end among the groups found or covered by one of them. -/
theorem found_or_covered {s : Settings} {buckets : Buckets FuzzyKey Customer}
    (found : List Group) {key : FuzzyKey} {members : List Customer} {g : Group}
    (hbucket : (key, members) ∈ buckets) (hg : fuzzyCandidate? s (key, members) = some g) :
    g ∈ buckets.foldl (addFuzzy s) found ∨
      covered (buckets.foldl (addFuzzy s) found) (members.map Customer.contactId) = true := by
  induction buckets generalizing found with
  | nil => cases hbucket
  | cons first rest ih =>
      rw [List.foldl_cons]
      rcases List.mem_cons.mp hbucket with rfl | hbucket
      · -- what is found or covers in the first turn stays to the end
        obtain ⟨fuzzy, hfold, -⟩ := fold_add_fuzzy_append s rest (addFuzzy s found (key, members))
        have hkeep : addFuzzy s found (key, members) ⊆
            rest.foldl (addFuzzy s) (addFuzzy s found (key, members)) := by
          rw [hfold]
          exact List.subset_append_left _ _
        obtain ⟨hdigits, htwo, hbuild⟩ := fuzzy_candidate_eq_some_iff.mp hg
        rcases add_fuzzy_cases s found key members with
          ⟨hsame, hskip⟩ | ⟨-, -, -, g', hbuild', hadd⟩
        · rcases hskip with hskip | hskip | hcovered
          · exact absurd hskip hdigits
          · exact absurd htwo (Nat.not_le.mpr hskip)
          · exact .inr (covered_mono hkeep (by rwa [hsame]))
        · obtain rfl : g = g' := Option.some.inj (hbuild.symm.trans hbuild')
          exact .inl (hkeep (by simp [hadd]))
      · exact ih _ hbucket

/-- The group of a pair is found, or one group that is found has all its contacts. -/
theorem pair_found_or_covered {s : Settings} {recent : List Customer} {key : FuzzyKey}
    {g : Group} (h : (SharedKey.pair key).IsGroup s recent g) :
    g ∈ allGroups s recent true ∨
      ∃ cover ∈ allGroups s recent true, ∀ id ∈ g.contactIds, id ∈ cover.contactIds := by
  have hbucket : (key, pairRows recent key) ∈ Buckets.gather fuzzyBefore fuzzyKey recent :=
    (Buckets.mem_gather fuzzy_key_order).mpr
      ⟨rfl, ne_nil_of_two_le h.two_le_length⟩
  have hcandidate : fuzzyCandidate? s (key, pairRows recent key) = some g :=
    fuzzy_candidate_eq_some_iff.mpr ⟨h.digits_ne_nil, h.two_le_length, h.built⟩
  rw [allGroups, if_pos rfl]
  refine (found_or_covered (exactGroups s recent) hbucket hcandidate).imp_right ?_
  intro hcovered
  obtain ⟨cover, hcover, hall⟩ := covered_iff.mp hcovered
  exact ⟨cover, hcover, fun id hid => hall id ((mem_contact_ids_of_build h.built id).mp hid)⟩

/-! ## The groups that a search returns for a candidate -/

namespace SharedKey

/-- `members` are all recent rows of a key, the one assigned last first. The key has digits, and
there are at least two rows. -/
structure Gathers (k : SharedKey) (today : Date) (days : Int) (table members : List Customer) :
    Prop where
  digits_ne_nil : k.digits ≠ []
  listed : ListedNewestFirst (table.filter fun c => Recent today days c ∧ k.Has c) members
  two_le_length : 2 ≤ members.length

/-- The group is of a key and shows these members. -/
structure ShownBy (k : SharedKey) (s : Settings) (members : List Customer) (g : Group) :
    Prop where
  key : g.key = k.text
  display : g.display = k.display
  kind : g.kind = k.kind
  shows : g.Shows s members

variable {k : SharedKey} {s : Settings} {today : Date} {days : Int} {table : List Customer}

/-- There is a group of all recent rows of a key, if there are at least two. -/
theorem Gathers.exists_group {members : List Customer}
    (h : k.Gathers today days table members) (s : Settings) :
    ∃ g, k.IsGroup s (recentCustomers today days table) g ∧ k.ShownBy s members g := by
  have hrows := k.rows_recent today days table
  have htwo : 2 ≤ (k.rows (recentCustomers today days table)).length := by
    rw [hrows, ← h.listed.perm.length_eq]
    exact h.two_le_length
  obtain ⟨g, hbuild⟩ := exists_build s k.text k.display k.kind (ne_nil_of_two_le htwo)
  obtain ⟨hkey, hdisplay, hkind, hshows⟩ := build_shows hbuild
  rw [hrows, ← h.listed.unique] at hshows
  exact ⟨g, ⟨h.digits_ne_nil, htwo, hbuild⟩, hkey, hdisplay, hkind, hshows⟩

/-- A group of the customers that a scan looks at shows all recent rows of its key. -/
theorem IsGroup.gathers {g : Group} (h : k.IsGroup s (recentCustomers today days table) g) :
    ∃ members, k.Gathers today days table members ∧ k.ShownBy s members g := by
  have hrows := k.rows_recent today days table
  obtain ⟨hkey, hdisplay, hkind, hshows⟩ := build_shows h.built
  have htwo := h.two_le_length
  rw [hrows] at hshows htwo
  refine ⟨_, ⟨h.digits_ne_nil, newest_first_listed _, ?_⟩, hkey, hdisplay, hkind, hshows⟩
  rw [length_newest_first]
  exact htwo

end SharedKey

/-- Take the recent rows of some last four digits and some beginning of the name, of which there
are at least two and whose score reaches the threshold. A search with fuzzy groups returns their
fuzzy group, or it has found a group that has all their contacts: this one shows all recent rows
of its own key and is returned exactly if its own score reaches the threshold, which it always
does if the threshold is not positive. -/
theorem fuzzy_candidate_returned_or_covered (s : Settings) (today : Date) (days : Int)
    (table : List Customer) :
    ∃ groups,
      (Action.runOn (find MemoryStore.store s today days true)
        (MemoryStore.ofRows table)).1 = .ok groups ∧
      ∀ tail start members,
        (SharedKey.pair (tail, start)).Gathers today days table members →
        10 * max 0 (min s.scoreThreshold 100) ≤ (computeScore s members : Int) →
        (∃ g ∈ groups, (SharedKey.pair (tail, start)).ShownBy s members g) ∨
        ∃ (k : SharedKey) (rows : List Customer) (cover : Group),
          k.Gathers today days table rows ∧ k.ShownBy s rows cover ∧
          (∀ c ∈ members, c.contactId ∈ cover.contactIds) ∧
          (cover ∈ groups ↔
            10 * max 0 (min s.scoreThreshold 100) ≤ (computeScore s rows : Int)) ∧
          (s.scoreThreshold ≤ 0 → cover ∈ groups) := by
  refine ⟨_, find_in_memory s today days true table, ?_⟩
  intro tail start members hmembers hscore
  obtain ⟨g, hgroup, hshown⟩ := hmembers.exists_group s
  rcases pair_found_or_covered hgroup with hfound | ⟨cover, hcover, hall⟩
  · refine .inl ⟨g, mem_scan.mpr ⟨hfound, ?_⟩, hshown⟩
    rw [threshold_tenths_le_iff, hshown.shows.score]
    exact hscore
  · obtain ⟨k, hk⟩ := SharedKey.exists_key_of_mem_all_groups hcover
    obtain ⟨rows, hrows, hrowsShown⟩ := hk.gathers
    have hiff : cover ∈ scan s today days true table ↔
        10 * max 0 (min s.scoreThreshold 100) ≤ (computeScore s rows : Int) := by
      rw [mem_scan, threshold_tenths_le_iff, hrowsShown.shows.score]
      exact and_iff_right hcover
    refine .inr ⟨k, rows, cover, hrows, hrowsShown, ?_, hiff, ?_⟩
    · intro c hc
      apply hall
      rw [hshown.shows.contactIds]
      exact List.mem_map_of_mem hc
    · intro hthreshold
      rw [hiff]
      omega

/-- A customer of one phone number, assigned on a day of March 2025. -/
def ofOneNumber (contactId : Int) (name gender : String) (assigned : Date) : Customer :=
  { Customer.assigned contactId (.midnight assigned) with
    customerName := some name, contactNumber := some "010-1234-5678", gender := some gender }

/-- Settings in which only the gender counts and groups have to reach 60 per cent. -/
def genderOnly : Settings :=
  { Settings.default.setField .gender true 1 with scoreThreshold := 60 }

/-- Two customers of one beginning of the name who agree, and a third of their number who does
not agree with them, make an exact group below the threshold. Nothing is returned, although the
score of the two alone reaches the threshold. -/
theorem covered_pair_hidden :
    let today : Date := ⟨2025, 3, 10, by decide, by decide, by decide, by decide⟩
    let kim := ofOneNumber 1 "Kim Minsu" "F" today.pred
    let kin := ofOneNumber 2 "Kim Jiho" "F" today.pred.pred
    let lee := ofOneNumber 3 "Lee Hana" "M" today.pred.pred.pred
    (Action.runOn (find MemoryStore.store genderOnly today 30 true)
        (MemoryStore.ofRows [kim, kin, lee])).1 = .ok [] ∧
      (SharedKey.pair (['5', '6', '7', '8'], ['k', 'i'])).Gathers today 30 [kim, kin, lee]
        [kim, kin] ∧
      10 * max 0 (min genderOnly.scoreThreshold 100) ≤
        (computeScore genderOnly [kim, kin] : Int) := by
  intro today kim kin lee
  have hsorted : newestFirst [kim, kin, lee] = [kim, kin, lee] :=
    newest_first_eq_self (by decide +kernel)
  refine ⟨?_, ⟨by decide, ?_, by decide⟩, by decide +kernel⟩
  · have hrecent : recentCustomers today 30 [kim, kin, lee] = [kim, kin, lee] := by
      decide +kernel
    have hnumbers : Buckets.gather charsBefore exactKey [kim, kin, lee] =
        [("01012345678".toList, [kim, kin, lee])] := by
      decide +kernel
    have hpairs : Buckets.gather fuzzyBefore fuzzyKey [kim, kin, lee] =
        [((['5', '6', '7', '8'], ['k', 'i']), [kim, kin]),
          ((['5', '6', '7', '8'], ['l', 'e']), [lee])] := by
      decide +kernel
    obtain ⟨g, hbuild⟩ := exists_build genderOnly (String.ofList "01012345678".toList)
      (String.ofList "01012345678".toList) .exact (List.cons_ne_nil kim [kin, lee])
    have hshows := (build_shows hbuild).2.2.2
    rw [hsorted] at hshows
    have hgroup : exactGroup? genderOnly ("01012345678".toList, [kim, kin, lee]) = some g :=
      exact_group_eq_some_iff.mpr ⟨by decide, by decide, hbuild⟩
    have hexact : exactGroups genderOnly [kim, kin, lee] = [g] := by
      rw [exactGroups, hnumbers, List.filterMap_cons_some hgroup, List.filterMap_nil]
    have hcovered : covered [g] ([kim, kin].map Customer.contactId) = true :=
      covered_iff.mpr ⟨g, List.mem_singleton_self g, by rw [hshows.contactIds]; decide⟩
    have hall : allGroups genderOnly [kim, kin, lee] true = [g] := by
      rw [allGroups, if_pos rfl, hexact, hpairs, List.foldl_cons,
        add_fuzzy_eq_self (.inr (.inr hcovered)), List.foldl_cons,
        add_fuzzy_eq_self (.inr (.inl (by decide))), List.foldl_nil]
    have hscore : g.score = 500 := by
      rw [hshows.score]
      decide +kernel
    rw [find_in_memory, scan, hrecent, hall]
    simp [rank, thresholdTenths, genderOnly, hscore, clamp]
  · have hrows : ([kim, kin, lee].filter fun c => Recent today 30 c ∧
        (SharedKey.pair (['5', '6', '7', '8'], ['k', 'i'])).Has c) = [kim, kin] := by
      decide +kernel
    rw [hrows]
    exact ⟨List.Perm.refl _, by decide +kernel, fun _ => rfl⟩

end CustomerDedupe.Duplicates
