import CustomerDedupe.Duplicates.Scan
import CustomerDedupe.Proofs.Duplicates.Buckets
import CustomerDedupe.Proofs.Duplicates.NewestFirst

/-!
# The groups of a scan before and after ranking

A scan collects the exact groups, adds fuzzy ones, drops those below the threshold and sorts the
rest. `mem_exact_groups` says which exact groups there are, `add_fuzzy_cases` all that the loop
over the fuzzy buckets can do with one bucket, and `mem_scan` that ranking neither adds nor
loses a group that reaches the threshold.
-/

namespace CustomerDedupe.Duplicates

open Calendar (Date)

/-! ## The order of keys -/

theorem chars_key_order : Buckets.KeyOrder charsBefore where
  irrefl a := decide_eq_false (List.lt_irrefl a)
  trans hab hbc := by
    rw [charsBefore, decide_eq_true_eq] at hab hbc ⊢
    exact List.lt_trans hab hbc
  connected {a b} hne hab := by
    rw [charsBefore, decide_eq_false_iff_not, List.not_lt] at hab
    rw [charsBefore, decide_eq_true_eq]
    exact (List.le_iff_lt_or_eq.mp hab).resolve_right fun heq => hne heq.symm

theorem fuzzy_before_iff {a b : FuzzyKey} :
    fuzzyBefore a b = true ↔ a.1 < b.1 ∨ (a.1 = b.1 ∧ a.2 < b.2) := by
  simp [fuzzyBefore]

theorem fuzzy_key_order : Buckets.KeyOrder fuzzyBefore where
  irrefl a := by
    rw [Bool.eq_false_iff, ne_eq, fuzzy_before_iff]
    rintro (h | ⟨-, h⟩)
    · exact List.lt_irrefl _ h
    · exact List.lt_irrefl _ h
  trans {a b c} hab hbc := by
    rw [fuzzy_before_iff] at hab hbc ⊢
    rcases hab with hab | ⟨heq, hab⟩
    · rcases hbc with hbc | ⟨heq', -⟩
      · exact .inl (List.lt_trans hab hbc)
      · exact .inl (heq' ▸ hab)
    · rcases hbc with hbc | ⟨heq', hbc⟩
      · exact .inl (heq ▸ hbc)
      · exact .inr ⟨heq.trans heq', List.lt_trans hab hbc⟩
  connected {a b} hne hab := by
    rw [Bool.eq_false_iff, ne_eq, fuzzy_before_iff, not_or, not_and, List.not_lt] at hab
    rw [fuzzy_before_iff]
    rcases List.le_iff_lt_or_eq.mp hab.1 with hlt | heq
    · exact .inl hlt
    · have hle := List.not_lt.mp (hab.2 heq.symm)
      rcases List.le_iff_lt_or_eq.mp hle with hlt | heq'
      · exact .inr ⟨heq, hlt⟩
      · exact absurd (Prod.ext heq heq').symm hne

/-! ## Groups of members -/

/-- The group shows these members, in this order. -/
structure Group.Shows (s : Settings) (members : List Customer) (g : Group) : Prop where
  count : g.count = members.length
  score : g.score = computeScore s members
  newest : ∃ c rest, members = c :: rest ∧ g.latestAssigned = c.assignedDate ∧
    g.sampleName = c.customerName
  contactIds : g.contactIds = members.map Customer.contactId
  candidates : g.candidates = members.map Candidate.ofCustomer

/-- A group that is built has the key, text and kind given, and shows the members from the last
assignment to the first. -/
theorem build_shows {s : Settings} {key display : String} {kind : GroupKind}
    {rows : List Customer} {g : Group} (h : Group.build? s key display kind rows = some g) :
    g.key = key ∧ g.display = display ∧ g.kind = kind ∧ g.Shows s (newestFirst rows) := by
  unfold Group.build? at h
  split at h
  · exact absurd h (by simp)
  · next newest rest hrows =>
    obtain rfl := Option.some.inj h
    exact ⟨rfl, rfl, rfl, by rw [hrows], by rw [hrows], ⟨newest, rest, hrows, rfl, rfl⟩,
      by rw [hrows], by rw [hrows]⟩

/-- Of at least two there are some. -/
theorem ne_nil_of_two_le {α : Type} {rows : List α} (h : 2 ≤ rows.length) : rows ≠ [] :=
  List.ne_nil_of_length_pos (Nat.lt_of_lt_of_le Nat.two_pos h)

/-- There is a group of any members. -/
theorem exists_build (s : Settings) (key display : String) (kind : GroupKind)
    {rows : List Customer} (h : rows ≠ []) :
    ∃ g, Group.build? s key display kind rows = some g := by
  unfold Group.build?
  split
  · next hrows =>
    have hlength := length_newest_first rows
    rw [hrows] at hlength
    exact absurd (List.length_eq_zero_iff.mp hlength.symm) h
  · exact ⟨_, rfl⟩

/-! ## Exact groups -/

/-- The customers of a phone number. -/
def numberRows (recent : List Customer) (number : List Char) : List Customer :=
  recent.filter fun c => exactKey c = number

/-- A bucket has an exact group exactly if it has a number and at least two members. -/
theorem exact_group_eq_some_iff {s : Settings} {number : List Char} {members : List Customer}
    {g : Group} :
    exactGroup? s (number, members) = some g ↔ number ≠ [] ∧ 2 ≤ members.length ∧
      Group.build? s (String.ofList number) (String.ofList number) .exact members = some g := by
  simp only [exactGroup?, List.isEmpty_iff]
  split
  · next hskip =>
    constructor
    · intro h
      cases h
    · rintro ⟨hnumber, htwo, -⟩
      exact (hskip.elim hnumber (Nat.not_lt.mpr htwo)).elim
  · next hkeep =>
    rw [not_or, Nat.not_lt] at hkeep
    exact ⟨fun h => ⟨hkeep.1, hkeep.2, h⟩, fun h => h.2.2⟩

/-- There is an exact group exactly for each number that at least two customers share. -/
theorem mem_exact_groups {s : Settings} {recent : List Customer} {g : Group} :
    g ∈ exactGroups s recent ↔
      ∃ number, number ≠ [] ∧ 2 ≤ (numberRows recent number).length ∧
        Group.build? s (String.ofList number) (String.ofList number) .exact
          (numberRows recent number) = some g := by
  rw [exactGroups, List.mem_filterMap]
  constructor
  · rintro ⟨⟨number, members⟩, hbucket, hgroup⟩
    obtain ⟨hmembers, -⟩ := (Buckets.mem_gather chars_key_order).mp hbucket
    obtain ⟨hnumber, htwo, hbuild⟩ := exact_group_eq_some_iff.mp hgroup
    rw [hmembers] at htwo hbuild
    exact ⟨number, hnumber, htwo, hbuild⟩
  · rintro ⟨number, hnumber, htwo, hbuild⟩
    refine ⟨(number, numberRows recent number), ?_,
      exact_group_eq_some_iff.mpr ⟨hnumber, htwo, hbuild⟩⟩
    exact (Buckets.mem_gather chars_key_order).mpr ⟨rfl, ne_nil_of_two_le htwo⟩

/-- No two exact groups have one key. -/
theorem exact_groups_keys_nodup (s : Settings) (recent : List Customer) :
    ((exactGroups s recent).map Group.key).Nodup := by
  refine List.pairwise_map.mpr (Buckets.pairwise_filter_map_gather chars_key_order exactKey
    recent (exactGroup? s) ?_)
  -- the key of a group determines the key of its bucket
  intro number number' g g' hbefore hg hg' heq
  rw [(build_shows (exact_group_eq_some_iff.mp hg).2.2).1,
    (build_shows (exact_group_eq_some_iff.mp hg').2.2).1] at heq
  exact chars_key_order.ne hbefore (String.ofList_injective heq)

/-- Exact groups are of the exact kind. -/
theorem kind_of_mem_exact_groups {s : Settings} {recent : List Customer} {g : Group}
    (h : g ∈ exactGroups s recent) : g.kind = .exact := by
  obtain ⟨_, -, -, hbuild⟩ := mem_exact_groups.mp h
  exact (build_shows hbuild).2.2.1

/-! ## Fuzzy groups -/

/-- What becomes of a bucket in the loop over the fuzzy buckets: it is passed over because it
has no digits, too few members or is covered, or its group is added at the end. -/
theorem add_fuzzy_cases (s : Settings) (found : List Group) (key : FuzzyKey)
    (members : List Customer) :
    (addFuzzy s found (key, members) = found ∧ (key.1 = [] ∨ members.length < 2 ∨
        covered found (members.map Customer.contactId) = true)) ∨
      (key.1 ≠ [] ∧ 2 ≤ members.length ∧
        covered found (members.map Customer.contactId) = false ∧
        ∃ g, Group.build? s (fuzzyKeyText key) (fuzzyDisplay key) .fuzzy members = some g ∧
          addFuzzy s found (key, members) = found ++ [g]) := by
  simp only [addFuzzy, List.isEmpty_iff]
  split
  · next hskip => exact .inl ⟨rfl, hskip⟩
  · next hkeep =>
    simp only [not_or, Nat.not_lt, Bool.not_eq_true] at hkeep
    obtain ⟨hdigits, htwo, hcovered⟩ := hkeep
    obtain ⟨g, hbuild⟩ := exists_build s (fuzzyKeyText key) (fuzzyDisplay key) .fuzzy
      (ne_nil_of_two_le htwo)
    rw [hbuild]
    exact .inr ⟨hdigits, htwo, hcovered, g, rfl, rfl⟩

/-- The fuzzy group of a bucket, covered or not, if it has digits and at least two members. -/
def fuzzyCandidate? (s : Settings) (bucket : FuzzyKey × List Customer) : Option Group :=
  if bucket.1.1 = [] ∨ bucket.2.length < 2 then none
  else Group.build? s (fuzzyKeyText bucket.1) (fuzzyDisplay bucket.1) .fuzzy bucket.2

theorem fuzzy_candidate_eq_some_iff {s : Settings} {key : FuzzyKey} {members : List Customer}
    {g : Group} :
    fuzzyCandidate? s (key, members) = some g ↔ key.1 ≠ [] ∧ 2 ≤ members.length ∧
      Group.build? s (fuzzyKeyText key) (fuzzyDisplay key) .fuzzy members = some g := by
  unfold fuzzyCandidate?
  split
  · next hskip =>
    constructor
    · intro h
      cases h
    · rintro ⟨hdigits, htwo, -⟩
      exact (hskip.elim hdigits (Nat.not_lt.mpr htwo)).elim
  · next hkeep =>
    rw [not_or, Nat.not_lt] at hkeep
    exact ⟨fun h => ⟨hkeep.1, hkeep.2, h⟩, fun h => h.2.2⟩

/-- Fuzzy candidates are of the fuzzy kind. -/
theorem kind_of_mem_candidates {s : Settings} {buckets : Buckets FuzzyKey Customer} {g : Group}
    (h : g ∈ buckets.filterMap (fuzzyCandidate? s)) : g.kind = .fuzzy := by
  obtain ⟨⟨key, members⟩, -, hcandidate⟩ := List.mem_filterMap.mp h
  exact (build_shows (fuzzy_candidate_eq_some_iff.mp hcandidate).2.2).2.2.1

/-- The loop over fuzzy buckets only adds candidates at the end, in the order of the buckets. -/
theorem fold_add_fuzzy_append (s : Settings) (buckets : Buckets FuzzyKey Customer)
    (found : List Group) :
    ∃ fuzzy, buckets.foldl (addFuzzy s) found = found ++ fuzzy ∧
      fuzzy.Sublist (buckets.filterMap (fuzzyCandidate? s)) := by
  induction buckets generalizing found with
  | nil => exact ⟨[], by simp, List.Sublist.slnil⟩
  | cons bucket rest ih =>
      rcases add_fuzzy_cases s found bucket.1 bucket.2 with
        ⟨hsame, -⟩ | ⟨hdigits, htwo, -, g, hbuild, hadd⟩
      · obtain ⟨fuzzy, hfold, hsub⟩ := ih found
        refine ⟨fuzzy, by rw [List.foldl_cons, hsame, hfold], hsub.trans ?_⟩
        exact (List.sublist_cons_self bucket rest).filterMap _
      · obtain ⟨fuzzy, hfold, hsub⟩ := ih (found ++ [g])
        have hcandidate : fuzzyCandidate? s bucket = some g :=
          fuzzy_candidate_eq_some_iff.mpr ⟨hdigits, htwo, hbuild⟩
        refine ⟨g :: fuzzy, ?_, ?_⟩
        · rw [List.foldl_cons, hadd, hfold, List.append_assoc, List.singleton_append]
        · rw [List.filterMap_cons_some hcandidate]
          exact hsub.cons_cons g

/-- The exact ones among all groups are the exact groups, in their order. -/
theorem filter_exact_all_groups (s : Settings) (recent : List Customer) (includeFuzzy : Bool) :
    (allGroups s recent includeFuzzy).filter (fun g => g.kind = .exact) =
      exactGroups s recent := by
  have hexact : (exactGroups s recent).filter (fun g => g.kind = .exact) =
      exactGroups s recent :=
    List.filter_eq_self.mpr fun g hg => decide_eq_true (kind_of_mem_exact_groups hg)
  unfold allGroups
  split
  · obtain ⟨fuzzy, hfold, hsub⟩ :=
      fold_add_fuzzy_append s (Buckets.gather fuzzyBefore fuzzyKey recent) (exactGroups s recent)
    have hnone : fuzzy.filter (fun g => g.kind = .exact) = [] :=
      List.filter_eq_nil_iff.mpr fun g hg => by simp [kind_of_mem_candidates (hsub.subset hg)]
    rw [hfold, List.filter_append, hexact, hnone, List.append_nil]
  · exact hexact

/-! ## Ranking -/

/-- A scan returns all groups that reach the threshold, each as often as it was found. -/
theorem scan_perm (s : Settings) (today : Date) (days : Int) (includeFuzzy : Bool)
    (table : List Customer) :
    (scan s today days includeFuzzy table).Perm
      ((allGroups s (recentCustomers today days table) includeFuzzy).filter
        fun g => thresholdTenths s ≤ g.score) :=
  List.mergeSort_perm _ _

/-- Groups may be chosen by kind before or after those below the threshold are dropped. -/
theorem filter_threshold_comm (threshold : Nat) (kind : GroupKind) (groups : List Group) :
    (groups.filter fun g => threshold ≤ g.score).filter (fun g => g.kind = kind) =
      (groups.filter fun g => g.kind = kind).filter fun g => threshold ≤ g.score := by
  rw [List.filter_filter, List.filter_filter]
  exact List.filter_congr fun g _ => Bool.and_comm _ _

theorem mem_scan {s : Settings} {today : Date} {days : Int} {includeFuzzy : Bool}
    {table : List Customer} {g : Group} :
    g ∈ scan s today days includeFuzzy table ↔
      g ∈ allGroups s (recentCustomers today days table) includeFuzzy ∧
        thresholdTenths s ≤ g.score := by
  rw [(scan_perm s today days includeFuzzy table).mem_iff, List.mem_filter, decide_eq_true_eq]

end CustomerDedupe.Duplicates
