import CustomerDedupe.Proofs.Duplicates.FuzzyGroups

/-!
# What the members of a group share

The members of a group share a phone number, or the last four digits of one and the beginning of
the name. A `SharedKey` is either, so that what holds of both kinds of groups is said once.
`exists_key_of_mem_all_groups` says that every group has all customers of a key, and `text_inj`
that groups of one written key are groups of one key.
-/

namespace CustomerDedupe.Duplicates

open Calendar (Date)

/-- What the members of a group share. -/
inductive SharedKey where
  | number (digits : List Char)
  | pair (key : FuzzyKey)
  deriving DecidableEq, Repr

namespace SharedKey

/-- A customer has the key. -/
def Has : SharedKey → Customer → Prop
  | number digits, c => exactKey c = digits
  | pair key, c => fuzzyKey c = key

instance : (k : SharedKey) → (c : Customer) → Decidable (k.Has c)
  | number digits, c => inferInstanceAs (Decidable (exactKey c = digits))
  | pair key, c => inferInstanceAs (Decidable (fuzzyKey c = key))

/-- The digits of a key, without which there is no group of it. -/
def digits : SharedKey → List Char
  | number ds => ds
  | pair key => key.1

/-- The key as it is written. -/
def text : SharedKey → String
  | number ds => String.ofList ds
  | pair key => fuzzyKeyText key

/-- The text that shows the key. -/
def display : SharedKey → String
  | number ds => String.ofList ds
  | pair key => fuzzyDisplay key

/-- The kind of the groups of a key. -/
def kind : SharedKey → GroupKind
  | number _ => .exact
  | pair _ => .fuzzy

/-- The customers of a key. -/
def rows (k : SharedKey) (recent : List Customer) : List Customer :=
  recent.filter fun c => k.Has c

/-- The group of all customers of a key. -/
def group? (k : SharedKey) (s : Settings) (recent : List Customer) : Option Group :=
  Group.build? s k.text k.display k.kind (k.rows recent)

theorem mem_rows {k : SharedKey} {recent : List Customer} {c : Customer} :
    c ∈ k.rows recent ↔ c ∈ recent ∧ k.Has c := by
  rw [rows, List.mem_filter, decide_eq_true_eq]

/-- The customers of a key among some are those of the key, among these. -/
theorem rows_filter (k : SharedKey) (p : Customer → Bool) (recent : List Customer) :
    k.rows (recent.filter p) = (k.rows recent).filter p :=
  List.filter_comm _ _ recent

/-- A written number is no written pair. -/
theorem number_text_ne_pair_text {c : Customer} {key : FuzzyKey} :
    (number (exactKey c)).text ≠ (pair key).text := by
  intro heq
  have hchars := String.ofList_injective heq
  -- the written pair begins with a letter, and a number has only digits
  have hmem : 'F' ∈ exactKey c := by
    rw [hchars]
    simp
  exact absurd (is_digit_of_mem_normalize_digits hmem) (by decide)

/-- Keys of customers that are written alike are the same. -/
theorem text_inj {k k' : SharedKey} {c c' : Customer} (h : k.Has c) (h' : k'.Has c')
    (heq : k.text = k'.text) : k = k' := by
  cases k with
  | number ds =>
      obtain rfl : exactKey c = ds := h
      cases k' with
      | number ds' => rw [String.ofList_injective heq]
      | pair key' => exact absurd heq number_text_ne_pair_text
  | pair key =>
      obtain rfl : fuzzyKey c = key := h
      cases k' with
      | number ds' =>
          obtain rfl : exactKey c' = ds' := h'
          exact absurd heq.symm number_text_ne_pair_text
      | pair key' =>
          obtain rfl : fuzzyKey c' = key' := h'
          have hcolon : ':' ∉ (fuzzyKey c).1 := colon_not_mem_last_four c.contactNumber
          have hcolon' : ':' ∉ (fuzzyKey c').1 := colon_not_mem_last_four c'.contactNumber
          exact congrArg pair (fuzzy_key_text_inj hcolon hcolon' heq)

/-- The group of a key with at least two customers. -/
structure IsGroup (k : SharedKey) (s : Settings) (recent : List Customer) (g : Group) : Prop where
  digits_ne_nil : k.digits ≠ []
  two_le_length : 2 ≤ (k.rows recent).length
  built : k.group? s recent = some g

namespace IsGroup

variable {k : SharedKey} {s : Settings} {recent : List Customer} {g : Group}

/-- A group is written with its key. -/
theorem key_eq (h : k.IsGroup s recent g) : g.key = k.text :=
  (build_shows h.built).1

/-- The contacts of a group are those of the customers of its key. -/
theorem mem_contact_ids (h : k.IsGroup s recent g) {id : Int} :
    id ∈ g.contactIds ↔ ∃ c ∈ recent, k.Has c ∧ c.contactId = id := by
  rw [mem_contact_ids_of_build h.built, List.mem_map]
  simp only [mem_rows, and_assoc]

/-- A group has a member. -/
theorem exists_mem (h : k.IsGroup s recent g) : ∃ c ∈ recent, k.Has c := by
  obtain ⟨c, hc⟩ := List.exists_mem_of_ne_nil _ (ne_nil_of_two_le h.two_le_length)
  exact ⟨c, mem_rows.mp hc⟩

/-- Groups written with one key are of one key, even among different customers. -/
theorem key_unique {k' : SharedKey} {recent' : List Customer} {g' : Group}
    (h : k.IsGroup s recent g) (h' : k'.IsGroup s recent' g') (heq : g.key = g'.key) : k = k' := by
  obtain ⟨c, -, hc⟩ := h.exists_mem
  obtain ⟨c', -, hc'⟩ := h'.exists_mem
  exact text_inj hc hc' (h.key_eq.symm.trans (heq.trans h'.key_eq))

end IsGroup

/-- There is an exact group exactly for each number that at least two customers share. -/
theorem mem_exact_groups_iff {s : Settings} {recent : List Customer} {g : Group} :
    g ∈ exactGroups s recent ↔ ∃ ds, (number ds).IsGroup s recent g := by
  rw [mem_exact_groups]
  constructor
  · rintro ⟨ds, hdigits, htwo, hbuild⟩
    exact ⟨ds, hdigits, htwo, hbuild⟩
  · rintro ⟨ds, h⟩
    exact ⟨ds, h.digits_ne_nil, h.two_le_length, h.built⟩

/-- The fuzzy candidates are the groups of the pairs that at least two customers share. -/
theorem mem_candidates_iff {s : Settings} {recent : List Customer} {g : Group} :
    g ∈ (Buckets.gather fuzzyBefore fuzzyKey recent).filterMap (fuzzyCandidate? s) ↔
      ∃ key, (pair key).IsGroup s recent g := by
  rw [List.mem_filterMap]
  constructor
  · rintro ⟨⟨key, members⟩, hbucket, hcandidate⟩
    obtain ⟨rfl, -⟩ := (Buckets.mem_gather fuzzy_key_order).mp hbucket
    obtain ⟨hdigits, htwo, hbuild⟩ := fuzzy_candidate_eq_some_iff.mp hcandidate
    exact ⟨key, hdigits, htwo, hbuild⟩
  · rintro ⟨key, h⟩
    have hne := ne_nil_of_two_le h.two_le_length
    exact ⟨(key, pairRows recent key), (Buckets.mem_gather fuzzy_key_order).mpr ⟨rfl, hne⟩,
      fuzzy_candidate_eq_some_iff.mpr ⟨h.digits_ne_nil, h.two_le_length, h.built⟩⟩

/-- Every group found is the group of a key. -/
theorem exists_key_of_mem_all_groups {s : Settings} {recent : List Customer}
    {includeFuzzy : Bool} {g : Group} (h : g ∈ allGroups s recent includeFuzzy) :
    ∃ k : SharedKey, k.IsGroup s recent g := by
  have hexact : g ∈ exactGroups s recent → ∃ k : SharedKey, k.IsGroup s recent g := by
    intro hg
    obtain ⟨ds, hgroup⟩ := mem_exact_groups_iff.mp hg
    exact ⟨_, hgroup⟩
  unfold allGroups at h
  split at h
  · obtain ⟨fuzzy, hfold, hsub⟩ :=
      fold_add_fuzzy_append s (Buckets.gather fuzzyBefore fuzzyKey recent) (exactGroups s recent)
    rw [hfold, List.mem_append] at h
    rcases h with h | h
    · exact hexact h
    · obtain ⟨key, hgroup⟩ := mem_candidates_iff.mp (hsub.subset h)
      exact ⟨_, hgroup⟩
  · exact hexact h

/-- The customers of a key among those that a scan looks at. -/
theorem rows_recent (k : SharedKey) (today : Date) (days : Int) (table : List Customer) :
    k.rows (recentCustomers today days table) =
      table.filter fun c => Recent today days c ∧ k.Has c :=
  filter_recent today days table fun c => k.Has c

end SharedKey

end CustomerDedupe.Duplicates
