import CustomerDedupe.Duplicates.Buckets

/-!
# What buckets hold

Gathering loses no item and invents none. `gathered_gather` is the invariant of the loop that
puts the items in one after another: the keys ascend strictly, and the bucket of a key holds
exactly the items of that key, in their order. `mem_gather` and `ascending_gather` are its two
halves, and `keys_gather_perm` says that the keys do not depend on the order of the items.
-/

namespace CustomerDedupe.Duplicates.Buckets

variable {κ α : Type} {before : κ → κ → Bool}

/-- A strict order of keys in which any two different keys are comparable. -/
structure KeyOrder (before : κ → κ → Bool) : Prop where
  irrefl : ∀ j, before j j = false
  trans : ∀ {i j k}, before i j = true → before j k = true → before i k = true
  connected : ∀ {j k}, j ≠ k → before j k = false → before k j = true

/-- A key that comes before another differs from it. -/
theorem KeyOrder.ne (order : KeyOrder before) {j k : κ} (h : before j k = true) : j ≠ k := by
  rintro rfl
  exact Bool.false_ne_true ((order.irrefl j).symm.trans h)

/-- The keys of the buckets ascend strictly. -/
def Ascending (before : κ → κ → Bool) (buckets : Buckets κ α) : Prop :=
  buckets.Pairwise fun a b => before a.1 b.1 = true

/-- In ascending buckets the first key comes before all others. -/
theorem Ascending.before_of_mem {j k : κ} {items others : List α} {rest : Buckets κ α}
    (h : Ascending before ((j, items) :: rest)) (hk : (k, others) ∈ rest) :
    before j k = true :=
  (List.pairwise_cons.mp h).1 _ hk

/-- No key has two buckets. -/
theorem Ascending.keys_nodup (order : KeyOrder before) {buckets : Buckets κ α}
    (h : Ascending before buckets) : (buckets.map Prod.fst).Nodup :=
  List.pairwise_map.mpr (h.imp order.ne)

variable [DecidableEq κ]

/-- Putting an item into a bucket leaves those of other keys alone. -/
theorem mem_put_of_ne {j k : κ} (hjk : j ≠ k) (a : α) (items : List α)
    (buckets : Buckets κ α) :
    (j, items) ∈ put before k a buckets ↔ (j, items) ∈ buckets := by
  induction buckets with
  | nil => simp [put, hjk]
  | cons bucket rest ih =>
      obtain ⟨i, others⟩ := bucket
      unfold put
      split
      · next hki =>
        subst hki
        simp [hjk]
      · split <;> simp [hjk, ih]

/-- The bucket of the key that an item is put under gains this item at its end. -/
theorem mem_put_self (order : KeyOrder before) {k : κ} {a : α} {items : List α}
    {buckets : Buckets κ α} (h : Ascending before buckets) :
    (k, items) ∈ put before k a buckets ↔
      (∃ old, (k, old) ∈ buckets ∧ items = old ++ [a]) ∨
        ((∀ old, (k, old) ∉ buckets) ∧ items = [a]) := by
  induction buckets with
  | nil => simp [put]
  | cons bucket rest ih =>
      obtain ⟨j, others⟩ := bucket
      have hrest : Ascending before rest := (List.pairwise_cons.mp h).2
      by_cases hkj : k = j
      · subst hkj
        have habsent : ∀ old, (k, old) ∉ rest := fun old hold =>
          order.ne (h.before_of_mem hold) rfl
        simp only [put, if_true, List.mem_cons, Prod.mk.injEq, true_and]
        constructor
        · rintro (rfl | hitems)
          · exact .inl ⟨others, .inl rfl, rfl⟩
          · exact absurd hitems (habsent items)
        · rintro (⟨old, rfl | hold, rfl⟩ | ⟨hnone, -⟩)
          · exact .inl rfl
          · exact absurd hold (habsent old)
          · exact absurd (.inl rfl) (hnone others)
      · by_cases hbefore : before k j = true
        · -- Every later key comes after `j`, so the key has no bucket further on either.
          have habsent : ∀ old, (k, old) ∉ rest := fun old hold =>
            order.ne (order.trans hbefore (h.before_of_mem hold)) rfl
          simp [put, hkj, hbefore, habsent]
        · simp [put, hkj, hbefore, ih hrest]

/-- Putting an item in keeps the keys ascending. -/
theorem ascending_put (order : KeyOrder before) (k : κ) (a : α) {buckets : Buckets κ α}
    (h : Ascending before buckets) : Ascending before (put before k a buckets) := by
  induction buckets with
  | nil => exact List.pairwise_singleton _ _
  | cons bucket rest ih =>
      obtain ⟨j, others⟩ := bucket
      obtain ⟨hfirst, hrest⟩ := List.pairwise_cons.mp h
      unfold put
      split
      · exact List.pairwise_cons.mpr ⟨hfirst, hrest⟩
      · next hkj =>
        split
        · next hbefore =>
          refine List.pairwise_cons.mpr ⟨?_, h⟩
          intro b hb
          rcases List.mem_cons.mp hb with rfl | hb
          · exact hbefore
          · exact order.trans hbefore (hfirst b hb)
        · next hbefore =>
          refine List.pairwise_cons.mpr ⟨?_, ih hrest⟩
          rintro ⟨i, items⟩ hb
          by_cases hik : i = k
          · subst hik
            exact order.connected hkj (by simpa using hbefore)
          · exact hfirst _ ((mem_put_of_ne hik a items rest).mp hb)

/-- The buckets of some items: the keys ascend, and the bucket of a key holds exactly the items
of that key in their order. -/
structure Gathered (before : κ → κ → Bool) (key : α → κ) (items : List α)
    (buckets : Buckets κ α) : Prop where
  ascending : Ascending before buckets
  mem_iff : ∀ k members, (k, members) ∈ buckets ↔
    members = items.filter (fun a => key a = k) ∧ members ≠ []

/-- One more item keeps the buckets those of the items put in. -/
theorem Gathered.put (order : KeyOrder before) {key : α → κ} {items : List α}
    {buckets : Buckets κ α} (h : Gathered before key items buckets) (a : α) :
    Gathered before key (items ++ [a]) (put before (key a) a buckets) where
  ascending := ascending_put order _ _ h.ascending
  mem_iff k members := by
    by_cases hk : k = key a
    · subst hk
      rw [mem_put_self order h.ascending]
      simp only [h.mem_iff, List.filter_append, List.filter_cons, decide_true, if_true,
        List.filter_nil]
      constructor
      · rintro (⟨old, ⟨rfl, -⟩, rfl⟩ | ⟨hnone, rfl⟩)
        · exact ⟨rfl, by simp⟩
        · have hempty : items.filter (fun b => key b = key a) = [] :=
            Classical.byContradiction fun hne => hnone _ ⟨rfl, hne⟩
          simp [hempty]
      · rintro ⟨rfl, -⟩
        by_cases hempty : items.filter (fun b => key b = key a) = []
        · exact .inr ⟨fun old hold => hold.2 (hold.1.trans hempty), by simp [hempty]⟩
        · exact .inl ⟨_, ⟨rfl, hempty⟩, rfl⟩
    · have hka : key a ≠ k := fun heq => hk heq.symm
      rw [mem_put_of_ne hk, h.mem_iff]
      simp [List.filter_append, hka]

/-- The loop that gathers items keeps the buckets those of the items seen so far. -/
theorem gathered_gather (order : KeyOrder before) (key : α → κ) (items : List α) :
    Gathered before key items (gather before key items) := by
  suffices hrun : ∀ seen buckets, Gathered before key seen buckets →
      Gathered before key (seen ++ items)
        (items.foldl (fun buckets a => Buckets.put before (key a) a buckets) buckets) by
    exact hrun [] [] ⟨List.Pairwise.nil, by simp⟩
  induction items with
  | nil =>
      intro seen buckets h
      simpa using h
  | cons a rest ih =>
      intro seen buckets h
      simpa using ih (seen ++ [a]) _ (h.put order a)

/-- A bucket is there exactly if it holds all items of its key, of which there is one. -/
theorem mem_gather (order : KeyOrder before) {key : α → κ} {items : List α} {k : κ}
    {members : List α} :
    (k, members) ∈ gather before key items ↔
      members = items.filter (fun a => key a = k) ∧ members ≠ [] :=
  (gathered_gather order key items).mem_iff k members

/-- Gathered buckets stand in strictly ascending order of their keys. -/
theorem ascending_gather (order : KeyOrder before) (key : α → κ) (items : List α) :
    Ascending before (gather before key items) :=
  (gathered_gather order key items).ascending

/-- The keys of gathered buckets are those of the items. -/
theorem mem_keys_gather (order : KeyOrder before) {key : α → κ} {items : List α} {k : κ} :
    k ∈ (gather before key items).map Prod.fst ↔ ∃ a ∈ items, key a = k := by
  rw [List.mem_map]
  constructor
  · rintro ⟨⟨k, members⟩, hbucket, rfl⟩
    obtain ⟨rfl, hne⟩ := (mem_gather order).mp hbucket
    obtain ⟨a, ha⟩ := List.exists_mem_of_ne_nil _ hne
    exact ⟨a, (List.mem_filter.mp ha).1, of_decide_eq_true (List.mem_filter.mp ha).2⟩
  · rintro ⟨a, ha, rfl⟩
    refine ⟨(key a, items.filter fun b => key b = key a), (mem_gather order).mpr ⟨rfl, ?_⟩, rfl⟩
    exact List.ne_nil_of_mem (List.mem_filter.mpr ⟨ha, decide_eq_true rfl⟩)

/-- Gathered buckets are their keys with the items of each. -/
theorem gather_eq_map (order : KeyOrder before) (key : α → κ) (items : List α) :
    gather before key items =
      ((gather before key items).map Prod.fst).map
        fun k => (k, items.filter fun a => key a = k) := by
  have hself : ∀ bucket ∈ gather before key items,
      (bucket.1, items.filter fun a => key a = bucket.1) = bucket := by
    rintro ⟨k, members⟩ hbucket
    rw [← ((mem_gather order).mp hbucket).1]
  rw [List.map_map]
  exact ((List.map_congr_left hself).trans (List.map_id' _)).symm

/-- What is made of gathered buckets stands in the order of their keys. -/
theorem pairwise_filter_map_gather {γ : Type} (order : KeyOrder before) (key : α → κ)
    (items : List α) (f : κ × List α → Option γ) {R : γ → γ → Prop}
    (h : ∀ j k a b, before j k = true → f (j, items.filter fun i => key i = j) = some a →
      f (k, items.filter fun i => key i = k) = some b → R a b) :
    ((gather before key items).filterMap f).Pairwise R := by
  have hkeys : ((gather before key items).map Prod.fst).Pairwise fun j k => before j k = true :=
    List.pairwise_map.mpr (ascending_gather order key items)
  rw [gather_eq_map order key items, List.filterMap_map]
  refine hkeys.filterMap _ ?_
  intro j k hjk a ha b hb
  exact h j k a b hjk ha hb

/-- The keys of gathered buckets do not depend on the order of the items. -/
theorem keys_gather_perm (order : KeyOrder before) (key : α → κ) {items items' : List α}
    (h : items.Perm items') :
    (gather before key items).map Prod.fst = (gather before key items').map Prod.fst := by
  have hascending := ascending_gather order key items
  have hascending' := ascending_gather order key items'
  have hperm : ((gather before key items).map Prod.fst).Perm
      ((gather before key items').map Prod.fst) := by
    rw [List.perm_ext_iff_of_nodup (hascending.keys_nodup order) (hascending'.keys_nodup order)]
    intro k
    simp only [mem_keys_gather order, h.mem_iff]
  -- keys that both stand in ascending order can be listed in one way only
  have hkeys : ((gather before key items).map Prod.fst).Pairwise fun j k => before j k = true :=
    List.pairwise_map.mpr hascending
  refine hperm.eq_of_pairwise ?_ hkeys (List.pairwise_map.mpr hascending')
  intro j k _ _ hjk hkj
  exact absurd rfl (order.ne (order.trans hjk hkj))

end CustomerDedupe.Duplicates.Buckets
