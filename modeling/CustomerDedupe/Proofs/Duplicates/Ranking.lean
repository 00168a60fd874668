import CustomerDedupe.Proofs.Duplicates.ExactGroups

/-!
# One ranked list

A search ranks the groups it has found by a preference that leaves groups tied, and the sort
keeps tied groups in the order in which they were found. So groups may be left out before or
after ranking (`rank_filter`). The main result, `threshold_and_kind_only_filter`, says that the
threshold and the fuzzy search choose from one ranked list and never reorder it.
-/

namespace CustomerDedupe.Duplicates

open Calendar (Date)

/-- What ranking compares: the score first, then the size, then the latest assignment. -/
theorem ranks_before_iff {a b : Group} :
    ranksBefore a b = true ↔ b.score < a.score ∨ a.score = b.score ∧
      (b.count < a.count ∨ a.count = b.count ∧
        b.latestAssigned.rank ≤ a.latestAssigned.rank) := by
  unfold ranksBefore
  split
  · rw [decide_eq_true_eq]
    omega
  · split
    · rw [decide_eq_true_eq]
      omega
    · have hlatest : b.latestAssigned ≤ a.latestAssigned ↔
          b.latestAssigned.rank ≤ a.latestAssigned.rank := Iff.rfl
      rw [decide_eq_true_eq, hlatest]
      omega

/-- Ranking is a preference. -/
theorem ranks_preference : Order.Preference ranksBefore where
  trans a b c hab hbc := by
    rw [ranks_before_iff] at hab hbc ⊢
    omega
  total a b := by
    rw [Bool.or_eq_true, ranks_before_iff, ranks_before_iff]
    omega

/-- Groups may be left out before or after the others are ranked. -/
theorem rank_filter (threshold : Nat) (p : Group → Bool) (groups : List Group) :
    rank threshold (groups.filter p) = (rank threshold groups).filter p := by
  unfold rank
  rw [ranks_preference.filter_merge_sort, List.filter_comm]

/-- Raising the threshold leaves groups out of the ranked ones. -/
theorem rank_eq_filter (threshold : Nat) (groups : List Group) :
    rank threshold groups = (rank 0 groups).filter fun g => threshold ≤ g.score := by
  have hall : (groups.filter fun g => threshold ≤ g.score).filter (fun g => 0 ≤ g.score) =
      groups.filter fun g => threshold ≤ g.score :=
    List.filter_eq_self.mpr fun g _ => decide_eq_true (Nat.zero_le g.score)
  rw [← rank_filter, rank, rank, hall]

/-- Which groups are found does not depend on the threshold. -/
theorem all_groups_threshold (s : Settings) (threshold : Int) (recent : List Customer)
    (includeFuzzy : Bool) :
    allGroups { s with scoreThreshold := threshold } recent includeFuzzy =
      allGroups s recent includeFuzzy :=
  rfl

/-- A scan with a threshold leaves the groups below it out of a scan without one. -/
theorem scan_threshold (s : Settings) (threshold : Int) (today : Date) (days : Int)
    (includeFuzzy : Bool) (table : List Customer) :
    scan { s with scoreThreshold := threshold } today days includeFuzzy table =
      (scan { s with scoreThreshold := 0 } today days includeFuzzy table).filter
        fun g => 10 * max 0 (min threshold 100) ≤ (g.score : Int) := by
  have hnone : thresholdTenths { s with scoreThreshold := 0 } = 0 := rfl
  rw [scan, scan, all_groups_threshold, all_groups_threshold, hnone, rank_eq_filter]
  refine List.filter_congr ?_
  intro g _
  rw [decide_eq_decide]
  exact threshold_tenths_le_iff { s with scoreThreshold := threshold } g.score

/-- A scan without fuzzy groups leaves them out of a scan with them. -/
theorem scan_without_fuzzy (s : Settings) (today : Date) (days : Int) (table : List Customer) :
    scan s today days false table =
      (scan s today days true table).filter fun g => g.kind ≠ .fuzzy := by
  have hkinds : ∀ groups : List Group,
      groups.filter (fun g => g.kind = .exact) = groups.filter fun g => g.kind ≠ .fuzzy := by
    intro groups
    refine List.filter_congr ?_
    intro g _
    cases g.kind <;> rfl
  have hexact : allGroups s (recentCustomers today days table) false =
      exactGroups s (recentCustomers today days table) := rfl
  rw [scan, scan, hexact, ← filter_exact_all_groups s _ true, rank_filter, hkinds]

/-- Searches of one table that differ only in the threshold or in whether fuzzy groups are
sought return parts of one ranked list. With a threshold, a search returns the groups of the
same search with threshold zero whose score, counted in tenths, reaches ten times the threshold
moved between 0 and 100. Without fuzzy groups, it returns the groups of the same search with
them that are not fuzzy. In both cases they stand in the same order. -/
theorem threshold_and_kind_only_filter (s : Settings) (today : Date) (days : Int)
    (table : List Customer) :
    let found (threshold : Int) (includeFuzzy : Bool) : Except Failure (List Group) :=
      (Action.runOn (find MemoryStore.store { s with scoreThreshold := threshold } today days
        includeFuzzy) (MemoryStore.ofRows table)).1
    (∀ threshold includeFuzzy, ∃ groups, found 0 includeFuzzy = .ok groups ∧
      found threshold includeFuzzy =
        .ok (groups.filter fun g => 10 * max 0 (min threshold 100) ≤ (g.score : Int))) ∧
    ∀ threshold, ∃ groups, found threshold true = .ok groups ∧
      found threshold false = .ok (groups.filter fun g => g.kind ≠ .fuzzy) := by
  intro found
  constructor
  · intro threshold includeFuzzy
    refine ⟨_, find_in_memory _ today days includeFuzzy table, ?_⟩
    rw [← scan_threshold]
    exact find_in_memory _ today days includeFuzzy table
  · intro threshold
    refine ⟨_, find_in_memory _ today days true table, ?_⟩
    rw [← scan_without_fuzzy]
    exact find_in_memory _ today days false table

end CustomerDedupe.Duplicates
