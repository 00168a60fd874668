import Mathlib.Data.List.Nodup
import CustomerDedupe.Duplicates.Group
import CustomerDedupe.Proofs.Order.Stable

/-!
# The order in which groups list their members

`ListedNewestFirst rows members` says what it means to list some rows from the last assignment
to the first without disturbing rows of equal date. `newest_first_listed` says that
`newestFirst` does so, and `ListedNewestFirst.unique` that there is no other way. `NewestOf` singles
out one of the rows that pass a test, and `find_newest_first_eq_some_iff` says that a search from
the newest on stops at it.
-/

namespace CustomerDedupe.Duplicates

open Calendar (Instant)

/-- `members` are the rows, each as often as among the rows, the one assigned last first, and
those assigned at the same time in the order of the rows. -/
structure ListedNewestFirst (rows members : List Customer) : Prop where
  perm : members.Perm rows
  descending : members.Pairwise fun a b => b.assignedDate ≤ a.assignedDate
  ties : ∀ t : Instant, members.filter (fun c => c.assignedDate = t) =
    rows.filter (fun c => c.assignedDate = t)

/-- The later assignment is preferred. -/
theorem newest_preference :
    Order.Preference fun a b : Customer => decide (b.assignedDate ≤ a.assignedDate) where
  trans a b c hab hbc := by
    rw [decide_eq_true_eq] at hab hbc ⊢
    exact Instant.le_trans hbc hab
  total a b := by
    rw [Bool.or_eq_true, decide_eq_true_eq, decide_eq_true_eq]
    exact Instant.le_total b.assignedDate a.assignedDate

/-- Customers are tied if they were assigned at the same time. -/
theorem tied_newest_eq (c : Customer) :
    Order.tied (fun a b : Customer => decide (b.assignedDate ≤ a.assignedDate)) c =
      fun d => decide (d.assignedDate = c.assignedDate) := by
  funext d
  rw [Bool.eq_iff_iff, Order.tied_iff, decide_eq_true_eq, decide_eq_true_eq, decide_eq_true_eq]
  constructor
  · rintro ⟨hdc, hcd⟩
    exact Instant.le_antisymm hdc hcd
  · intro h
    rw [h]
    exact ⟨Int.le_refl _, Int.le_refl _⟩

/-- `newestFirst` neither loses nor repeats a customer. -/
theorem newest_first_perm (rows : List Customer) : (newestFirst rows).Perm rows :=
  List.mergeSort_perm rows _

@[simp] theorem mem_newest_first {rows : List Customer} {c : Customer} :
    c ∈ newestFirst rows ↔ c ∈ rows :=
  (newest_first_perm rows).mem_iff

@[simp] theorem length_newest_first (rows : List Customer) :
    (newestFirst rows).length = rows.length :=
  (newest_first_perm rows).length_eq

/-- Customers may be chosen before or after they are listed. -/
theorem newest_first_filter (p : Customer → Bool) (rows : List Customer) :
    newestFirst (rows.filter p) = (newestFirst rows).filter p :=
  (newest_preference.filter_merge_sort p rows).symm

/-- `newestFirst` lists customers from the last assignment to the first. -/
theorem newest_first_listed (rows : List Customer) :
    ListedNewestFirst rows (newestFirst rows) where
  perm := newest_first_perm rows
  descending := (newest_preference.sorted_merge_sort rows).imp fun h => of_decide_eq_true h
  ties t := by
    -- the customers of a date are those tied with anyone assigned then
    have hties := newest_preference.filter_tied_merge_sort (Customer.assigned 0 t) rows
    rwa [tied_newest_eq] at hties

/-- There is only one way to list rows from the last assignment to the first. -/
theorem ListedNewestFirst.unique {rows members : List Customer}
    (h : ListedNewestFirst rows members) : members = newestFirst rows := by
  have hlisted := newest_first_listed rows
  refine newest_preference.eq_of_sorted_of_tied (h.descending.imp fun hle => decide_eq_true hle)
    (hlisted.descending.imp fun hle => decide_eq_true hle) ?_
  intro c
  rw [tied_newest_eq]
  exact (h.ties c.assignedDate).trans (hlisted.ties c.assignedDate).symm

/-- Customers assigned at different times are listed in one way only. -/
theorem newest_first_eq_of_perm {rows rows' : List Customer} (h : rows.Perm rows')
    (hdates : (rows.map Customer.assignedDate).Nodup) : newestFirst rows = newestFirst rows' := by
  have hperm : (newestFirst rows).Perm (newestFirst rows') :=
    (newest_first_perm rows).trans (h.trans (newest_first_perm rows').symm)
  refine hperm.eq_of_pairwise ?_ (newest_first_listed rows).descending
    (newest_first_listed rows').descending
  intro a b ha hb hba hab
  have hdate : a.assignedDate = b.assignedDate := Instant.le_antisymm hab hba
  exact List.inj_on_of_nodup_map hdates (mem_newest_first.mp ha)
    (h.mem_iff.mpr (mem_newest_first.mp hb)) hdate

/-- Rows that stand from the last assignment to the first stay as they are. -/
theorem newest_first_eq_self {rows : List Customer}
    (h : rows.Pairwise fun a b => b.assignedDate ≤ a.assignedDate) : newestFirst rows = rows :=
  (ListedNewestFirst.unique ⟨List.Perm.refl rows, h, fun _ => rfl⟩).symm

/-! ## The newest row that passes a test -/

/-- Of the rows that pass a test, the one assigned last, and the first in their order of those
assigned at the same time. -/
structure NewestOf (p : Customer → Bool) (rows : List Customer) (c : Customer) : Prop where
  passes : p c = true
  place : ∃ before after, rows = before ++ c :: after ∧
    (∀ d ∈ before, p d = true → d.assignedDate < c.assignedDate) ∧
    ∀ d ∈ after, p d = true → d.assignedDate ≤ c.assignedDate

variable {p : Customer → Bool} {rows : List Customer} {c : Customer}

/-- There is only one such row. -/
theorem NewestOf.unique {d : Customer} (hc : NewestOf p rows c) (hd : NewestOf p rows d) :
    c = d := by
  obtain ⟨before, after, hrows, hbefore, hafter⟩ := hc.place
  obtain ⟨before', after', hrows', hbefore', hafter'⟩ := hd.place
  -- if one stood before the other, it would have been assigned both earlier and no earlier
  rcases List.append_eq_append_iff.mp (hrows.symm.trans hrows') with
    ⟨between, rfl, hsplit⟩ | ⟨between, rfl, hsplit⟩
  · cases between with
    | nil => exact (List.cons.inj hsplit).1
    | cons e between =>
        obtain ⟨rfl, rfl⟩ := List.cons.inj hsplit
        have hlt := hbefore' c (by simp) hc.passes
        have hle := hafter d (by simp) hd.passes
        exact absurd hlt (Int.not_lt.mpr hle)
  · cases between with
    | nil => exact (List.cons.inj hsplit).1.symm
    | cons e between =>
        obtain ⟨rfl, rfl⟩ := List.cons.inj hsplit
        have hlt := hbefore d (by simp) hd.passes
        have hle := hafter' c (by simp) hc.passes
        exact absurd hlt (Int.not_lt.mpr hle)

/-- A search from the newest row on stops at the newest row that passes. -/
theorem newest_of_find (h : (newestFirst rows).find? p = some c) : NewestOf p rows c := by
  have hpass : p c = true := List.find?_some h
  have hhead : ((newestFirst rows).filter p).head? = some c := by
    rw [List.head?_filter]
    exact h
  obtain ⟨rest, hlisted⟩ := List.head?_eq_some_iff.mp hhead
  have hsorted := (newest_first_listed rows).descending.filter p
  rw [hlisted] at hsorted
  have hle : ∀ d ∈ rows, p d = true → d.assignedDate ≤ c.assignedDate := by
    intro d hd hd'
    have hmem : d ∈ (newestFirst rows).filter p :=
      List.mem_filter.mpr ⟨mem_newest_first.mpr hd, hd'⟩
    rw [hlisted] at hmem
    rcases List.mem_cons.mp hmem with rfl | hmem
    · exact Int.le_refl _
    · exact (List.pairwise_cons.mp hsorted).1 d hmem
  -- among the rows of its date that pass, the order is that of the rows
  have hties : (rows.filter fun d => p d && decide (d.assignedDate = c.assignedDate)) =
      c :: rest.filter fun d => decide (d.assignedDate = c.assignedDate) := by
    have hsame := congrArg (List.filter p) ((newest_first_listed rows).ties c.assignedDate)
    rw [List.filter_comm, hlisted, List.filter_cons_of_pos (by simp), List.filter_filter] at hsame
    exact hsame.symm
  obtain ⟨before, after, hrows, hbefore, -, -⟩ := List.filter_eq_cons_iff.mp hties
  refine ⟨hpass, before, after, hrows, ?_, ?_⟩
  · intro d hd hd'
    have hother : d.assignedDate ≠ c.assignedDate := by
      intro heq
      exact hbefore d hd (by simp [hd', heq])
    have hmem : d ∈ rows := hrows ▸ List.mem_append_left _ hd
    rcases Int.lt_or_eq_of_le (hle d hmem hd') with hlt | heq
    · exact hlt
    · exact absurd (Instant.rank_injective heq) hother
  · intro d hd hd'
    exact hle d (hrows ▸ List.mem_append_right _ (List.mem_cons_of_mem _ hd)) hd'

/-- The newest row that passes is the one at which a search from the newest row on stops. -/
theorem find_newest_first_eq_some_iff :
    (newestFirst rows).find? p = some c ↔ NewestOf p rows c := by
  refine ⟨newest_of_find, ?_⟩
  intro h
  obtain ⟨before, after, hrows, -, -⟩ := h.place
  have hmem : c ∈ newestFirst rows := mem_newest_first.mpr (hrows ▸ by simp)
  obtain ⟨d, hd⟩ := Option.isSome_iff_exists.mp (List.find?_isSome.mpr ⟨c, hmem, h.passes⟩)
  rw [hd, h.unique (newest_of_find hd)]

/-- Nothing is found exactly if no row passes. -/
theorem find_newest_first_eq_none_iff :
    (newestFirst rows).find? p = none ↔ ∀ d ∈ rows, ¬p d = true := by
  rw [List.find?_eq_none]
  simp only [mem_newest_first]

end CustomerDedupe.Duplicates
