import Mathlib.Data.List.Basic

/-!
# Stable sorting

A preference compares any two items and may leave them tied. Sorting by it keeps tied items in
their order, and this leaves only one way to sort a list: `eq_of_sorted_of_tied`. Hence sorting
commutes with choosing items (`filter_merge_sort`), and whatever order the items had before is
the order of those that are tied afterwards (`pairwise_merge_sort_of_pairwise`).
-/

namespace CustomerDedupe.Order

variable {α : Type} {le : α → α → Bool}

/-- A comparison that is transitive and decides between any two items. -/
structure Preference (le : α → α → Bool) : Prop where
  trans : ∀ a b c, le a b = true → le b c = true → le a c = true
  total : ∀ a b, (le a b || le b a) = true

/-- Neither of two items is preferred to the other. -/
def tied (le : α → α → Bool) (a b : α) : Bool :=
  le a b && le b a

theorem tied_iff {a b : α} : tied le a b = true ↔ le a b = true ∧ le b a = true :=
  Bool.and_eq_true_iff

namespace Preference

variable (h : Preference le)

include h

/-- An item is tied with itself. -/
theorem tied_self (a : α) : tied le a a = true := by
  have hself := h.total a a
  rw [Bool.or_self] at hself
  exact tied_iff.mpr ⟨hself, hself⟩

/-- Items that are tied with one item are tied with each other. -/
theorem tied_of_tied {a b c : α} (hab : tied le a b = true) (hac : tied le a c = true) :
    tied le b c = true := by
  obtain ⟨hle, hge⟩ := tied_iff.mp hab
  obtain ⟨hle', hge'⟩ := tied_iff.mp hac
  exact tied_iff.mpr ⟨h.trans b a c hge hle', h.trans c a b hge' hle⟩

/-- A sorted list has sorted items. -/
theorem sorted_merge_sort (l : List α) : (l.mergeSort le).Pairwise fun a b => le a b = true :=
  List.pairwise_mergeSort h.trans h.total l

/-- Items that are tied keep their order. -/
theorem filter_tied_merge_sort (a : α) (l : List α) :
    (l.mergeSort le).filter (tied le a) = l.filter (tied le a) := by
  have hpairwise : (l.filter (tied le a)).Pairwise fun b c => le b c = true := by
    refine List.Pairwise.imp_of_mem ?_ (List.pairwise_of_forall (R := fun _ _ => True)
      fun _ _ => trivial)
    intro b c hb hc _
    have hbc := h.tied_of_tied (List.mem_filter.mp hb).2 (List.mem_filter.mp hc).2
    exact (tied_iff.mp hbc).1
  -- tied items are sorted already, so the sort keeps them as a sublist
  have hsublist : (l.filter (tied le a)).Sublist (l.mergeSort le) :=
    List.sublist_mergeSort h.trans h.total hpairwise List.filter_sublist
  have hkept := hsublist.filter (tied le a)
  rw [List.filter_filter] at hkept
  simp only [Bool.and_self] at hkept
  exact (hkept.eq_of_length ((List.mergeSort_perm l le).filter _).length_eq.symm).symm

/-- Lists that agree on the items tied with any one have the same items. -/
theorem mem_iff_of_tied {left right : List α}
    (hties : ∀ a, left.filter (tied le a) = right.filter (tied le a)) (a : α) :
    a ∈ left ↔ a ∈ right := by
  have hself := congrArg (a ∈ ·) (hties a)
  simpa only [List.mem_filter, h.tied_self a, and_true, eq_iff_iff] using hself

/-- The first item of a sorted list is preferred to all its items. -/
theorem le_of_mem_cons {a b : α} {l : List α}
    (hsorted : (a :: l).Pairwise fun b c => le b c = true) (hb : b ∈ a :: l) :
    le a b = true := by
  rcases List.mem_cons.mp hb with rfl | hb
  · exact (tied_iff.mp (h.tied_self b)).1
  · exact (List.pairwise_cons.mp hsorted).1 b hb

/-- Sorted lists are equal if they agree on the items tied with any one. -/
theorem eq_of_sorted_of_tied {left right : List α}
    (hleft : left.Pairwise fun a b => le a b = true)
    (hright : right.Pairwise fun a b => le a b = true)
    (hties : ∀ a, left.filter (tied le a) = right.filter (tied le a)) : left = right := by
  induction left generalizing right with
  | nil =>
      refine (List.eq_nil_iff_forall_not_mem.mpr ?_).symm
      intro a ha
      exact List.not_mem_nil ((h.mem_iff_of_tied hties a).mpr ha)
  | cons a left ih =>
      cases right with
      | nil =>
          exact absurd ((h.mem_iff_of_tied hties a).mp List.mem_cons_self) List.not_mem_nil
      | cons b right =>
          -- each first item is preferred to the other, so both lead the items tied with them
          have hba : le b a = true :=
            h.le_of_mem_cons hright ((h.mem_iff_of_tied hties a).mp List.mem_cons_self)
          have hab : le a b = true :=
            h.le_of_mem_cons hleft ((h.mem_iff_of_tied hties b).mpr List.mem_cons_self)
          have hheads := hties a
          rw [List.filter_cons_of_pos (h.tied_self a),
            List.filter_cons_of_pos (tied_iff.mpr ⟨hab, hba⟩)] at hheads
          obtain rfl := (List.cons.inj hheads).1
          congr 1
          apply ih (List.pairwise_cons.mp hleft).2 (List.pairwise_cons.mp hright).2
          intro c
          have htails := hties c
          by_cases hca : tied le c a = true
          · rw [List.filter_cons_of_pos hca, List.filter_cons_of_pos hca] at htails
            exact (List.cons.inj htails).2
          · rwa [List.filter_cons_of_neg hca, List.filter_cons_of_neg hca] at htails

/-- Items may be chosen before or after sorting. -/
theorem filter_merge_sort (p : α → Bool) (l : List α) :
    (l.mergeSort le).filter p = (l.filter p).mergeSort le := by
  refine h.eq_of_sorted_of_tied ((h.sorted_merge_sort l).filter p)
    (h.sorted_merge_sort (l.filter p)) ?_
  intro a
  rw [h.filter_tied_merge_sort, List.filter_comm, h.filter_tied_merge_sort, List.filter_comm]

/-- Of two items of a sorted list the first is preferred, or they are tied and stand in the
order in which they stood before. -/
theorem pairwise_merge_sort_of_pairwise {R : α → α → Prop} {l : List α} (hl : l.Pairwise R) :
    (l.mergeSort le).Pairwise fun a b => le a b = true ∧ (le b a = true → R a b) := by
  refine (h.sorted_merge_sort l).and (List.pairwise_iff_forall_sublist.mpr ?_)
  intro a b hsub hba
  have hab : le a b = true := by
    have hpair := (h.sorted_merge_sort l).sublist hsub
    exact (List.pairwise_cons.mp hpair).1 b (List.mem_singleton_self b)
  -- both are among the items tied with the first, which the sort has not moved
  have hkept := hsub.filter (tied le a)
  rw [List.filter_cons_of_pos (h.tied_self a),
    List.filter_cons_of_pos (tied_iff.mpr ⟨hab, hba⟩), List.filter_nil,
    h.filter_tied_merge_sort] at hkept
  exact List.pairwise_iff_forall_sublist.mp hl (hkept.trans List.filter_sublist)

end Preference

end CustomerDedupe.Order
