import CustomerDedupe.Proofs.Duplicates.ScoreParts

/-!
# The place of the member compared

A score compares the others with the first of the members assigned last. `LatestAt` says of a place
that this member stands there, and `reference_place_eq_some_iff` that going through the group finds
this place.
-/

namespace CustomerDedupe.Duplicates

/-- The member at a place was assigned last, and before it stands nobody assigned at the same
time. -/
def LatestAt (group : List Customer) (i : Nat) : Prop :=
  ∃ r, group[i]? = some r ∧ ∀ j c, group[j]? = some c →
    c.assignedDate ≤ r.assignedDate ∧ (j < i → c.assignedDate < r.assignedDate)

variable {group before rest : List Customer} {i j : Nat}

/-- There is only one such place. -/
theorem LatestAt.unique (hi : LatestAt group i) (hj : LatestAt group j) : i = j := by
  obtain ⟨r, hr, hlatest⟩ := hi
  obtain ⟨q, hq, hlatest'⟩ := hj
  rcases Nat.lt_trichotomy i j with hlt | heq | hgt
  · exact absurd ((hlatest' i r hr).2 hlt) (Int.not_lt.mpr (hlatest j q hq).1)
  · exact heq
  · exact absurd ((hlatest j q hq).2 hgt) (Int.not_lt.mpr (hlatest' i r hr).1)

/-- Looking at one more member finds the place among those looked at. -/
theorem LatestAt.next {c : Customer} (h : LatestAt before i) :
    ∃ r, before[i]? = some r ∧ LatestAt (before ++ [c])
      (if r.assignedDate < c.assignedDate then before.length else i) := by
  obtain ⟨r, hr, hlatest⟩ := h
  have hlast : (before ++ [c])[before.length]? = some c := List.getElem?_concat_length
  have hi : i < before.length := (List.getElem?_eq_some_iff.mp hr).1
  have hmember : ∀ j d, (before ++ [c])[j]? = some d →
      before[j]? = some d ∨ j = before.length ∧ d = c := by
    intro j d hd
    rcases Nat.lt_trichotomy j before.length with hlt | rfl | hgt
    · exact .inl (List.getElem?_append_left hlt ▸ hd)
    · exact .inr ⟨rfl, Option.some.inj (hd.symm.trans hlast)⟩
    · rw [List.getElem?_eq_none (by simp; omega)] at hd
      cases hd
  refine ⟨r, hr, ?_⟩
  split
  · next hlater =>
    refine ⟨c, hlast, fun j d hd => ?_⟩
    rcases hmember j d hd with hd | ⟨rfl, rfl⟩
    · have hlt := Int.lt_of_le_of_lt (hlatest j d hd).1 hlater
      exact ⟨Int.le_of_lt hlt, fun _ => hlt⟩
    · exact ⟨Int.le_refl _, fun hlt => absurd hlt (Nat.lt_irrefl _)⟩
  · next hnot =>
    refine ⟨r, (List.getElem?_append_left hi).trans hr, fun j d hd => ?_⟩
    rcases hmember j d hd with hd | ⟨rfl, rfl⟩
    · exact hlatest j d hd
    · exact ⟨Int.not_lt.mp hnot, fun hlt => absurd hlt (Nat.not_lt.mpr (Nat.le_of_lt hi))⟩

/-- Going through the rest of a group ends at the place of the member assigned last. -/
theorem fold_later_place_latest (hgroup : group = before ++ rest) (h : LatestAt before i) :
    ∃ j, (rest.zipIdx before.length).foldlM (laterPlace? group) i = some j ∧
      LatestAt group j := by
  induction rest generalizing before i with
  | nil =>
      rw [List.append_nil] at hgroup
      exact ⟨i, rfl, hgroup ▸ h⟩
  | cons c rest ih =>
      have hnext : group = (before ++ [c]) ++ rest := by
        rw [hgroup, List.append_assoc, List.singleton_append]
      obtain ⟨r, hr, hlatest⟩ := h.next (c := c)
      have hbest : group[i]? = some r := by
        rw [hgroup, List.getElem?_append_left (List.getElem?_eq_some_iff.mp hr).1, hr]
      have hstep : laterPlace? group i (c, before.length) =
          some (if r.assignedDate < c.assignedDate then before.length else i) := by
        rw [laterPlace?, hbest]
        rfl
      have hrest := ih hnext hlatest
      rw [List.length_append, List.length_singleton] at hrest
      rw [List.zipIdx_cons, List.foldlM_cons, hstep]
      exact hrest

/-- The place found is that of the first member of those assigned last. -/
theorem reference_place_eq_some_iff (hne : group ≠ []) :
    referencePlace? group = some i ↔ LatestAt group i := by
  obtain ⟨first, rest, rfl⟩ := List.exists_cons_of_ne_nil hne
  have hfirst : LatestAt [first] 0 := by
    refine ⟨first, rfl, fun j c hc => ?_⟩
    obtain ⟨rfl, rfl⟩ : j = 0 ∧ first = c := by
      cases j with
      | zero => exact ⟨rfl, Option.some.inj hc⟩
      | succ j => cases hc
    exact ⟨Int.le_refl _, fun hlt => absurd hlt (Nat.lt_irrefl 0)⟩
  have hgroup : first :: rest = [first] ++ rest := rfl
  obtain ⟨j, hplace, hlatest⟩ := fold_later_place_latest hgroup hfirst
  have hfound : referencePlace? (first :: rest) = some j := hplace
  rw [hfound, Option.some.injEq]
  constructor
  · rintro rfl
    exact hlatest
  · intro hi
    exact hlatest.unique hi

/-- Replacing a member by one assigned at the same time does not matter. -/
theorem LatestAt.set (h : LatestAt group i) (hj : j < group.length) (hne : j ≠ i) {c : Customer}
    (hdate : c.assignedDate = group[j].assignedDate) : LatestAt (group.set j c) i := by
  obtain ⟨r, hr, hlatest⟩ := h
  refine ⟨r, (List.getElem?_set_ne hne).trans hr, fun k d hd => ?_⟩
  rcases eq_or_ne j k with rfl | hother
  · rw [List.getElem?_set_self hj, Option.some.injEq] at hd
    rw [← hd, hdate]
    exact hlatest j _ (List.getElem?_eq_getElem hj)
  · rw [List.getElem?_set_ne hother] at hd
    exact hlatest k d hd

end CustomerDedupe.Duplicates
