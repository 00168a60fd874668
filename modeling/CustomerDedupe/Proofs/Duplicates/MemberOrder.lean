import CustomerDedupe.Proofs.Duplicates.CheckedScore
import CustomerDedupe.Proofs.Duplicates.ReferencePlace

/-!
# The order of the members

A score singles out the first of the members assigned last; all others enter it in the same way. So
the order of the members matters only among those assigned last. `lastAssigned` are these, and the
main result, `score_ignores_order`, says that the score stays the same as long as they keep their
order.
-/

namespace CustomerDedupe.Duplicates

/-- Whether no member of a group was assigned later than a customer. -/
def isLast (group : List Customer) (c : Customer) : Bool :=
  group.all fun d => d.assignedDate ≤ c.assignedDate

/-- The members assigned last, in the order in which they stand. -/
def lastAssigned (group : List Customer) : List Customer :=
  group.filter (isLast group)

variable {group group' : List Customer}

theorem is_last_iff {c : Customer} :
    isLast group c = true ↔ ∀ d ∈ group, d.assignedDate ≤ c.assignedDate := by
  simp only [isLast, List.all_eq_true, decide_eq_true_eq]

/-- The order of a group does not matter for which members were assigned last. -/
theorem last_assigned_perm (h : group.Perm group') :
    (lastAssigned group).Perm (lastAssigned group') := by
  have hlast : isLast group = isLast group' := funext fun c => h.all_eq
  rw [lastAssigned, lastAssigned, hlast]
  exact h.filter _

/-- The first of the members assigned last is the one that the others are compared with. -/
theorem head_last_assigned {i : Nat} (h : LatestAt group i) :
    (lastAssigned group).head? = group[i]? := by
  obtain ⟨r, hr, hlatest⟩ := h
  obtain ⟨hi, rfl⟩ := List.getElem?_eq_some_iff.mp hr
  have hlast : isLast group group[i] = true := by
    rw [is_last_iff]
    intro d hd
    obtain ⟨j, hj⟩ := List.mem_iff_getElem?.mp hd
    exact (hlatest j d hj).1
  have hnone : (group.take i).filter (isLast group) = [] := by
    rw [List.filter_eq_nil_iff]
    intro c hc hlater
    obtain ⟨j, hj, rfl⟩ := List.mem_take_iff_getElem.mp hc
    have hlt := (hlatest j _ (List.getElem?_eq_getElem (by omega))).2 (by omega)
    exact absurd hlt (Int.not_lt.mpr (is_last_iff.mp hlater _ (List.getElem_mem hi)))
  have hsplit : lastAssigned group =
      (group.take i ++ group[i] :: group.drop (i + 1)).filter (isLast group) := by
    rw [List.getElem_cons_drop, List.take_append_drop, lastAssigned]
  rw [hr, hsplit, List.filter_append, hnone, List.filter_cons_of_pos hlast]
  rfl

/-- If one member was assigned later than all others, it is the only one assigned last. -/
theorem last_assigned_of_later {c : Customer} {others : List Customer}
    (h : group.Perm (c :: others)) (hlater : ∀ d ∈ others, d.assignedDate < c.assignedDate) :
    lastAssigned group = [c] := by
  have hlast : isLast (c :: others) c = true := by
    rw [is_last_iff, List.forall_mem_cons]
    exact ⟨Int.le_refl _, fun d hd => Int.le_of_lt (hlater d hd)⟩
  have hnone : others.filter (isLast (c :: others)) = [] := by
    rw [List.filter_eq_nil_iff]
    intro d hd hlast
    exact absurd (hlater d hd) (Int.not_lt.mpr (is_last_iff.mp hlast c List.mem_cons_self))
  have honly : lastAssigned (c :: others) = [c] := by
    rw [lastAssigned, List.filter_cons_of_pos hlast, hnone]
  exact List.perm_singleton.mp (honly ▸ last_assigned_perm h)

/-- What a score is computed from does not depend on the order of the members, as long as those
assigned last keep theirs. -/
theorem group_parts_perm (fields : List (CompareField × Nat)) (h : group.Perm group')
    (hlast : lastAssigned group = lastAssigned group') :
    groupParts fields group = groupParts fields group' := by
  rcases eq_or_ne group [] with rfl | hne
  · rw [List.nil_perm.mp h]
  · have hne' : group' ≠ [] := fun hnil => hne (hnil ▸ h).eq_nil
    obtain ⟨i, hi, hplace, hparts⟩ := group_parts_at_place fields hne
    obtain ⟨j, hj, hplace', hparts'⟩ := group_parts_at_place fields hne'
    have hhead := head_last_assigned ((reference_place_eq_some_iff hne).mp hplace)
    have hhead' := head_last_assigned ((reference_place_eq_some_iff hne').mp hplace')
    have hreference : group[i] = group'[j] := by
      rw [hlast, hhead', List.getElem?_eq_getElem hi, List.getElem?_eq_getElem hj] at hhead
      exact (Option.some.inj hhead).symm
    -- the same member is taken out of both, so the others are the same
    have hperm := (List.getElem_cons_eraseIdx_perm hi).trans
      (h.trans (List.getElem_cons_eraseIdx_perm hj).symm)
    rw [hreference] at hperm
    rw [hparts, hparts', hreference, ScoreParts.compare_perm hperm.cons_inv]

/-- The score does not depend on that order, whether computed without limits or in 32 bits. -/
theorem scores_perm (s : Settings) (h : group.Perm group')
    (hlast : lastAssigned group = lastAssigned group') :
    computeScore s group = computeScore s group' ∧
      checkedScore? s group = checkedScore? s group' := by
  have hscore : computeScore s group = computeScore s group' := by
    rw [compute_score_eq, compute_score_eq, group_parts_perm s.activeFields h hlast]
  have hfits : ScoreFits s group ↔ ScoreFits s group' := by
    rw [ScoreFits, h.length_eq]
    rfl
  refine ⟨hscore, ?_⟩
  rw [checked_score_eq_ite, checked_score_eq_ite, hscore]
  exact if_congr hfits rfl rfl

/-- If one member of a group was assigned later than all others, the score is the same in whatever
order the members stand. The score of any group is the same in every order in which the members
assigned last stand in the same order. Both hold as well of the score computed in 32 bits, which may
not fit. -/
theorem score_ignores_order (s : Settings) (group : List Customer) :
    (∀ (c : Customer) (others : List Customer), group.Perm (c :: others) →
        (∀ d ∈ others, d.assignedDate < c.assignedDate) →
        ∀ group', group.Perm group' → computeScore s group = computeScore s group' ∧
          checkedScore? s group = checkedScore? s group') ∧
      ∀ group', group.Perm group' → lastAssigned group = lastAssigned group' →
        computeScore s group = computeScore s group' ∧
          checkedScore? s group = checkedScore? s group' := by
  refine ⟨?_, fun group' h hlast => scores_perm s h hlast⟩
  intro c others hsplit hlater group' h
  have hlast := last_assigned_of_later hsplit hlater
  have hlast' := last_assigned_of_later (h.symm.trans hsplit) hlater
  exact scores_perm s h (hlast.trans hlast'.symm)

/-- Of two members assigned last, the earlier one in the group is compared with the others. -/
example :
    let s := (Settings.default.setField .gender true 1).setField .notes true 1
    let row := Customer.assigned 1 (.midnight (.newYear 2025))
    let both := { row with gender := some "F", notes := some "Prefers SMS" }
    let one := { row with gender := some "F" }
    let other := { row with notes := some "Prefers SMS" }
    computeScore s [both, one, other] = 600 ∧ computeScore s [one, both, other] = 350 := by
  decide +kernel

/-- A member assigned before the other two may stand anywhere, and the two keep their order. -/
theorem score_of_reordered_three :
    let s := (Settings.default.setField .gender true 1).setField .notes true 1
    let row := Customer.assigned 1 (.midnight (.newYear 2025))
    let both := { row with gender := some "F", notes := some "Prefers SMS" }
    let one := { row with gender := some "F" }
    let earlier := { Customer.assigned 2 (.midnight (.newYear 2024)) with gender := some "f" }
    [both, one, earlier].Perm [earlier, both, one] ∧
      lastAssigned [both, one, earlier] = lastAssigned [earlier, both, one] ∧
      [both, earlier].Perm [earlier, both] ∧ earlier.assignedDate < both.assignedDate ∧
      computeScore s [both, one, earlier] = computeScore s [earlier, both, one] ∧
      computeScore s [both, earlier] = computeScore s [earlier, both] := by
  intro s row both one earlier
  have hperm : [both, one, earlier].Perm [earlier, both, one] := by decide +kernel
  have hlast : lastAssigned [both, one, earlier] = lastAssigned [earlier, both, one] := by
    decide +kernel
  have hswap : [both, earlier].Perm [earlier, both] := .swap _ _ _
  have hlater : earlier.assignedDate < both.assignedDate := by decide +kernel
  have hthree := (score_ignores_order s [both, one, earlier]).2 _ hperm hlast
  have htwo := (score_ignores_order s [both, earlier]).1 both [earlier] (.refl _)
    (List.forall_mem_singleton.mpr hlater) _ hswap
  exact ⟨hperm, hlast, hswap, hlater, hthree.1, htwo.1⟩

end CustomerDedupe.Duplicates
