import Mathlib.Data.List.Perm.Basic
import CustomerDedupe.Duplicates.Score
import CustomerDedupe.Proofs.Number.Total

/-!
# What a score is computed from

A score compares one member of a group, the one assigned last, with all others. `referencePlace?`
finds this member by its place, as one goes through the group, and `split_reference_at_place` says
that it is the one that `splitReference` takes out. What is counted of a group, `groupParts`, then
depends only on who is compared with whom, and `compute_score_eq` says that it settles the score.
-/

namespace CustomerDedupe.Duplicates

open Number

/-! ## The member that a group is compared with -/

/-- If the first member was assigned last, it is the one that the others are compared with. -/
theorem split_reference_newest {newest : Customer} {rest : List Customer}
    (h : ∀ c ∈ rest, c.assignedDate ≤ newest.assignedDate) :
    splitReference newest rest = (newest, rest) := by
  induction rest with
  | nil => rfl
  | cons c rest ih =>
      have hnot : ¬newest.assignedDate < c.assignedDate := Int.not_lt.mpr (h c List.mem_cons_self)
      rw [splitReference, if_neg hnot, ih fun d hd => h d (List.mem_cons_of_mem _ hd)]

/-- Taking out the member assigned last neither loses nor repeats a member. -/
theorem split_reference_perm (best : Customer) (rest : List Customer) :
    ((splitReference best rest).1 :: (splitReference best rest).2).Perm (best :: rest) := by
  induction rest generalizing best with
  | nil => exact List.Perm.refl _
  | cons c rest ih =>
      rw [splitReference]
      split
      · exact (List.Perm.swap _ _ _).trans ((ih c).cons best)
      · exact (List.Perm.swap _ _ _).trans (((ih best).cons c).trans (List.Perm.swap _ _ _))

/-- The place of the member assigned last among those looked at, once the next one has been looked
at too. Nothing if the place before is outside the group. -/
def laterPlace? (group : List Customer) (place : Nat) (next : Customer × Nat) : Option Nat := do
  let best ← group[place]?
  some (if best.assignedDate < next.1.assignedDate then next.2 else place)

/-- The place of the member assigned last, the first of several, found by going through the group
with the place of the best so far. Nothing if a place outside the group is asked for. -/
def referencePlace? (group : List Customer) : Option Nat :=
  group.zipIdx.tail.foldlM (laterPlace? group) 0

/-- Going through the rest of a group never asks for a place outside it and ends at the place of the
member that is taken out. -/
theorem fold_later_place {group before rest : List Customer} (hgroup : group = before ++ rest)
    {place : Nat} {best : Customer} (hbest : group[place]? = some best) :
    ∃ i, (rest.zipIdx before.length).foldlM (laterPlace? group) place = some i ∧
      group[i]? = some (splitReference best rest).1 := by
  induction rest generalizing before place best with
  | nil => exact ⟨place, rfl, hbest⟩
  | cons c rest ih =>
      have hnext : group = (before ++ [c]) ++ rest := by
        rw [hgroup, List.append_assoc, List.singleton_append]
      have hlength : (before ++ [c]).length = before.length + 1 := by
        rw [List.length_append, List.length_singleton]
      have hplace : group[before.length]? = some c := by
        rw [hgroup, List.getElem?_append_right (Nat.le_refl _), Nat.sub_self]
        rfl
      have hstep : laterPlace? group place (c, before.length) =
          some (if best.assignedDate < c.assignedDate then before.length else place) := by
        rw [laterPlace?, hbest]
        rfl
      rw [List.zipIdx_cons, List.foldlM_cons, hstep, splitReference, ← hlength]
      split
      · exact ih hnext hplace
      · exact ih hnext hbest

/-- The member found by its place is the one taken out of the group, and the others are those at the
other places. -/
theorem split_reference_at_place (first : Customer) (rest : List Customer) :
    ∃ (i : Nat) (hi : i < (first :: rest).length), referencePlace? (first :: rest) = some i ∧
      (splitReference first rest).1 = (first :: rest)[i] ∧
      (splitReference first rest).2.Perm ((first :: rest).eraseIdx i) := by
  have hgroup : first :: rest = [first] ++ rest := rfl
  have hfirst : (first :: rest)[0]? = some first := rfl
  obtain ⟨i, hplace, hreference⟩ := fold_later_place hgroup hfirst
  obtain ⟨hi, hmember⟩ := List.getElem?_eq_some_iff.mp hreference
  refine ⟨i, hi, hplace, hmember.symm, ?_⟩
  have hperm := (split_reference_perm first rest).trans (List.getElem_cons_eraseIdx_perm hi).symm
  rw [hmember] at hperm
  exact hperm.cons_inv

/-! ## Parts of a score -/

/-- The weight of a field is found if the customers agree in it. -/
theorem matched_weight_cons (f : CompareField × Nat) (fields : List (CompareField × Nat))
    (reference other : Customer) :
    matchedWeight (f :: fields) reference other =
      if agreeOn reference other f.1 then f.2 + matchedWeight fields reference other
      else matchedWeight fields reference other := by
  unfold matchedWeight
  rw [List.filter_cons]
  split <;> rfl

/-- What the score of some members compared with one is computed from: the weight of the active
fields, how many members are compared, the weight of the fields in which they agree, and whether a
name is similar. -/
structure ScoreParts where
  weight : Nat
  pairs : Nat
  matched : Nat
  similar : Bool
  deriving DecidableEq, Repr

namespace ScoreParts

/-- The parts of the score of some members compared with one. -/
def compare (fields : List (CompareField × Nat)) (reference : Customer)
    (others : List Customer) : ScoreParts where
  weight := totalWeight fields
  pairs := others.length
  matched := total (others.map (matchedWeight fields reference))
  similar := others.any fun c => namesSimilar reference.customerName c.customerName

/-- The greatest possible agreement. -/
def possible (p : ScoreParts) : Nat :=
  p.weight * p.pairs

variable {fields : List (CompareField × Nat)} {reference : Customer}

/-- The order of the members compared does not matter. -/
theorem compare_perm {others others' : List Customer} (h : others.Perm others') :
    compare fields reference others = compare fields reference others' := by
  unfold compare
  rw [h.length_eq, total_perm (h.map _), h.any_eq]

/-- Two customers agree in fields of at most the weight of all. -/
theorem matched_weight_le (other : Customer) :
    matchedWeight fields reference other ≤ totalWeight fields :=
  total_le_of_sublist (List.filter_sublist.map Prod.snd)

/-- Each of some customers agrees with another in fields of at most the weight of all. -/
theorem matched_weights_le (others : List Customer) :
    ∀ n ∈ others.map (matchedWeight fields reference), n ≤ totalWeight fields := by
  intro n hn
  obtain ⟨c, -, rfl⟩ := List.mem_map.mp hn
  exact matched_weight_le c

/-- No more agreement is found than is possible. -/
theorem matched_le_possible (others : List Customer) :
    (compare fields reference others).matched ≤ (compare fields reference others).possible := by
  have htotal := total_le_mul_length (@matched_weights_le fields reference others)
  rw [List.length_map] at htotal
  exact htotal

end ScoreParts

/-- The parts of the score of a group. -/
def groupParts (fields : List (CompareField × Nat)) : List Customer → ScoreParts
  | [] => ⟨totalWeight fields, 0, 0, false⟩
  | first :: rest =>
    ScoreParts.compare fields (splitReference first rest).1 (splitReference first rest).2

section Group

variable (fields : List (CompareField × Nat))

@[simp] theorem weight_group_parts (group : List Customer) :
    (groupParts fields group).weight = totalWeight fields := by
  cases group <;> rfl

/-- All members but one are compared with it. -/
@[simp] theorem pairs_group_parts (group : List Customer) :
    (groupParts fields group).pairs = group.length - 1 := by
  cases group with
  | nil => rfl
  | cons first rest => exact Nat.succ.inj (split_reference_perm first rest).length_eq

/-- The greatest possible agreement is the weight of all fields for each member but one. -/
theorem possible_group_parts (group : List Customer) :
    (groupParts fields group).possible = totalWeight fields * (group.length - 1) := by
  rw [ScoreParts.possible, weight_group_parts, pairs_group_parts]

/-- The parts of a group are those of the member found by its place compared with all others. -/
theorem group_parts_at_place {group : List Customer} (hne : group ≠ []) :
    ∃ (i : Nat) (hi : i < group.length), referencePlace? group = some i ∧
      groupParts fields group = ScoreParts.compare fields group[i] (group.eraseIdx i) := by
  obtain ⟨first, rest, rfl⟩ := List.exists_cons_of_ne_nil hne
  obtain ⟨i, hi, hplace, hreference, hothers⟩ := split_reference_at_place first rest
  refine ⟨i, hi, hplace, ?_⟩
  rw [groupParts, hreference, ScoreParts.compare_perm hothers]

/-- No more agreement is found in a group than is possible. -/
theorem matched_group_parts_le (group : List Customer) :
    (groupParts fields group).matched ≤ (groupParts fields group).possible := by
  cases group with
  | nil => exact Nat.zero_le _
  | cons first rest => exact ScoreParts.matched_le_possible _

end Group

/-! ## The score from its parts -/

/-- The score of some customers compared with one. -/
def scoreAgainst (s : Settings) (reference : Customer) (others : List Customer) : Nat :=
  if totalWeight s.activeFields = 0 then 0
  else
    scoreOf (Number.total (others.map (matchedWeight s.activeFields reference)))
      (totalWeight s.activeFields * others.length)
      (others.any fun c => namesSimilar reference.customerName c.customerName)

/-- The score of at least two members compares the others with the one assigned last. -/
theorem compute_score_cons (s : Settings) {first : Customer} {rest : List Customer}
    (hrest : rest ≠ []) :
    computeScore s (first :: rest) =
      scoreAgainst s (splitReference first rest).1 (splitReference first rest).2 := by
  cases rest with
  | nil => exact absurd rfl hrest
  | cons c rest => rfl

/-- The score of members of which the first was assigned last compares the others with it. -/
theorem compute_score_newest (s : Settings) {newest : Customer} {rest : List Customer}
    (hrest : rest ≠ []) (h : ∀ c ∈ rest, c.assignedDate ≤ newest.assignedDate) :
    computeScore s (newest :: rest) = scoreAgainst s newest rest := by
  rw [compute_score_cons s hrest, split_reference_newest h]

/-- The parts of a group settle its score: it is zero unless there is something to compare. -/
theorem compute_score_eq (s : Settings) (group : List Customer) :
    computeScore s group =
      if (groupParts s.activeFields group).possible = 0 then 0
      else scoreOf (groupParts s.activeFields group).matched
        (groupParts s.activeFields group).possible (groupParts s.activeFields group).similar := by
  match group with
  | [] => exact (if_pos (Nat.mul_zero _)).symm
  | [_] => exact (if_pos (Nat.mul_zero _)).symm
  | first :: second :: rest =>
      rw [compute_score_cons s (List.cons_ne_nil _ _), scoreAgainst]
      refine if_congr ?_ rfl rfl
      rw [possible_group_parts, Nat.mul_eq_zero]
      exact (or_iff_left (Nat.succ_ne_zero rest.length)).symm

end CustomerDedupe.Duplicates
