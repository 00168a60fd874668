import CustomerDedupe.Proofs.Duplicates.ScoreBounds
import CustomerDedupe.Proofs.Number.Word32

/-!
# Scores in 32 bits

The score of a group computed with numbers of 32 bits, members found by their places, and a
division that fails on zero. `checked_score_eq` says that none of this matters as long as the
greatest possible agreement fits. The main result, `score_arithmetic_safe`, says that it fits for
accepted settings and at most 42949673 members, and that the score is bounded, whether its steps are
rounded or not.
-/

namespace CustomerDedupe.Duplicates

open Number

/-! ## Computing a score step by step -/

/-- Adds the weights of the fields in which a member agrees, one after the other, to what has been
found before. Nothing if a sum does not fit. -/
def addMatched? (fields : List (CompareField × Nat)) (reference : Customer) (found : Nat)
    (other : Customer) : Option Nat :=
  sum32? found ((fields.filter fun f => agreeOn reference other f.1).map Prod.snd)

/-- The score of a group. Nothing if a number does not fit into 32 bits, a place outside the group
is asked for, or something is divided by zero. -/
def checkedScore? (s : Settings) (group : List Customer) : Option Nat :=
  if group.length ≤ 1 then some 0
  else do
    let weight ← sum32? 0 (s.activeFields.map Prod.snd)
    if weight = 0 then some 0
    else do
      let place ← referencePlace? group
      let reference ← group[place]?
      let others := group.eraseIdx place
      let pairs ← fit32? (group.length - 1)
      let matched ← others.foldlM (addMatched? s.activeFields reference) 0
      let possible ← fit32? (weight * pairs)
      if possible = 0 then none
      else some (scoreOf matched possible
        (others.any fun c => namesSimilar reference.customerName c.customerName))

/-- Going through the members succeeds exactly if the agreement found in all of them fits. -/
theorem fold_add_matched (fields : List (CompareField × Nat)) (reference : Customer)
    (others : List Customer) {found : Nat} (h : found < 2 ^ 32) :
    others.foldlM (addMatched? fields reference) found =
      fit32? (found + (ScoreParts.compare fields reference others).matched) := by
  induction others generalizing found with
  | nil => exact (fit_32_of_lt h).symm
  | cons c others ih =>
      have hmatched : (ScoreParts.compare fields reference (c :: others)).matched =
          matchedWeight fields reference c + (ScoreParts.compare fields reference others).matched :=
        rfl
      rw [List.foldlM_cons, addMatched?, sum_32_eq h, hmatched, ← Nat.add_assoc]
      exact fit_32_bind fun hnext => ih hnext

/-- Nothing fails while a score is computed, if the weight and the greatest possible agreement
fit. -/
theorem checked_score_eq {s : Settings} {group : List Customer}
    (hweight : totalWeight s.activeFields < 2 ^ 32)
    (hpossible : totalWeight s.activeFields * (group.length - 1) < 2 ^ 32) :
    checkedScore? s group = some (computeScore s group) := by
  have hparts := possible_group_parts s.activeFields group
  rw [compute_score_eq, hparts, checkedScore?]
  by_cases hone : group.length ≤ 1
  · rw [if_pos hone, if_pos (by rw [Nat.sub_eq_zero_of_le hone, Nat.mul_zero])]
  have hsum : sum32? 0 (s.activeFields.map Prod.snd) = some (totalWeight s.activeFields) := by
    rw [sum_32_eq (by omega), Nat.zero_add]
    exact fit_32_of_lt hweight
  rw [if_neg hone, hsum]
  show (if totalWeight s.activeFields = 0 then _ else _) = _
  by_cases hzero : totalWeight s.activeFields = 0
  · rw [if_pos hzero, if_pos (by rw [hzero, Nat.zero_mul])]
  -- each step has a result: the place, the member, the pairs, the agreement, and what is possible
  have hne : totalWeight s.activeFields * (group.length - 1) ≠ 0 :=
    Nat.mul_ne_zero hzero (by omega)
  obtain ⟨i, hi, hplace, hcompare⟩ := group_parts_at_place s.activeFields
    (List.ne_nil_of_length_pos (show 0 < group.length by omega))
  have hmember : group[i]? = some group[i] := List.getElem?_eq_getElem hi
  have hpairs : fit32? (group.length - 1) = some (group.length - 1) := by
    have hle := Nat.le_mul_of_pos_left (group.length - 1) (Nat.pos_of_ne_zero hzero)
    exact fit_32_of_lt (Nat.lt_of_le_of_lt hle hpossible)
  have hmatched : (group.eraseIdx i).foldlM (addMatched? s.activeFields group[i]) 0 =
      some (groupParts s.activeFields group).matched := by
    have hle := matched_group_parts_le s.activeFields group
    rw [fold_add_matched _ _ _ (by omega), Nat.zero_add, ← hcompare]
    exact fit_32_of_lt (by omega)
  rw [if_neg hzero, if_neg hne, hplace]
  simp only [Option.bind_eq_bind, Option.bind_some, hmember, hpairs, hmatched,
    fit_32_of_lt hpossible, if_neg hne]
  rw [hcompare]
  rfl

/-- There is nothing to compare, or the weight and the greatest possible agreement fit into 32
bits. -/
def ScoreFits (s : Settings) (group : List Customer) : Prop :=
  group.length ≤ 1 ∨ totalWeight s.activeFields < 2 ^ 32 ∧
    totalWeight s.activeFields * (group.length - 1) < 2 ^ 32

instance (s : Settings) (group : List Customer) : Decidable (ScoreFits s group) :=
  inferInstanceAs (Decidable (_ ∨ _ ∧ _))

/-- A score is computed exactly if the weight and the greatest possible agreement fit, however much
agreement is found. -/
theorem checked_score_eq_ite (s : Settings) (group : List Customer) :
    checkedScore? s group = if ScoreFits s group then some (computeScore s group) else none := by
  split
  · next hfits =>
    rcases hfits with hone | ⟨hweight, hpossible⟩
    · have hnone : (groupParts s.activeFields group).possible = 0 := by
        rw [possible_group_parts, Nat.sub_eq_zero_of_le hone, Nat.mul_zero]
      rw [checkedScore?, if_pos hone, compute_score_eq, if_pos hnone]
    · exact checked_score_eq hweight hpossible
  · next hexceeds =>
    rw [ScoreFits, not_or, not_and, Nat.not_lt] at hexceeds
    obtain ⟨htwo, hpossible⟩ := hexceeds
    rw [checkedScore?, if_neg htwo, sum_32_eq (by omega), Nat.zero_add]
    refine Option.bind_eq_none_iff.mpr fun weight hweight => ?_
    obtain ⟨hlt, hsum⟩ := fit_32_eq_some_iff.mp hweight
    have hexceeds := hpossible hlt
    change totalWeight s.activeFields = weight at hsum
    rw [hsum] at hexceeds
    have hpos : weight ≠ 0 := by
      rintro rfl
      rw [Nat.zero_mul] at hexceeds
      omega
    -- whatever the steps before it come to, the greatest possible agreement does not fit
    rw [if_neg hpos]
    refine Option.bind_eq_none_iff.mpr fun place _ => ?_
    refine Option.bind_eq_none_iff.mpr fun reference _ => ?_
    refine Option.bind_eq_none_iff.mpr fun pairs hpairs => ?_
    refine Option.bind_eq_none_iff.mpr fun matched _ => ?_
    obtain ⟨-, rfl⟩ := fit_32_eq_some_iff.mp hpairs
    rw [fit_32_of_ge hexceeds]
    rfl

/-! ## Accepted settings -/

/-- The fields of accepted settings weigh at most a hundred. -/
theorem total_weight_le {s : Settings} (h : s.validate = .ok ()) :
    totalWeight s.activeFields ≤ 100 := by
  have hbound : ∀ n ∈ s.activeFields.map Prod.snd, n ≤ 10 := by
    intro n hn
    obtain ⟨f, hf, rfl⟩ := List.mem_map.mp hn
    exact Settings.active_weight_le h hf
  have htotal := total_le_mul_length hbound
  have hlength := s.length_active_fields_le
  rw [List.length_map] at htotal
  exact htotal.trans (by omega)

/-- For accepted settings and at most 42949673 members nothing fails while a score is computed: the
numbers fit into 32 bits, no more agreement is found than is possible, and what is divided by is not
zero. The score is bounded, as it is computed and as it would be in exact arithmetic. -/
theorem score_arithmetic_safe {s : Settings} {group : List Customer} (hs : s.validate = .ok ())
    (hsize : group.length ≤ 42949673) :
    let p := groupParts s.activeFields group
    (p.weight < 2 ^ 32 ∧ p.matched ≤ p.possible ∧ p.possible < 2 ^ 32 ∧
        p.possible = p.weight * (group.length - 1)) ∧
      (s.activeFields ≠ [] → 2 ≤ group.length → 0 < p.possible) ∧
      checkedScore? s group = some (computeScore s group) ∧
      ScoreBounded id s group (p.score id) ∧
      ScoreBounded Binary64.nearest s group ((computeScore s group : Rat) / 10) := by
  intro p
  have hweight : totalWeight s.activeFields ≤ 100 := total_weight_le hs
  have hpossible : p.possible = totalWeight s.activeFields * (group.length - 1) :=
    possible_group_parts s.activeFields group
  have hfits : totalWeight s.activeFields * (group.length - 1) < 2 ^ 32 :=
    Nat.lt_of_le_of_lt (Nat.mul_le_mul hweight (Nat.sub_le_sub_right hsize 1)) (by omega)
  have hsum : p.weight = totalWeight s.activeFields := weight_group_parts s.activeFields group
  have hle : p.matched ≤ p.possible := matched_group_parts_le s.activeFields group
  refine ⟨⟨by omega, hle, by omega, by rw [hsum, hpossible]⟩, possible_group_parts_pos,
    checked_score_eq (by omega) hfits, score_bounded exact_rounding s group, ?_⟩
  rw [compute_score_eq_score]
  exact score_bounded Binary64.nearest_rounding s group

/-- Of three customers without names, one agrees with the last one assigned in one field of two. -/
theorem score_of_three_safe :
    let s := (Settings.default.setField .gender true 1).setField .notes true 1
    let row := Customer.assigned 1 (.midnight (.newYear 2025))
    let group := [{ row with notes := some "Prefers SMS", gender := some "F" }, row,
      { row with notes := some " prefers sms" }]
    s.validate = .ok () ∧ group.length ≤ 42949673 ∧ computeScore s group = 350 ∧
      checkedScore? s group = some 350 ∧ (groupParts s.activeFields group).score id ≥ 10 := by
  intro s row group
  have hs : s.validate = .ok () := rfl
  have hsize : group.length ≤ 42949673 := by decide
  have hscore : computeScore s group = 350 := by decide +kernel
  obtain ⟨-, -, hchecked, hexact, -⟩ := score_arithmetic_safe hs hsize
  refine ⟨hs, hsize, hscore, hscore ▸ hchecked, ?_⟩
  exact hexact.similar (by decide) 0 1 (by decide) (by decide) (by decide +kernel) (by decide)
    (by decide +kernel)

end CustomerDedupe.Duplicates
