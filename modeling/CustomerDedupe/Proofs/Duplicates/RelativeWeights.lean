import CustomerDedupe.Duplicates.Service
import CustomerDedupe.Proofs.Duplicates.CheckedScore

/-!
# Only relative weights matter

A score is made of the agreement found in proportion to what is possible, so a common factor of all
weights cancels (`compute_score_scaled`). A search uses the weights for nothing but the scores of
groups (`find_congr`). The main result, `only_relative_weights_matter`, puts the two together.
-/

namespace CustomerDedupe

/-- The settings with the weights of all fields multiplied. -/
def Settings.scaled (s : Settings) (k : Nat) : Settings :=
  { s with weights := s.weights.map (k * ·) }

namespace Duplicates

open Calendar (Date)
open Number

/-! ## Weights with a common factor -/

/-- Fields with their weights multiplied. -/
def scaledFields (k : Nat) (fields : List (CompareField × Nat)) : List (CompareField × Nat) :=
  fields.map fun f => (f.1, k * f.2)

/-- A common factor does not change which fields are active, nor their order. -/
theorem active_fields_scaled (s : Settings) {k : Nat} (hk : 1 ≤ k) :
    (s.scaled k).activeFields = scaledFields k s.activeFields := by
  have hactive : (s.scaled k).isActive = s.isActive := by
    funext f
    have hpos : 0 < k * s.weights.get f ↔ 0 < s.weights.get f := Nat.mul_pos_iff_of_pos_left hk
    simp only [Settings.isActive, Settings.scaled, FieldTable.get_map, hpos]
  rw [Settings.activeFields, Settings.activeFields, hactive, scaledFields, List.map_map]
  refine List.map_congr_left fun f _ => ?_
  simp only [Settings.scaled, FieldTable.get_map, Function.comp_apply]

theorem total_weight_scaled (k : Nat) (fields : List (CompareField × Nat)) :
    totalWeight (scaledFields k fields) = k * totalWeight fields := by
  rw [totalWeight, totalWeight, ← total_mul_left, scaledFields, List.map_map, List.map_map]
  rfl

theorem matched_weight_scaled (k : Nat) (fields : List (CompareField × Nat))
    (reference other : Customer) :
    matchedWeight (scaledFields k fields) reference other =
      k * matchedWeight fields reference other := by
  rw [matchedWeight, matchedWeight, ← total_mul_left, scaledFields, List.filter_map, List.map_map,
    List.map_map]
  rfl

/-- The parts of a score with the weights multiplied. -/
def ScoreParts.scaled (p : ScoreParts) (k : Nat) : ScoreParts :=
  { p with weight := k * p.weight, matched := k * p.matched }

theorem group_parts_scaled (k : Nat) (fields : List (CompareField × Nat))
    (group : List Customer) :
    groupParts (scaledFields k fields) group = (groupParts fields group).scaled k := by
  cases group with
  | nil => simp [groupParts, ScoreParts.scaled, total_weight_scaled]
  | cons first rest =>
      have hmatched : matchedWeight (scaledFields k fields) (splitReference first rest).1 =
          (k * ·) ∘ matchedWeight fields (splitReference first rest).1 :=
        funext (matched_weight_scaled k fields _)
      simp only [groupParts, ScoreParts.compare, ScoreParts.scaled, total_weight_scaled, hmatched,
        ← List.map_map, total_mul_left]

/-- A common factor cancels in the share of the greatest possible agreement. -/
theorem score_of_scaled {k : Nat} (hk : 1 ≤ k) (matched possible : Nat) (similar : Bool) :
    scoreOf (k * matched) (k * possible) similar = scoreOf matched possible similar := by
  have hshare : mkRat ((k * matched : Nat) : Int) (k * possible) = mkRat matched possible := by
    rw [Nat.cast_mul]
    exact Rat.mkRat_mul_left (Nat.ne_of_gt hk)
  rw [scoreOf, scoreOf, hshare]

/-- A common factor of the weights does not change the score of a group. -/
theorem compute_score_scaled (s : Settings) {k : Nat} (hk : 1 ≤ k) (group : List Customer) :
    computeScore (s.scaled k) group = computeScore s group := by
  have hpossible (p : ScoreParts) : (p.scaled k).possible = k * p.possible :=
    Nat.mul_assoc k p.weight p.pairs
  rw [compute_score_eq, compute_score_eq, active_fields_scaled s hk, group_parts_scaled,
    hpossible]
  refine if_congr ?_ rfl (score_of_scaled hk _ _ _)
  rw [Nat.mul_eq_zero]
  exact or_iff_right (Nat.ne_of_gt hk)

/-- What fits with a common factor fits without it. -/
theorem score_fits_of_scaled {s : Settings} {k : Nat} (hk : 1 ≤ k) {group : List Customer}
    (h : ScoreFits (s.scaled k) group) : ScoreFits s group := by
  rw [ScoreFits, active_fields_scaled s hk, total_weight_scaled, Nat.mul_assoc] at h
  refine h.imp_right fun hfits => ⟨?_, ?_⟩
  · exact Nat.lt_of_le_of_lt (Nat.le_mul_of_pos_left _ hk) hfits.1
  · exact Nat.lt_of_le_of_lt (Nat.le_mul_of_pos_left _ hk) hfits.2

/-! ## What a search uses settings for -/

section Congruence

variable {s s' : Settings} (h : ∀ group, computeScore s group = computeScore s' group)

include h

theorem build_congr (key display : String) (kind : GroupKind) (members : List Customer) :
    Group.build? s key display kind members = Group.build? s' key display kind members := by
  unfold Group.build?
  split
  · rfl
  · simp only [h]

theorem exact_groups_congr (recent : List Customer) :
    exactGroups s recent = exactGroups s' recent := by
  have hbucket : exactGroup? s = exactGroup? s' := by
    funext bucket
    simp only [exactGroup?, build_congr h]
  rw [exactGroups, exactGroups, hbucket]

/-- Settings that give all groups the same scores lead to the same groups. -/
theorem all_groups_congr (recent : List Customer) (includeFuzzy : Bool) :
    allGroups s recent includeFuzzy = allGroups s' recent includeFuzzy := by
  have hadd : addFuzzy s = addFuzzy s' := by
    funext found bucket
    simp only [addFuzzy, build_congr h]
  rw [allGroups, allGroups, exact_groups_congr h, hadd]

/-- If the threshold is the same as well, so is the search: what it returns, what it writes to the
journal, and what it asks of the store. -/
theorem find_congr {σ : Type} (store : CustomerStore σ)
    (hthreshold : s.scoreThreshold = s'.scoreThreshold) (today : Date) (days : Int)
    (includeFuzzy : Bool) :
    find store s today days includeFuzzy = find store s' today days includeFuzzy := by
  have htenths : thresholdTenths s = thresholdTenths s' := by
    rw [thresholdTenths, thresholdTenths, hthreshold]
  have hscan : scan s today days includeFuzzy = scan s' today days includeFuzzy := by
    funext table
    rw [scan, scan, htenths, all_groups_congr h]
  rw [find, find, htenths, hscan]

end Congruence

/-- Multiplying the weights of all fields by the same positive number changes neither which fields
are active nor their order, nor the score of any group, nor what a search of any store does and
returns. If the score with the greater weights can be computed in 32 bits, so can the other, and it
is the same. -/
theorem only_relative_weights_matter (s : Settings) {k : Nat} (hk : 1 ≤ k) :
    (s.scaled k).activeFields = s.activeFields.map (fun f => (f.1, k * f.2)) ∧
      (∀ group, computeScore (s.scaled k) group = computeScore s group ∧
        ∀ n, checkedScore? (s.scaled k) group = some n → checkedScore? s group = some n) ∧
      ∀ (σ : Type) (store : CustomerStore σ) (today : Date) (days : Int) (includeFuzzy : Bool),
        find store (s.scaled k) today days includeFuzzy =
          find store s today days includeFuzzy := by
  refine ⟨active_fields_scaled s hk, fun group => ⟨compute_score_scaled s hk group, ?_⟩, ?_⟩
  · intro n hn
    rw [checked_score_eq_ite, Option.ite_none_right_eq_some, compute_score_scaled s hk] at hn
    rw [checked_score_eq_ite, if_pos (score_fits_of_scaled hk hn.1)]
    exact hn.2
  · intro σ store today days includeFuzzy
    exact find_congr (compute_score_scaled s hk) store rfl today days includeFuzzy

/-- Weights of 1 and 2 count as weights of 3 and 6 do. -/
theorem scores_of_tripled_weights :
    let s := (Settings.default.setField .gender true 1).setField .notes true 2
    let row := { Customer.assigned 1 (.midnight (.newYear 2025)) with
      gender := some "F", notes := some "Prefers SMS", customerName := some "Kim Minsu" }
    let other := { row with notes := some "By mail", customerName := some "Park Jiho" }
    1 ≤ 3 ∧ (s.scaled 3).activeFields = [(.gender, 3), (.notes, 6)] ∧
      computeScore s [row, other] = 333 ∧ computeScore (s.scaled 3) [row, other] = 333 ∧
      checkedScore? s [row, other] = some 333 ∧
      ∀ (today : Date) (days : Int) (includeFuzzy : Bool),
        find MemoryStore.store (s.scaled 3) today days includeFuzzy =
          find MemoryStore.store s today days includeFuzzy := by
  intro s row other
  obtain ⟨hfields, hscores, hfind⟩ := only_relative_weights_matter s (show 1 ≤ 3 by decide)
  have hscore : computeScore s [row, other] = 333 := by decide +kernel
  have hchecked : checkedScore? (s.scaled 3) [row, other] = some 333 := by decide +kernel
  refine ⟨by decide, hfields, hscore, ?_, (hscores _).2 333 hchecked,
    fun today days includeFuzzy => hfind _ _ today days includeFuzzy⟩
  rw [(hscores _).1, hscore]

end Duplicates

end CustomerDedupe
