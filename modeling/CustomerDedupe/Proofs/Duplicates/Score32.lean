import CustomerDedupe.Duplicates.Score32
import CustomerDedupe.Proofs.Duplicates.ScoreParts
import CustomerDedupe.Proofs.Number.Overflow

/-!
# Scores that fit

What is counted for a score in 32 bits is what would be counted without a limit, as long as the
greatest possible agreement fits (`group_agreement_32_of_fits`), and so is the score. Where it does
not fit, and the carries are lost, remainders are counted (`agreement_32_wrapping`).
-/

namespace CustomerDedupe.Duplicates

open Number

/-- The parts of a score as they are counted. -/
def ScoreParts.agreement (p : ScoreParts) : Agreement :=
  ⟨p.weight, p.matched, p.possible, p.similar⟩

/-- As long as something is compared, the score is zero exactly if the fields weigh nothing. -/
theorem ScoreParts.agreement_score {p : ScoreParts} (hpairs : 0 < p.pairs) :
    p.agreement.score =
      if p.possible = 0 then 0 else scoreOf p.matched p.possible p.similar := by
  by_cases hweight : p.agreement.weight = 0
  · have hnone : p.possible = 0 := by
      rw [ScoreParts.possible, show p.weight = 0 from hweight, Nat.zero_mul]
    rw [Agreement.score, if_pos hweight, if_pos hnone]
  · have hsome : p.agreement.possible ≠ 0 := Nat.mul_ne_zero hweight (Nat.ne_of_gt hpairs)
    rw [Agreement.score, if_neg hweight, if_neg hsome]
    exact (if_neg hsome).symm

section Compared

variable {build : Build} {fields : List (CompareField × Nat)} {reference : Customer}
  {others : List Customer}

/-- Going through the members keeps what fits of the agreement found in all of them. -/
theorem fold_matched_32 {found : Nat} (h : found < 2 ^ 32) :
    others.foldlM (fun found other => add32 build found
      ((fields.filter fun f => agreeOn reference other f.1).map Prod.snd)) found =
      keep32 build .adding (found + (ScoreParts.compare fields reference others).matched) := by
  induction others generalizing found with
  | nil => exact (keep_32_of_lt h).symm
  | cons c others ih =>
      have hmatched : (ScoreParts.compare fields reference (c :: others)).matched =
          matchedWeight fields reference c + (ScoreParts.compare fields reference others).matched :=
        rfl
      rw [List.foldlM_cons, add_32_eq h, hmatched, ← Nat.add_assoc]
      exact keep_32_bind fun sum hsum => ih hsum

/-- Each number is what is kept of one without a limit. -/
theorem agreement_32_eq (build : Build) (fields : List (CompareField × Nat))
    (reference : Customer) (others : List Customer) :
    let p := ScoreParts.compare fields reference others
    agreement32 build fields reference others = (do
      let weight ← keep32 build .adding p.weight
      let matched ← keep32 build .adding p.matched
      let possible ← keep32 build .multiplying (weight * (p.pairs % 2 ^ 32))
      return ⟨weight, matched, possible, p.similar⟩) := by
  have hzero : 0 < 2 ^ 32 := Nat.two_pow_pos 32
  rw [agreement32, add_32_eq hzero, fold_matched_32 hzero, Nat.zero_add, Nat.zero_add]
  rfl

/-- If the greatest possible agreement fits, so does all that is counted on the way to it. -/
theorem agreement_32_of_fits (hne : others ≠ [])
    (hfits : (ScoreParts.compare fields reference others).possible < 2 ^ 32) :
    agreement32 build fields reference others =
      .ok (ScoreParts.compare fields reference others).agreement := by
  have heq := agreement_32_eq build fields reference others
  have hle : (ScoreParts.compare fields reference others).matched ≤
      (ScoreParts.compare fields reference others).possible :=
    ScoreParts.matched_le_possible others
  have hpairs : 0 < (ScoreParts.compare fields reference others).pairs :=
    List.length_pos_iff.mpr hne
  generalize ScoreParts.compare fields reference others = p at *
  have hweight : p.weight < 2 ^ 32 :=
    Nat.lt_of_le_of_lt (Nat.le_mul_of_pos_right p.weight hpairs) hfits
  -- the number of members fits as well, unless the fields weigh nothing
  have hpossible : p.weight * (p.pairs % 2 ^ 32) = p.possible := by
    rcases Nat.eq_zero_or_pos p.weight with hnone | hsome
    · rw [ScoreParts.possible, hnone, Nat.zero_mul, Nat.zero_mul]
    · have hcount : p.pairs < 2 ^ 32 :=
        Nat.lt_of_le_of_lt (Nat.le_mul_of_pos_left p.pairs hsome) hfits
      rw [Nat.mod_eq_of_lt hcount, ScoreParts.possible]
  rw [heq, keep_32_of_lt hweight, keep_32_of_lt (Nat.lt_of_le_of_lt hle hfits)]
  show (keep32 build .multiplying (p.weight * (p.pairs % 2 ^ 32)) >>= fun _ => _) = _
  rw [hpossible, keep_32_of_lt hfits]
  rfl

/-- If carries are lost, the remainders are counted. -/
theorem agreement_32_wrapping (fields : List (CompareField × Nat)) (reference : Customer)
    (others : List Customer) :
    let p := ScoreParts.compare fields reference others
    agreement32 .wrapping fields reference others =
      .ok ⟨p.weight % 2 ^ 32, p.matched % 2 ^ 32, p.possible % 2 ^ 32, p.similar⟩ := by
  intro p
  rw [agreement_32_eq]
  simp only [keep_32_wrapping]
  show Except.ok (Agreement.mk _ _ (p.weight % 2 ^ 32 * (p.pairs % 2 ^ 32) % 2 ^ 32) _) = _
  rw [← Nat.mul_mod, ← ScoreParts.possible]

end Compared

section Group

variable {build : Build} {s : Settings} {group : List Customer}

/-- What is counted of a group. -/
theorem group_agreement_32_of_fits {fields : List (CompareField × Nat)} (htwo : 2 ≤ group.length)
    (hfits : totalWeight fields * (group.length - 1) < 2 ^ 32) :
    groupAgreement32 build fields group = .ok (groupParts fields group).agreement := by
  cases group with
  | nil => simp at htwo
  | cons first rest =>
      have hlength := (split_reference_perm first rest).length_eq
      rw [← possible_group_parts] at hfits
      refine agreement_32_of_fits (List.ne_nil_of_length_pos ?_) hfits
      simp only [List.length_cons] at hlength htwo
      omega

/-- What is counted of a group if carries are lost. -/
theorem group_agreement_32_wrapping (fields : List (CompareField × Nat)) (hne : group ≠ []) :
    let p := groupParts fields group
    groupAgreement32 .wrapping fields group =
      .ok ⟨p.weight % 2 ^ 32, p.matched % 2 ^ 32, p.possible % 2 ^ 32, p.similar⟩ := by
  obtain ⟨first, rest, rfl⟩ := List.exists_cons_of_ne_nil hne
  exact agreement_32_wrapping fields _ _

/-- The score in 32 bits is the score. -/
theorem score_32_of_fits (htwo : 2 ≤ group.length)
    (hfits : totalWeight s.activeFields * (group.length - 1) < 2 ^ 32) :
    score32 build s group = .ok (computeScore s group) := by
  have hsome : ¬group.length ≤ 1 := Nat.not_le.mpr htwo
  have hpairs : 0 < (groupParts s.activeFields group).pairs := by
    rw [pairs_group_parts]
    omega
  rw [score32, if_neg hsome, group_agreement_32_of_fits htwo hfits, compute_score_eq,
    ← ScoreParts.agreement_score hpairs]
  rfl

end Group

end CustomerDedupe.Duplicates
