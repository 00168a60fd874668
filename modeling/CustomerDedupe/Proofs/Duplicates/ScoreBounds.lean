import CustomerDedupe.Proofs.Duplicates.ScoreParts
import CustomerDedupe.Proofs.Number.Rounding
import CustomerDedupe.Proofs.Settings.Accepted

/-!
# Bounds of scores

The steps from the agreement found in a group to its score, for any way of rounding them. The main
result, `score_bounded`, says that the score is a number of tenths between 0 and 100, at least 10 if
a name is similar, and at least the agreement in per cent. It holds of exact arithmetic and of
binary floating point, in which scores are computed (`compute_score_eq_score`).
-/

namespace CustomerDedupe.Duplicates

open Number

/-! ## The steps of a score -/

namespace ScoreParts

variable (round : Rat → Rat) (p : ScoreParts)

/-- The agreement found in per cent of what is possible. -/
def percentage : Rat :=
  round (round (mkRat p.matched p.possible) * 100)

/-- The agreement in per cent, with ten more if a name is similar. -/
def raised : Rat :=
  if p.similar then round (p.percentage round + 10) else p.percentage round

/-- The agreement in per cent, with ten more if a name is similar, but at most a hundred. -/
def capped : Rat :=
  min (p.raised round) 100

end ScoreParts

/-- The whole number of tenths nearest to a percentage. -/
def tenths (round : Rat → Rat) (percent : Rat) : Int :=
  roundHalfEven (round (percent * 10))

/-- The score in per cent, zero if there is nothing to compare. -/
def ScoreParts.score (round : Rat → Rat) (p : ScoreParts) : Rat :=
  if p.possible = 0 then 0 else tenths round (p.capped round) / 10

section Rounded

variable {round : Rat → Rat} (hround : Rounding round) {p : ScoreParts}

include hround

/-- Tenths are in the order of the percentages. -/
theorem tenths_mono {x y : Rat} (h : x ≤ y) : tenths round x ≤ tenths round y :=
  round_half_even_mono (hround.mono (by linarith))

/-- Whole percentages have ten times as many tenths. -/
theorem tenths_whole {n : Nat} (h : n ≤ 100) : tenths round n = 10 * n := by
  have hten : (n : Rat) * 10 = (10 * n : Nat) := by
    push_cast
    ring
  rw [tenths, hten, hround.whole _ (by omega)]
  exact_mod_cast round_half_even_int (10 * n : Nat)

/-- A percentage that is at least a whole number has at least ten times as many tenths. -/
theorem le_tenths {n : Nat} (hn : n ≤ 100) {x : Rat} (h : n ≤ x) : 10 * n ≤ tenths round x := by
  rw [← tenths_whole hround hn]
  exact tenths_mono hround h

/-- A percentage that is at most a whole number has at most ten times as many tenths. -/
theorem tenths_le {n : Nat} (hn : n ≤ 100) {x : Rat} (h : x ≤ n) : tenths round x ≤ 10 * n := by
  rw [← tenths_whole hround hn]
  exact tenths_mono hround h

namespace ScoreParts

theorem percentage_nonneg : 0 ≤ p.percentage round := by
  have hzero : round 0 = 0 := by exact_mod_cast hround.whole 0 (by omega)
  have hratio : (0 : Rat) ≤ mkRat p.matched p.possible := by
    rw [Rat.mkRat_eq_div]
    positivity
  have hshare : 0 ≤ round (mkRat p.matched p.possible) := hzero ▸ hround.mono hratio
  exact hzero ▸ hround.mono (mul_nonneg hshare (by norm_num))

/-- No more than a hundred per cent is found. -/
theorem percentage_le (h : p.matched ≤ p.possible) : p.percentage round ≤ 100 := by
  have hone : round 1 = 1 := by exact_mod_cast hround.whole 1 (by omega)
  have hhundred : round 100 = 100 := by exact_mod_cast hround.whole 100 (by omega)
  have hratio : mkRat p.matched p.possible ≤ 1 := by
    rw [Rat.mkRat_eq_div]
    exact div_le_one_of_le₀ (by exact_mod_cast h) (by positivity)
  have hshare : round (mkRat p.matched p.possible) ≤ 1 := hone ▸ hround.mono hratio
  exact hhundred ▸ hround.mono (by linarith)

/-- Nothing is lost by adding for a similar name. -/
theorem percentage_le_raised : p.percentage round ≤ p.raised round := by
  rw [raised]
  split
  · calc p.percentage round = round (p.percentage round) := (hround.idem _).symm
      _ ≤ round (p.percentage round + 10) := hround.mono (by linarith)
  · exact le_refl _

/-- Nothing is lost by the limit either. -/
theorem percentage_le_capped (h : p.matched ≤ p.possible) :
    p.percentage round ≤ p.capped round :=
  le_min (percentage_le_raised hround) (percentage_le hround h)

/-- A similar name alone makes ten per cent. -/
theorem ten_le_capped (hsimilar : p.similar = true) : 10 ≤ p.capped round := by
  have hten : round 10 = 10 := by exact_mod_cast hround.whole 10 (by omega)
  have hnonneg := percentage_nonneg hround (p := p)
  rw [capped, raised, if_pos hsimilar]
  exact le_min (hten ▸ hround.mono (by linarith)) (by norm_num)

/-- The score is made of at most a thousand tenths. -/
theorem tenths_capped_bounds (h : p.matched ≤ p.possible) :
    0 ≤ tenths round (p.capped round) ∧ tenths round (p.capped round) ≤ 1000 := by
  have hnonneg := (percentage_nonneg hround).trans (percentage_le_capped hround h)
  have hcap : p.capped round ≤ (100 : Nat) := min_le_right _ _
  exact ⟨le_tenths hround (n := 0) (by omega) (by exact_mod_cast hnonneg),
    tenths_le hround (by omega) hcap⟩

end ScoreParts

end Rounded

/-! ## The score of a group -/

/-- The score of a group in per cent is computed in binary floating point. -/
theorem compute_score_eq_score (s : Settings) (group : List Customer) :
    (computeScore s group : Rat) / 10 =
      (groupParts s.activeFields group).score Binary64.nearest := by
  have hbounds := ScoreParts.tenths_capped_bounds Binary64.nearest_rounding
    (matched_group_parts_le s.activeFields group)
  rw [compute_score_eq, ScoreParts.score]
  split
  · norm_num
  · obtain ⟨n, hn⟩ := Int.eq_ofNat_of_zero_le hbounds.1
    have hscore : scoreOf (groupParts s.activeFields group).matched
        (groupParts s.activeFields group).possible (groupParts s.activeFields group).similar =
        (tenths Binary64.nearest
          ((groupParts s.activeFields group).capped Binary64.nearest)).toNat := by
      rw [ScoreParts.capped, min_def]
      rfl
    rw [hscore, hn]
    rfl

/-- A number is bounded as the score of a group in per cent is, its steps being rounded in some
way. -/
structure ScoreBounded (round : Rat → Rat) (s : Settings) (group : List Customer)
    (score : Rat) : Prop where
  /-- It is a number of tenths between 0 and 100. -/
  tenths : ∃ n : Nat, n ≤ 1000 ∧ score = n / 10
  /-- It is zero if there is nothing to compare. -/
  nothing : group.length ≤ 1 ∨ s.activeFields = [] → score = 0
  /-- A name similar to that of the member compared with the others makes ten per cent. -/
  similar : s.activeFields ≠ [] → ∀ (i j : Nat) (hi : i < group.length) (hj : j < group.length),
    referencePlace? group = some i → j ≠ i →
      namesSimilar group[i].customerName group[j].customerName = true → 10 ≤ score
  /-- It is at least the agreement found, to a tenth of a per cent. -/
  percentage : s.activeFields ≠ [] → 2 ≤ group.length →
    (Duplicates.tenths round ((groupParts s.activeFields group).percentage round) : Rat) / 10 ≤
      score

/-- There is something to compare among at least two members, if there is an active field. -/
theorem possible_group_parts_pos {s : Settings} {group : List Customer}
    (hfields : s.activeFields ≠ []) (htwo : 2 ≤ group.length) :
    0 < (groupParts s.activeFields group).possible := by
  obtain ⟨f, rest, hcons⟩ := List.exists_cons_of_ne_nil hfields
  have hf : 0 < f.2 := Settings.active_weight_pos (hcons ▸ List.mem_cons_self)
  have hweight : totalWeight s.activeFields = f.2 + totalWeight rest := by
    rw [hcons]
    rfl
  rw [possible_group_parts, hweight]
  exact Nat.mul_pos (by omega) (by omega)

/-- A name at another place that is similar to that of the member compared with the others counts
as one. -/
theorem similar_group_parts (fields : List (CompareField × Nat)) {group : List Customer} {i j : Nat}
    (hi : i < group.length) (hj : j < group.length) (hplace : referencePlace? group = some i)
    (hne : j ≠ i) (h : namesSimilar group[i].customerName group[j].customerName = true) :
    (groupParts fields group).similar = true := by
  obtain ⟨i', hi', hplace', hparts⟩ :=
    group_parts_at_place fields (List.ne_nil_of_length_pos (Nat.zero_lt_of_lt hi))
  obtain rfl : i = i' := Option.some.inj (hplace.symm.trans hplace')
  rw [hparts]
  exact List.any_eq_true.mpr
    ⟨group[j], List.mem_eraseIdx_iff_getElem.mpr ⟨j, hj, hne, rfl⟩, h⟩

/-- Whichever way its steps are rounded, the score of a group is bounded. -/
theorem score_bounded {round : Rat → Rat} (hround : Rounding round) (s : Settings)
    (group : List Customer) :
    ScoreBounded round s group ((groupParts s.activeFields group).score round) := by
  have hle := matched_group_parts_le s.activeFields group
  have hpossible := possible_group_parts s.activeFields group
  have hscore : s.activeFields ≠ [] → 2 ≤ group.length →
      (groupParts s.activeFields group).score round =
        tenths round ((groupParts s.activeFields group).capped round) / 10 := fun hfields htwo =>
    if_neg (Nat.ne_of_gt (possible_group_parts_pos hfields htwo))
  constructor
  case tenths =>
    unfold ScoreParts.score
    split
    · exact ⟨0, by omega, by norm_num⟩
    · obtain ⟨hlow, hhigh⟩ := ScoreParts.tenths_capped_bounds hround hle
      obtain ⟨n, hn⟩ := Int.eq_ofNat_of_zero_le hlow
      rw [hn] at hhigh ⊢
      exact ⟨n, by omega, rfl⟩
  case nothing =>
    rintro (hone | hfields)
    · refine if_pos ?_
      rw [hpossible, show group.length - 1 = 0 by omega, Nat.mul_zero]
    · refine if_pos ?_
      rw [hpossible, hfields]
      exact Nat.zero_mul _
  case similar =>
    intro hfields i j hi hj hplace hne hsimilar
    rw [hscore hfields (by omega), le_div_iff₀ (by norm_num)]
    have hraised := ScoreParts.ten_le_capped hround
      (similar_group_parts s.activeFields hi hj hplace hne hsimilar)
    have htenths := le_tenths hround (n := 10) (by omega) (by exact_mod_cast hraised)
    exact_mod_cast htenths
  case percentage =>
    intro hfields htwo
    rw [hscore hfields htwo]
    have htenths := tenths_mono hround (ScoreParts.percentage_le_capped hround hle)
    exact div_le_div_of_nonneg_right (by exact_mod_cast htenths) (by norm_num)

end CustomerDedupe.Duplicates
