import Mathlib.Algebra.Order.Field.Power
import Mathlib.Data.Rat.Floor
import Mathlib.Tactic.FieldSimp
import Mathlib.Tactic.Linarith
import Mathlib.Tactic.NormNum
import Mathlib.Tactic.Positivity
import CustomerDedupe.Number.Binary64

/-!
# Rounding keeps the order

Rounding to whole numbers and to binary floating point never puts two numbers in the opposite
order, and it leaves alone what has been rounded. `Rounding` gathers what may be relied on when the
steps of a computation are rounded; `nearest_rounding` says that binary floating point may be relied
on so, and `exact_rounding` that exact arithmetic may.
-/

namespace CustomerDedupe.Number

/-- A way of rounding numbers that keeps their order, leaves alone what it has rounded, and leaves
alone the whole numbers up to a thousand. -/
structure Rounding (round : Rat → Rat) : Prop where
  mono : ∀ {x y : Rat}, x ≤ y → round x ≤ round y
  idem : ∀ x : Rat, round (round x) = round x
  whole : ∀ n : Nat, n ≤ 1000 → round n = n

/-- Exact arithmetic rounds nothing. -/
theorem exact_rounding : Rounding id where
  mono h := h
  idem _ := rfl
  whole _ _ := rfl

/-! ## Whole numbers -/

/-- A rounded number is the whole number below, which is then no more than a half away, or the next
one, which is then no more than a half away either. -/
theorem round_half_even_cases (x : Rat) :
    roundHalfEven x = ⌊x⌋ ∧ x - ⌊x⌋ ≤ 1 / 2 ∨ roundHalfEven x = ⌊x⌋ + 1 ∧ 1 / 2 ≤ x - ⌊x⌋ := by
  have hhalf : mkRat 1 2 = 1 / 2 := by norm_num
  have hfloor : x.floor = ⌊x⌋ := rfl
  unfold roundHalfEven
  simp only [hhalf, hfloor]
  split
  · next hlt => exact .inl ⟨rfl, le_of_lt hlt⟩
  · next hge =>
    have hhalf_le : 1 / 2 ≤ x - ⌊x⌋ := not_lt.mp hge
    split
    · exact .inr ⟨rfl, hhalf_le⟩
    · next hle =>
      split
      · exact .inl ⟨rfl, not_lt.mp hle⟩
      · exact .inr ⟨rfl, hhalf_le⟩

/-- Rounding to whole numbers keeps the order. -/
theorem round_half_even_mono {x y : Rat} (h : x ≤ y) : roundHalfEven x ≤ roundHalfEven y := by
  have hfloor : ⌊x⌋ ≤ ⌊y⌋ := Int.floor_le_floor h
  rcases round_half_even_cases x with ⟨hx, -⟩ | ⟨hx, hx'⟩ <;>
    rcases round_half_even_cases y with ⟨hy, hy'⟩ | ⟨hy, -⟩
  · omega
  · omega
  · rcases Int.lt_or_eq_of_le hfloor with hlt | heq
    · omega
    · -- both are halfway between the same whole numbers, so they are the same
      rw [← heq] at hy'
      have hsame : x = y := by linarith
      rw [hsame]
  · omega

/-- Whole numbers are left alone. -/
theorem round_half_even_int (n : Int) : roundHalfEven (n : Rat) = n := by
  rcases round_half_even_cases (n : Rat) with ⟨h, -⟩ | ⟨-, h⟩
  · rw [h, Int.floor_intCast]
  · rw [Int.floor_intCast, sub_self] at h
    norm_num at h

/-- A number that is at least a whole number is rounded to at least that number. -/
theorem le_round_half_even {n : Int} {x : Rat} (h : (n : Rat) ≤ x) : n ≤ roundHalfEven x := by
  rw [← round_half_even_int n]
  exact round_half_even_mono h

/-- A number that is at most a whole number is rounded to at most that number. -/
theorem round_half_even_le {n : Int} {x : Rat} (h : x ≤ (n : Rat)) : roundHalfEven x ≤ n := by
  rw [← round_half_even_int n]
  exact round_half_even_mono h

/-! ## Binary floating point -/

namespace Binary64

/-- Powers with exponents of either sign are the usual ones. -/
theorem rat_power_eq (base : Nat) (e : Int) : ratPower base e = (base : Rat) ^ e := by
  unfold ratPower power
  split
  · next h =>
    obtain ⟨n, rfl⟩ := Int.eq_ofNat_of_zero_le h
    simp
  · next h =>
    obtain ⟨n, hn⟩ := Int.eq_ofNat_of_zero_le (show 0 ≤ -e by omega)
    obtain rfl : e = -n := by omega
    simp [Rat.mkRat_eq_div]

/-- The lengths of numerator and denominator bound a number by powers of two. -/
theorem between_powers {x : Rat} (hx : 0 < x) :
    let guess : Int := (Nat.log2 x.num.toNat : Int) - (Nat.log2 x.den : Int)
    (2 : Rat) ^ (guess - 1) < x ∧ x < (2 : Rat) ^ (guess + 1) := by
  intro guess
  have hnum : 0 < x.num := Rat.num_pos.mpr hx
  have hn : x.num.toNat ≠ 0 := by omega
  have hcast : ((x.num.toNat : Nat) : Rat) = x.num := by
    exact_mod_cast Int.toNat_of_nonneg (le_of_lt hnum)
  have hden : (0 : Rat) < x.den := by exact_mod_cast x.den_pos
  have hnLow : ((2 ^ Nat.log2 x.num.toNat : Nat) : Rat) ≤ x.num.toNat := by
    exact_mod_cast Nat.log2_self_le hn
  have hnHigh : (x.num.toNat : Rat) < ((2 ^ (Nat.log2 x.num.toNat + 1) : Nat) : Rat) := by
    exact_mod_cast Nat.lt_log2_self
  have hdLow : ((2 ^ Nat.log2 x.den : Nat) : Rat) ≤ x.den := by
    exact_mod_cast Nat.log2_self_le x.den_ne_zero
  have hdHigh : (x.den : Rat) < ((2 ^ (Nat.log2 x.den + 1) : Nat) : Rat) := by
    exact_mod_cast Nat.lt_log2_self
  have hpower : ∀ (e : Int) (m n : Nat), e + m = n →
      (2 : Rat) ^ e * ((2 ^ m : Nat) : Rat) = ((2 ^ n : Nat) : Rat) := by
    intro e m n h
    push_cast
    rw [← zpow_natCast, ← zpow_add₀ two_ne_zero, ← zpow_natCast, h]
  constructor
  · rw [← Rat.num_div_den x, lt_div_iff₀ (by exact_mod_cast hden), ← hcast]
    calc (2 : Rat) ^ (guess - 1) * x.den
        < (2 : Rat) ^ (guess - 1) * ((2 ^ (Nat.log2 x.den + 1) : Nat) : Rat) := by gcongr
      _ = ((2 ^ Nat.log2 x.num.toNat : Nat) : Rat) := hpower _ _ _ (by omega)
      _ ≤ x.num.toNat := hnLow
  · rw [← Rat.num_div_den x, div_lt_iff₀ (by exact_mod_cast hden), ← hcast]
    calc (x.num.toNat : Rat)
        < ((2 ^ (Nat.log2 x.num.toNat + 1) : Nat) : Rat) := hnHigh
      _ = (2 : Rat) ^ (guess + 1) * ((2 ^ Nat.log2 x.den : Nat) : Rat) :=
          (hpower _ _ _ (by omega)).symm
      _ ≤ (2 : Rat) ^ (guess + 1) * x.den := by gcongr

/-- The exponent of a positive number is that of the power of two at or below it. -/
theorem binary_exponent_spec {x : Rat} (hx : 0 < x) :
    (2 : Rat) ^ binaryExponent x ≤ x ∧ x < (2 : Rat) ^ (binaryExponent x + 1) := by
  obtain ⟨hlow, hhigh⟩ := between_powers hx
  unfold binaryExponent
  simp only [rat_power_eq, Nat.cast_ofNat]
  split
  · next hle => exact ⟨hle, hhigh⟩
  · next hgt =>
    rw [sub_add_cancel]
    exact ⟨le_of_lt hlow, not_le.mp hgt⟩

/-- The exponents of positive numbers are in their order. -/
theorem binary_exponent_mono {x y : Rat} (hx : 0 < x) (h : x ≤ y) :
    binaryExponent x ≤ binaryExponent y := by
  have hlow := (binary_exponent_spec hx).1
  have hhigh := (binary_exponent_spec (lt_of_lt_of_le hx h)).2
  have hlt : (2 : Rat) ^ binaryExponent x < (2 : Rat) ^ (binaryExponent y + 1) :=
    lt_of_le_of_lt hlow (lt_of_le_of_lt h hhigh)
  have hexponents := (zpow_lt_zpow_iff_right₀ one_lt_two).mp hlt
  omega

/-- The last place of a positive number. -/
def unit (x : Rat) : Rat :=
  (2 : Rat) ^ lastPlace x

theorem unit_pos (x : Rat) : 0 < unit x :=
  zpow_pos two_pos _

/-- A positive number is rounded to a whole number of units. -/
theorem nearest_eq {x : Rat} (hx : 0 < x) :
    nearest x = (roundHalfEven (x / unit x) : Rat) * unit x := by
  have hunit : ratPower 2 (lastPlace x) = unit x := rat_power_eq 2 _
  rw [nearest, if_neg (not_le.mpr hx), hunit]

theorem nearest_of_nonpos {x : Rat} (hx : x ≤ 0) : nearest x = 0 := by
  rw [nearest, if_pos hx]

/-- A positive number has at most 53 bits before its last place. -/
theorem div_unit_lt {x : Rat} (hx : 0 < x) : x / unit x < 2 ^ 53 := by
  have hexponent : binaryExponent x + 1 ≤ 53 + lastPlace x := by
    unfold lastPlace
    omega
  rw [div_lt_iff₀ (unit_pos x)]
  calc x < (2 : Rat) ^ (binaryExponent x + 1) := (binary_exponent_spec hx).2
    _ ≤ (2 : Rat) ^ (53 + lastPlace x) := zpow_le_zpow_right₀ one_le_two hexponent
    _ = 2 ^ 53 * unit x := by rw [zpow_add₀ two_ne_zero, unit]; norm_num

/-- A positive number is rounded to at most `2 ^ 53` units. -/
theorem units_le {x : Rat} (hx : 0 < x) : roundHalfEven (x / unit x) ≤ 2 ^ 53 := by
  apply round_half_even_le
  push_cast
  exact le_of_lt (div_unit_lt hx)

theorem units_nonneg {x : Rat} (hx : 0 < x) : 0 ≤ roundHalfEven (x / unit x) := by
  apply le_round_half_even
  push_cast
  exact le_of_lt (div_pos hx (unit_pos x))

theorem nearest_nonneg (x : Rat) : 0 ≤ nearest x := by
  rcases le_or_gt x 0 with hx | hx
  · rw [nearest_of_nonpos hx]
  · rw [nearest_eq hx]
    exact mul_nonneg (by exact_mod_cast units_nonneg hx) (le_of_lt (unit_pos x))

/-- Rounding to the format keeps the order. -/
theorem nearest_mono {x y : Rat} (h : x ≤ y) : nearest x ≤ nearest y := by
  rcases le_or_gt x 0 with hx | hx
  · rw [nearest_of_nonpos hx]
    exact nearest_nonneg y
  · have hy : 0 < y := lt_of_lt_of_le hx h
    have hexponent := binary_exponent_mono hx h
    rw [nearest_eq hx, nearest_eq hy]
    rcases eq_or_ne (lastPlace x) (lastPlace y) with hsame | hother
    · have hunit : unit x = unit y := by rw [unit, unit, hsame]
      rw [hunit]
      have hrounded : roundHalfEven (x / unit y) ≤ roundHalfEven (y / unit y) :=
        round_half_even_mono (div_le_div_of_nonneg_right h (le_of_lt (unit_pos y)))
      exact mul_le_mul_of_nonneg_right (by exact_mod_cast hrounded) (le_of_lt (unit_pos y))
    · -- the power of two at or below the larger number lies between the rounded numbers
      have hplaces : lastPlace x + 1 ≤ lastPlace y ∧ binaryExponent y = 52 + lastPlace y := by
        unfold lastPlace at *
        omega
      have hmiddle : (2 : Rat) ^ 52 * unit y ≤ y := by
        have hpower := (binary_exponent_spec hy).1
        rw [hplaces.2, zpow_add₀ two_ne_zero] at hpower
        exact_mod_cast hpower
      have habove : (2 : Int) ^ 52 ≤ roundHalfEven (y / unit y) := by
        apply le_round_half_even
        push_cast
        exact (le_div_iff₀ (unit_pos y)).mpr hmiddle
      have hunits : 2 * unit x ≤ unit y := by
        have hstep := zpow_le_zpow_right₀ (one_le_two (α := Rat)) hplaces.1
        rw [zpow_add_one₀ two_ne_zero, mul_comm] at hstep
        exact hstep
      calc (roundHalfEven (x / unit x) : Rat) * unit x
          ≤ 2 ^ 53 * unit x :=
            mul_le_mul_of_nonneg_right (by exact_mod_cast units_le hx) (le_of_lt (unit_pos x))
        _ = 2 ^ 52 * (2 * unit x) := by ring
        _ ≤ 2 ^ 52 * unit y := by gcongr
        _ ≤ (roundHalfEven (y / unit y) : Rat) * unit y :=
            mul_le_mul_of_nonneg_right (by exact_mod_cast habove) (le_of_lt (unit_pos y))

/-- A whole number of units is left alone. -/
theorem nearest_of_units {x : Rat} (hx : 0 < x) {m : Int} (h : x = m * unit x) :
    nearest x = x := by
  have hunits : x / unit x = m := (div_eq_iff (ne_of_gt (unit_pos x))).mpr h
  rw [nearest_eq hx, hunits, round_half_even_int]
  exact h.symm

/-- A number of at most 53 bits above the lowest place of the format is left alone. -/
theorem nearest_dyadic {k : Nat} {e : Int} (hk : k ≤ 2 ^ 53) (he : -1074 ≤ e) :
    nearest ((k : Rat) * (2 : Rat) ^ e) = (k : Rat) * (2 : Rat) ^ e := by
  rcases Nat.eq_zero_or_pos k with rfl | hpos
  · rw [Nat.cast_zero, zero_mul]
    exact nearest_of_nonpos (le_refl 0)
  · have hk' : (k : Rat) ≤ 2 ^ 53 := by exact_mod_cast hk
    have hx : (0 : Rat) < k * 2 ^ e := mul_pos (by exact_mod_cast hpos) (zpow_pos two_pos e)
    generalize hxe : (k : Rat) * 2 ^ e = x at hx ⊢
    have hlow := (binary_exponent_spec hx).1
    have hexponent : binaryExponent x ≤ 53 + e := by
      have hle : (2 : Rat) ^ binaryExponent x ≤ (2 : Rat) ^ (53 + e) := by
        calc (2 : Rat) ^ binaryExponent x ≤ k * 2 ^ e := hxe ▸ hlow
          _ ≤ 2 ^ 53 * 2 ^ e := by gcongr
          _ = (2 : Rat) ^ (53 + e) := by rw [zpow_add₀ two_ne_zero]; norm_num
      exact (zpow_le_zpow_iff_right₀ one_lt_two).mp hle
    rcases le_or_gt (lastPlace x) e with hplace | hplace
    · obtain ⟨j, hj⟩ := Int.eq_ofNat_of_zero_le (show 0 ≤ e - lastPlace x by omega)
      refine nearest_of_units hx (m := (k * 2 ^ j : Nat)) ?_
      have hsplit : (2 : Rat) ^ e = 2 ^ j * unit x := by
        rw [unit, ← zpow_natCast, ← zpow_add₀ two_ne_zero, ← hj, sub_add_cancel]
      push_cast
      rw [mul_assoc, ← hsplit, hxe]
    · -- only the power of two with 54 bits needs a higher place
      have hplaces : lastPlace x = e + 1 ∧ binaryExponent x = 53 + e := by
        unfold lastPlace at *
        omega
      have hfull : (2 : Rat) ^ 53 ≤ k := by
        rw [hplaces.2, zpow_add₀ two_ne_zero, ← hxe] at hlow
        exact_mod_cast le_of_mul_le_mul_right hlow (zpow_pos two_pos e)
      have hkeq : (k : Rat) = 2 ^ 53 := le_antisymm hk' hfull
      refine nearest_of_units hx (m := 2 ^ 52) ?_
      rw [unit, hplaces.1, ← hxe, hkeq, zpow_add_one₀ two_ne_zero]
      push_cast
      ring

/-- Rounding to the format leaves alone what it has rounded. -/
theorem nearest_idem (x : Rat) : nearest (nearest x) = nearest x := by
  rcases le_or_gt x 0 with hx | hx
  · rw [nearest_of_nonpos hx, nearest_of_nonpos (le_refl 0)]
  · obtain ⟨k, hk⟩ := Int.eq_ofNat_of_zero_le (units_nonneg hx)
    have hbits : k ≤ 2 ^ 53 := by
      have hle := units_le hx
      omega
    have hplace : -1074 ≤ lastPlace x := le_max_right _ _
    have hdyadic := nearest_dyadic hbits hplace
    rw [nearest_eq hx, hk]
    exact hdyadic

/-- Rounding to the format is a way of rounding. -/
theorem nearest_rounding : Rounding nearest where
  mono := nearest_mono
  idem := nearest_idem
  whole n hn := by
    have hdyadic := nearest_dyadic (k := n) (e := 0) (by omega) (by norm_num)
    rwa [zpow_zero, mul_one] at hdyadic

end Binary64

end CustomerDedupe.Number
