import CustomerDedupe.Number.Decimal
import CustomerDedupe.Proofs.Text.Numeral

/-!
# Decimals are read as they are written

A decimal is written with all of its digits, of which the last ones are places. Reading collects the
digits one after another, before and after the point, and as long as they fit none is rounded away.
So a decimal that can be held is read as it was written (`read_text`), but for the sign of a zero.
-/

namespace CustomerDedupe.Number.Decimal

/-- The digits of a decimal fit, and so do its places. -/
structure Representable (d : Decimal) : Prop where
  coefficient_le : d.coefficient ≤ maxCoefficient
  scale_le : d.scale ≤ maxScale

instance (d : Decimal) : Decidable d.Representable :=
  decidable_of_iff (d.coefficient ≤ maxCoefficient ∧ d.scale ≤ maxScale)
    ⟨fun h => ⟨h.1, h.2⟩, fun h => ⟨h.coefficient_le, h.scale_le⟩⟩

/-- The decimal without the sign of a zero. -/
def unsignedZero (d : Decimal) : Decimal :=
  ofParts d.negative d.coefficient d.scale

/-- The sign of a zero does not matter. -/
theorem value_unsigned_zero (d : Decimal) : d.unsignedZero.value = d.value := by
  obtain ⟨negative, coefficient, scale⟩ := d
  by_cases hzero : coefficient = 0
  · subst hzero
    cases negative <;> rfl
  · simp [unsignedZero, ofParts, hzero]

theorem unsigned_zero_eq {d : Decimal} (h : d.coefficient = 0 → d.negative = false) :
    d.unsignedZero = d := by
  obtain ⟨negative, coefficient, scale⟩ := d
  by_cases hzero : coefficient = 0
  · have hpositive : negative = false := h hzero
    subst hpositive
    rfl
  · simp [unsignedZero, ofParts, hzero]

/-! ## Digits -/

/-- Digits after a number make it no smaller. -/
theorem le_of_digit_chars (ds : List Char) (n : Nat) : n ≤ Nat.ofDigitChars 10 ds n := by
  induction ds generalizing n with
  | nil => exact Nat.le_refl n
  | cons c ds ih =>
      rw [Nat.ofDigitChars_cons]
      have hnext := ih (10 * n + (c.toNat - '0'.toNat))
      omega

/-- Digits that fit are collected. After the point each of them is a place. -/
theorem read_digits (n k : Nat) (point seen : Bool) {ds : List Char}
    (hdigits : ∀ c ∈ ds, c.isDigit = true) (hfits : Nat.ofDigitChars 10 ds n ≤ maxCoefficient)
    (hbefore : point = false → k = 0) (hplaces : point = true → k + ds.length ≤ maxScale)
    (rest : List Char) :
    Progress.read? ⟨n, k, point, seen⟩ (ds ++ rest) =
      Progress.read? ⟨Nat.ofDigitChars 10 ds n, if point then k + ds.length else 0, point,
        seen || !ds.isEmpty⟩ rest := by
  induction ds generalizing n k seen with
  | nil =>
      cases point with
      | false => simp [hbefore rfl]
      | true => simp
  | cons c ds ih =>
      have hc : c.isDigit = true := hdigits c List.mem_cons_self
      have hlonger : n * 10 + (c.toNat - '0'.toNat) = 10 * n + (c.toNat - '0'.toNat) := by omega
      rw [Nat.ofDigitChars_cons] at hfits
      have hroom : (point && decide (maxScale ≤ k)) = false := by
        cases point with
        | false => rfl
        | true =>
            have hle := hplaces rfl
            rw [List.length_cons] at hle
            simp only [Bool.true_and, decide_eq_false_iff_not]
            omega
      have hlonger_le : 10 * n + (c.toNat - '0'.toNat) ≤ maxCoefficient :=
        Nat.le_trans (le_of_digit_chars ds _) hfits
      have hnext : point = true → (if point then k + 1 else 0) + ds.length ≤ maxScale := by
        rintro rfl
        have hle := hplaces rfl
        rw [List.length_cons] at hle
        simp only [if_true]
        omega
      rw [List.cons_append, Progress.read?]
      simp only [hroom, hc, hlonger, if_pos hlonger_le, Bool.false_eq_true, if_false, if_true]
      rw [ih _ _ _ (fun d hd => hdigits d (List.mem_cons_of_mem _ hd)) hfits (by rintro rfl; rfl)
        hnext, Nat.ofDigitChars_cons]
      cases point <;> simp [Nat.add_assoc, Nat.add_comm 1]

/-- A number before the point and its places are read as the digits of both together. -/
theorem read_point {whole places : List Char} (hwhole : ∀ c ∈ whole, c.isDigit = true)
    (hplaces : ∀ c ∈ places, c.isDigit = true) (hne : whole ≠ [])
    (hfits : Nat.ofDigitChars 10 (whole ++ places) 0 ≤ maxCoefficient)
    (hscale : places.length ≤ maxScale) :
    Progress.read? ⟨0, 0, false, false⟩
        (whole ++ if places.length = 0 then [] else '.' :: places) =
      some (Nat.ofDigitChars 10 (whole ++ places) 0, places.length) := by
  have hempty : whole.isEmpty = false := List.isEmpty_eq_false_iff.mpr hne
  rw [Nat.ofDigitChars_append] at hfits ⊢
  have hfits' := Nat.le_trans (le_of_digit_chars places _) hfits
  rw [read_digits 0 0 false false hwhole hfits' (fun _ => rfl) (fun h => nomatch h)]
  simp only [hempty, Bool.not_false, Bool.or_true, Bool.false_eq_true, if_false]
  split
  next hnone =>
    rw [List.eq_nil_of_length_eq_zero hnone]
    rfl
  next =>
    have hpoint : ∀ rest, Progress.read? ⟨Nat.ofDigitChars 10 whole 0, 0, false, true⟩
        ('.' :: rest) = Progress.read? ⟨Nat.ofDigitChars 10 whole 0, 0, true, true⟩ rest :=
      fun _ => rfl
    have hread := read_digits (Nat.ofDigitChars 10 whole 0) 0 true true hplaces hfits
      (fun h => nomatch h) (fun _ => by omega) []
    rw [List.append_nil] at hread
    rw [hpoint, hread]
    simp [Progress.read?]

/-! ## Decimals -/

/-- A numeral that begins with a digit has no sign. -/
theorem read_plain_digit {c : Char} (hc : c.isDigit = true) (rest : List Char) :
    readPlain? (c :: rest) =
      (Progress.read? ⟨0, 0, false, false⟩ (c :: rest)).map fun p => ofParts false p.1 p.2 := by
  unfold readPlain?
  split
  next heq =>
    obtain rfl := (List.cons.inj heq).1
    exact absurd hc (by decide)
  next heq =>
    obtain rfl := (List.cons.inj heq).1
    exact absurd hc (by decide)
  next => rfl

/-- A decimal that can be held is read as it is written, but for the sign of a zero. -/
theorem read_text {d : Decimal} (h : d.Representable) : read? d.text = some d.unsignedZero := by
  let ds := Text.padNat (d.scale + 1) d.coefficient
  let whole := ds.take (ds.length - d.scale)
  let places := ds.drop (ds.length - d.scale)
  let unsigned := whole ++ if d.scale = 0 then [] else '.' :: places
  have hlength : d.scale + 1 ≤ ds.length := by
    simp only [ds, Text.padNat, List.length_append, List.length_replicate]
    omega
  have hdigits : ∀ c ∈ ds, c.isDigit = true := fun _ hc => Text.is_digit_of_mem_pad_nat hc
  have hplaces : places.length = d.scale := by
    simp only [places, List.length_drop]
    omega
  have hwhole : whole ≠ [] := by
    refine List.ne_nil_of_length_pos ?_
    simp only [whole, List.length_take]
    omega
  have hparts : whole ++ places = ds := List.take_append_drop _ _
  have hvalue : Nat.ofDigitChars 10 ds 0 = d.coefficient := Text.digits_value_pad_nat _ _
  have hunsigned : Progress.read? ⟨0, 0, false, false⟩ unsigned =
      some (d.coefficient, d.scale) := by
    have hread := read_point (fun c hc => hdigits c (List.mem_of_mem_take hc))
      (fun c hc => hdigits c (List.mem_of_mem_drop hc)) hwhole
      (by rw [hparts, hvalue]; exact h.coefficient_le) (by rw [hplaces]; exact h.scale_le)
    rwa [hparts, hvalue, hplaces] at hread
  have hplain : readPlain? d.text.toList = some d.unsignedZero := by
    have htext : d.text.toList = (if d.negative then ['-'] else []) ++ unsigned := by
      rw [text, String.toList_ofList, List.append_assoc]
    rw [htext]
    cases hsign : d.negative with
    | true =>
        show (Progress.read? ⟨0, 0, false, false⟩ unsigned).map _ = _
        rw [hunsigned, unsignedZero, hsign]
        rfl
    | false =>
        obtain ⟨c, rest, hcons⟩ := List.exists_cons_of_ne_nil hwhole
        have hc : c.isDigit = true := hdigits c (List.mem_of_mem_take (hcons ▸ List.mem_cons_self))
        have hfirst : unsigned = c :: (rest ++ if d.scale = 0 then [] else '.' :: places) :=
          congrArg (· ++ _) hcons
        rw [if_neg Bool.false_ne_true, List.nil_append, hfirst, read_plain_digit hc, ← hfirst,
          hunsigned, unsignedZero, hsign]
        rfl
  rw [read?, hplain]
  rfl

end CustomerDedupe.Number.Decimal
