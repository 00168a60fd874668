import Mathlib.Algebra.Ring.Nat
import CustomerDedupe.Text.Numeral
import CustomerDedupe.Text.Split

/-!
# Numerals and split texts

A number that fits a width is written with exactly as many digits, and they stand for it
(`digits_value_pad_nat`). The numeral of an integer is read as the integer (`read_int_write_int`),
and hexadecimal digits as what they were written for (`hex_value_hex_digit`). A text that was put
together with separators is split into the same parts (`split_at_intercalate`).
-/

namespace CustomerDedupe.Text

/-! ## Decimal numerals -/

theorem is_digit_of_mem_pad_nat {width n : Nat} {c : Char} (h : c ∈ padNat width n) :
    c.isDigit = true := by
  rw [padNat, List.mem_append] at h
  rcases h with h | h
  · rw [List.eq_of_mem_replicate h]
    rfl
  · exact is_digit_of_mem_write_nat h

/-- A number that fits a width is written with as many digits. -/
theorem length_pad_nat {width n : Nat} (hwidth : 0 < width) (h : n < 10 ^ width) :
    (padNat width n).length = width := by
  have hle : (writeNat n).length ≤ width :=
    (Nat.length_toDigits_le_iff (by decide) hwidth).mpr h
  rw [padNat, List.length_append, List.length_replicate]
  omega

/-- The digits of a padded numeral stand for its number. -/
theorem digits_value_pad_nat (width n : Nat) : digitsValue (padNat width n) = n := by
  rw [digitsValue, padNat, Nat.ofDigitChars_append, Nat.ofDigitChars_replicate_zero,
    Nat.mul_zero]
  exact Nat.ofDigitChars_ten_toDigits

/-- Digits behind a number make it greater by at most a power of ten for each. -/
theorem of_digit_chars_lt {ds : List Char} (h : ∀ c ∈ ds, c.isDigit = true) (n : Nat) :
    Nat.ofDigitChars 10 ds n < (n + 1) * 10 ^ ds.length := by
  induction ds generalizing n with
  | nil => simp
  | cons c ds ih =>
      obtain ⟨hc, hds⟩ := List.forall_mem_cons.mp h
      have hnine : c.toNat - '0'.toNat ≤ 9 :=
        Nat.sub_le_sub_right (Char.isDigit_iff_toNat.mp hc).2 _
      rw [Nat.ofDigitChars_cons]
      calc Nat.ofDigitChars 10 ds (10 * n + (c.toNat - '0'.toNat))
        _ < (10 * n + (c.toNat - '0'.toNat) + 1) * 10 ^ ds.length := ih hds _
        _ ≤ (10 * (n + 1)) * 10 ^ ds.length := Nat.mul_le_mul_right _ (by omega)
        _ = (n + 1) * 10 ^ (c :: ds).length := by
          rw [List.length_cons, Nat.pow_succ', Nat.mul_comm 10, Nat.mul_assoc]

/-- Some digits stand for a number that fits their width. -/
theorem digits_value_lt {ds : List Char} (h : ∀ c ∈ ds, c.isDigit = true) :
    digitsValue ds < 10 ^ ds.length := by
  have hlt := of_digit_chars_lt h 0
  rwa [Nat.zero_add, Nat.one_mul] at hlt

/-! ## Signed numerals -/

/-- A numeral without a sign is read as its number. -/
theorem read_int_write_nat (n : Nat) : readInt? (writeNat n) = some (n : Int) := by
  have hdigit : ∀ c ∈ writeNat n, c.isDigit = true := fun _ => is_digit_of_mem_write_nat
  unfold readInt?
  split
  next heq => exact absurd (hdigit '-' (by rw [heq]; exact List.mem_cons_self)) (by decide)
  next heq => exact absurd (hdigit '+' (by rw [heq]; exact List.mem_cons_self)) (by decide)
  next => rw [read_nat_write_nat]; rfl

/-- The numeral of an integer reads back as the integer. -/
theorem read_int_write_int (n : Int) : readInt? (writeInt n) = some n := by
  unfold writeInt
  split
  next hneg =>
    rw [readInt?, read_nat_write_nat]
    show some (-(n.natAbs : Int)) = some n
    rw [Int.ofNat_natAbs_of_nonpos (Int.le_of_lt hneg), Int.neg_neg]
  next hpos => rw [read_int_write_nat, Int.natAbs_of_nonneg (Int.not_lt.mp hpos)]

/-- Numerals of integers read back as the integers. -/
theorem read_ints_write_ints (ns : List Int) : (ns.map writeInt).mapM readInt? = some ns := by
  induction ns with
  | nil => rfl
  | cons n ns ih =>
      rw [List.map_cons, List.mapM_cons, read_int_write_int, ih]
      rfl

/-- A numeral consists of digits and perhaps a sign. -/
theorem mem_write_int {n : Int} {c : Char} (h : c ∈ writeInt n) : c = '-' ∨ c.isDigit = true := by
  unfold writeInt at h
  split at h
  next => exact (List.mem_cons.mp h).imp_right is_digit_of_mem_write_nat
  next => exact .inr (is_digit_of_mem_write_nat h)

/-! ## Hexadecimal digits -/

/-- A hexadecimal digit is read as its number. -/
theorem hex_value_hex_digit (n : Nat) : hexValue? (hexDigit n) = some (n % 16) := by
  have hall : ∀ m < 16, hexValue? (Nat.digitChar m) = some m := by decide
  exact hall (n % 16) (Nat.mod_lt n (by decide))

theorem hex_digit_ne_hyphen (n : Nat) : hexDigit n ≠ '-' := by
  have hall : ∀ m < 16, Nat.digitChar m ≠ '-' := by decide
  exact hall (n % 16) (Nat.mod_lt n (by decide))

/-! ## Split texts -/

/-- A text without separators is one part. -/
theorem split_at_of_not_mem {sep : Char} {s : List Char} (h : sep ∉ s) : splitAt sep s = [s] := by
  induction s with
  | nil => rfl
  | cons c s ih =>
      rw [List.mem_cons, not_or] at h
      have hne : (c == sep) = false := beq_false_of_ne (Ne.symm h.1)
      rw [splitAt, hne, ih h.2]

/-- The part before the first separator is the first one. -/
theorem split_at_append_sep {sep : Char} {s : List Char} (h : sep ∉ s) (rest : List Char) :
    splitAt sep (s ++ sep :: rest) = s :: splitAt sep rest := by
  induction s with
  | nil => exact split_at_cons_sep sep rest
  | cons c s ih =>
      rw [List.mem_cons, not_or] at h
      have hne : (c == sep) = false := beq_false_of_ne (Ne.symm h.1)
      rw [List.cons_append, splitAt, hne, ih h.2]

/-- Parts put together with separators are found again. -/
theorem split_at_intercalate {sep : Char} {parts : List (List Char)} (hne : parts ≠ [])
    (h : ∀ part ∈ parts, sep ∉ part) : splitAt sep (List.intercalate [sep] parts) = parts := by
  induction parts with
  | nil => exact absurd rfl hne
  | cons part parts ih =>
      have hpart := h part List.mem_cons_self
      cases parts with
      | nil =>
          rw [List.intercalate_singleton]
          exact split_at_of_not_mem hpart
      | cons next parts =>
          rw [List.intercalate_cons_cons, List.append_assoc, List.singleton_append,
            split_at_append_sep hpart,
            ih (by simp) fun p hp => h p (List.mem_cons_of_mem _ hp)]

end CustomerDedupe.Text
