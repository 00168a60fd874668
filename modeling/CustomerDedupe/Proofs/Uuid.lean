import CustomerDedupe.Proofs.Text.Numeral
import CustomerDedupe.Uuid

/-!
# Identifiers are read as they are written

The five groups of an identifier's text hold its 32 digits, and these stand for its value. So the
text is read as the identifier (`read_chars`), and no two identifiers share one (`text_injective`).
-/

namespace CustomerDedupe.Uuid

/-- Identifiers of the same value are the same. -/
theorem value_injective {a b : Uuid} (h : a.value = b.value) : a = b := by
  obtain ⟨v, hv⟩ := a
  obtain ⟨w, hw⟩ := b
  obtain rfl : v = w := h
  rfl

/-! ## Digits -/

theorem length_hex_digits (n count : Nat) : (hexDigits n count).length = count := by
  induction count generalizing n with
  | zero => rfl
  | succ count ih => rw [hexDigits, List.length_append, ih, List.length_singleton]

theorem mem_hex_digits {n count : Nat} {c : Char} (h : c ∈ hexDigits n count) :
    ∃ d, c = Text.hexDigit d := by
  induction count generalizing n with
  | zero => simp [hexDigits] at h
  | succ count ih =>
      rw [hexDigits, List.mem_append, List.mem_singleton] at h
      rcases h with h | rfl
      · exact ih h
      · exact ⟨_, rfl⟩

/-- The low digits of a number stand for the number, as far as they reach. -/
theorem hex_number_hex_digits (n count : Nat) : hexNumber (hexDigits n count) = n % 16 ^ count := by
  induction count generalizing n with
  | zero => simp [hexDigits, hexNumber, Nat.mod_one]
  | succ count ih =>
      have hsnoc (ds : List Char) (c : Char) :
          hexNumber (ds ++ [c]) = hexNumber ds * 16 + (Text.hexValue? c).getD 0 := by
        rw [hexNumber, List.foldl_append]
        rfl
      rw [hexDigits, hsnoc, ih, Text.hex_value_hex_digit, Option.getD_some, Nat.mod_mod,
        Nat.pow_succ', Nat.mod_mul]
      omega

/-! ## Groups -/

theorem length_groups (lengths : List Nat) (ds : List Char) (h : lengths.sum ≤ ds.length) :
    (groups lengths ds).map List.length = lengths := by
  induction lengths generalizing ds with
  | nil => rfl
  | cons n lengths ih =>
      rw [List.sum_cons] at h
      rw [groups, List.map_cons, List.length_take, ih (ds.drop n) (by rw [List.length_drop]; omega)]
      congr 1
      omega

theorem flatten_groups (lengths : List Nat) (ds : List Char) :
    (groups lengths ds).flatten = ds.take lengths.sum := by
  induction lengths generalizing ds with
  | nil => simp [groups]
  | cons n lengths ih => rw [groups, List.flatten_cons, ih, List.sum_cons, List.take_add]

/-- The groups of an identifier hold its digits. -/
theorem groups_flatten (n : Nat) :
    (groups groupLengths (hexDigits n 32)).flatten = hexDigits n 32 := by
  rw [flatten_groups, List.take_of_length_le]
  rw [length_hex_digits]
  decide

theorem hyphen_not_mem_group {n : Nat} {part : List Char}
    (h : part ∈ groups groupLengths (hexDigits n 32)) : '-' ∉ part := by
  intro hmem
  have hdigit : '-' ∈ hexDigits n 32 := by
    rw [← groups_flatten]
    exact List.mem_flatten.mpr ⟨part, h, hmem⟩
  obtain ⟨d, hd⟩ := mem_hex_digits hdigit
  exact Text.hex_digit_ne_hyphen d hd.symm

/-- The written form is split into the groups. -/
theorem split_chars (u : Uuid) :
    Text.splitAt '-' u.chars = groups groupLengths (hexDigits u.value 32) :=
  Text.split_at_intercalate (by simp [groups, groupLengths]) fun _ => hyphen_not_mem_group

/-- The five groups are read as the identifier. -/
theorem read_groups_chars (u : Uuid) : readGroups? u.chars = some u := by
  have hlengths := length_groups groupLengths (hexDigits u.value 32)
    (by rw [length_hex_digits]; decide)
  have hdigits : (hexDigits u.value 32).all (fun c => (Text.hexValue? c).isSome) = true := by
    rw [List.all_eq_true]
    intro c hc
    obtain ⟨d, rfl⟩ := mem_hex_digits hc
    rw [Text.hex_value_hex_digit]
    rfl
  have hvalue : ofNat (hexNumber (hexDigits u.value 32)) = u := by
    refine value_injective ?_
    rw [hex_number_hex_digits]
    have hlt := u.value_lt
    have hpow : Nat.pow 2 128 = 16 ^ 32 := by decide
    rw [hpow] at hlt
    rw [Nat.mod_eq_of_lt hlt]
    exact Nat.mod_eq_of_lt u.value_lt
  simp only [readGroups?, split_chars, groups_flatten, hlengths, hdigits, and_self, if_true, hvalue]

/-- The written form holds a hyphen, so it is not a number of 32 digits. -/
theorem chars_not_all_digits (u : Uuid) :
    ¬(u.chars.length = 32 ∧ u.chars.all (fun c => (Text.hexValue? c).isSome) = true) := by
  rintro ⟨-, hall⟩
  have hmem : '-' ∈ u.chars := by
    refine Decidable.byContradiction fun hnone => ?_
    have hsplit := u.split_chars
    rw [Text.split_at_of_not_mem hnone] at hsplit
    have hcount := congrArg List.length hsplit
    simp [groups, groupLengths] at hcount
  have hdigit := List.all_eq_true.mp hall '-' hmem
  simp [Text.hexValue?] at hdigit

/-- An identifier is read as it is written. -/
theorem read_chars (u : Uuid) : read u.chars = .ok u := by
  rw [read, readForm?, if_neg u.chars_not_all_digits, read_groups_chars]

theorem read_text (u : Uuid) : read u.text.toList = .ok u := by
  rw [text, String.toList_ofList, read_chars]

/-- No two identifiers are written alike. -/
theorem text_injective {a b : Uuid} (h : a.text = b.text) : a = b := by
  have hread := read_text a
  rw [h, read_text b] at hread
  exact (Except.ok.inj hread).symm

end CustomerDedupe.Uuid
