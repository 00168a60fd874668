import CustomerDedupe.Proofs.Calendar.Spelling
import CustomerDedupe.Proofs.Text.Blank

/-!
# Dates are read as they are written

A date column takes the first ten bytes of its text, and a written date with a year of four digits
has just as many. Its numbers may be short and follow white space there, which a written date makes
no use of, so that it is read as what it is (`read_column_chars`).
-/

namespace CustomerDedupe.Calendar

namespace Reader

/-- A numeral begins with a digit. -/
theorem pad_nat_cons {width n : Nat} (hpos : 0 < width) (hn : n < 10 ^ width) :
    ∃ c ds, c.isDigit = true ∧ Text.padNat width n = c :: ds := by
  have hlength := Text.length_pad_nat hpos hn
  obtain ⟨c, ds, hcons⟩ := List.exists_cons_of_length_pos (by rw [hlength]; exact hpos)
  exact ⟨c, ds, Text.is_digit_of_mem_pad_nat (hcons ▸ List.mem_cons_self), hcons⟩

/-- There is no white space before a numeral. -/
theorem blanks_ok {width n : Nat} (hpos : 0 < width) (hn : n < 10 ^ width) (rest : List Char) :
    blanks (Text.padNat width n ++ rest) = .ok ((), Text.padNat width n ++ rest) := by
  obtain ⟨c, ds, hc, hcons⟩ := pad_nat_cons hpos hn
  unfold blanks
  rw [bind_ok (get_ok _), hcons, List.cons_append,
    List.dropWhile_cons_of_neg (by rw [Text.digit_not_blank hc]; exact Bool.false_ne_true)]
  rfl

/-- Two digits that need not be two. -/
theorem loose_ok {low high n : Nat} (hn : n < 100) (hlow : low ≤ n) (hhigh : n ≤ high)
    (rest : List Char) : loose low high (Text.padNat 2 n ++ rest) = .ok (n, rest) := by
  have hnumber : number 1 2 (Text.padNat 2 n ++ rest) = .ok (n, rest) :=
    number_ok (by decide) (by decide) (by decide) hn (Nat.lt_trans hn (by decide)) (.inl rfl)
  unfold loose
  rw [bind_ok (blanks_ok (by decide) hn rest)]
  exact bounded_ok hnumber hlow hhigh

/-- A year of four digits that need not be four. -/
theorem signed_year_ok {n : Nat} (hn : n < 10 ^ 4) (rest : List Char) :
    signedYear (Text.padNat 4 n ++ rest) = .ok ((n : Int), rest) := by
  have hnumber : number 1 4 (Text.padNat 4 n ++ rest) = .ok (n, rest) :=
    number_ok (by decide) (by decide) (by decide) hn (Nat.lt_trans hn (by decide)) (.inl rfl)
  obtain ⟨c, ds, hc, hcons⟩ := pad_nat_cons (by decide) hn
  have hsign : ∀ {d : Char}, d.isDigit = false → ∀ tail, c :: (ds ++ rest) ≠ d :: tail := by
    rintro d hd tail heq
    obtain rfl := (List.cons.inj heq).1
    rw [hc] at hd
    cases hd
  have hrange : ¬((n : Int) < -2147483648 ∨ (2147483647 : Int) < n) := by omega
  unfold signedYear
  rw [bind_ok (blanks_ok (by decide) hn rest), bind_ok (get_ok _)]
  generalize hs : Text.padNat 4 n ++ rest = s at hnumber ⊢
  rw [hcons, List.cons_append] at hs
  split
  next => exact absurd hs (hsign (by decide) _)
  next => exact absurd hs (hsign (by decide) _)
  next =>
    rw [bind_ok hnumber]
    show (if (n : Int) < -2147483648 ∨ (2147483647 : Int) < n then _ else pure (n : Int) :
      Reader Int) rest = _
    rw [if_neg hrange]
    rfl

/-- A date is read as its numbers. -/
theorem loose_date_ok (d : Date) (hyear : FourDigits d.year) (rest : List Char) :
    looseDate (d.chars ++ rest) = .ok (d.fields, rest) := by
  have hmonth := d.month_le
  have hday := d.day_le_31
  have hchars : d.chars ++ rest = Text.padNat 4 d.year.toNat ++
      '-' :: (Text.padNat 2 d.month ++ '-' :: (Text.padNat 2 d.day ++ rest)) := by
    rw [d.chars_eq hyear]
    simp only [List.append_assoc, List.cons_append]
  unfold looseDate
  rw [hchars, bind_ok (signed_year_ok hyear.to_nat_lt _), bind_ok (char_ok _ _),
    bind_ok (loose_ok (by omega) d.month_pos hmonth _), bind_ok (char_ok _ _),
    bind_ok (loose_ok (by omega) d.day_pos hday _)]
  have hnat : ((d.year.toNat : Nat) : Int) = d.year := Int.toNat_of_nonneg hyear.1
  rw [hnat]
  rfl

end Reader

/-- Characters that are bytes are taken as far as there is room for them. -/
theorem date_part_of_bytes (whole : List Char) {s : List Char}
    (hbytes : ∀ c ∈ s, c.utf8Size = 1) (taken : List Char) :
    datePart.go whole s.length taken s = taken.reverse ++ s := by
  induction s generalizing taken with
  | nil => simp [datePart.go]
  | cons c s ih =>
      have hc : c.utf8Size = 1 := hbytes c List.mem_cons_self
      rw [List.length_cons, datePart.go, if_pos (by omega), hc, Nat.add_sub_cancel,
        ih fun d hd => hbytes d (List.mem_cons_of_mem _ hd)]
      simp

/-- A digit is a byte. -/
theorem utf8_size_digit {c : Char} (hc : c.isDigit = true) : c.utf8Size = 1 := by
  simp only [Char.isDigit, Bool.and_eq_true, decide_eq_true_eq] at hc
  have hle : c.val ≤ 0x7f := UInt32.le_trans hc.2 (by decide)
  simp [Char.utf8Size, hle]

/-- A written date consists of digits and hyphens. -/
theorem Date.mem_chars {d : Date} (hyear : FourDigits d.year) {c : Char} (hc : c ∈ d.chars) :
    c.isDigit = true ∨ c = '-' := by
  rw [d.chars_eq hyear] at hc
  simp only [List.mem_append, List.mem_cons] at hc
  rcases hc with hc | rfl | hc | rfl | hc
  · exact .inl (Text.is_digit_of_mem_pad_nat hc)
  · exact .inr rfl
  · exact .inl (Text.is_digit_of_mem_pad_nat hc)
  · exact .inr rfl
  · exact .inl (Text.is_digit_of_mem_pad_nat hc)

theorem Date.length_chars {d : Date} (hyear : FourDigits d.year) : d.chars.length = 10 := by
  have hmonth := d.month_le
  have hday := d.day_le_31
  rw [d.chars_eq hyear]
  simp only [List.length_append, List.length_cons,
    Text.length_pad_nat (by decide : 0 < 4) hyear.to_nat_lt,
    Text.length_pad_nat (by decide : 0 < 2) (show d.month < 10 ^ 2 by omega),
    Text.length_pad_nat (by decide : 0 < 2) (show d.day < 10 ^ 2 by omega)]

/-- A date is read as it is written. -/
theorem Date.read_chars (d : Date) (hyear : FourDigits d.year) : Date.read d.chars = .ok d := by
  have hfields := Reader.loose_date_ok d hyear []
  rw [List.append_nil] at hfields
  unfold Date.read Reader.whole
  rw [hfields]
  exact d.to_date_fields hyear.in_range

/-- So it is in a column. -/
theorem Date.read_column_chars (d : Date) (hyear : FourDigits d.year) :
    Date.readColumn d.chars = .ok d := by
  have hbytes : ∀ c ∈ d.chars, c.utf8Size = 1 := by
    intro c hc
    rcases d.mem_chars hyear hc with hc | rfl
    · exact utf8_size_digit hc
    · decide
  have hpart : datePart d.chars = d.chars := by
    have hgo := date_part_of_bytes d.chars hbytes []
    rwa [d.length_chars hyear] at hgo
  rw [Date.readColumn, hpart]
  exact d.read_chars hyear

end CustomerDedupe.Calendar
