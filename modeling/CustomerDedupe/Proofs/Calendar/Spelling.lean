import CustomerDedupe.Calendar.Reading
import CustomerDedupe.Proofs.Text.Numeral

/-!
# Instants are read as they are written

Each part of a written instant is a numeral of a fixed width and a mark after it. A reader takes
such a part from the front of a text and leaves the rest, so that the readers of a timestamp, one
after another, find the numbers that were written (`read_strict_chars`). Years are written with
four digits only as far as these reach.
-/

namespace CustomerDedupe.Calendar

namespace Reader

variable {α β : Type} {s rest : List Char} {n : Nat}

/-- A reader goes on with what the one before it has left. -/
theorem bind_ok {r : Reader α} {f : α → Reader β} {a : α} (h : r s = .ok (a, rest)) :
    (r >>= f) s = f a rest := by
  show Except.bind (r s) _ = _
  rw [h]
  rfl

/-- A reader that fails ends a sequence of readers. -/
theorem bind_error {r : Reader α} {f : α → Reader β} {e : ReadProblem} (h : r s = .error e) :
    (r >>= f) s = .error e := by
  show Except.bind (r s) _ = _
  rw [h]
  rfl

/-- Readers of a whole text go on in the same way. -/
theorem whole_bind {r : Reader α} {f : α → Reader β} {a : α} (h : r s = .ok (a, rest)) :
    (r >>= f).whole s = (f a).whole rest := by
  unfold whole
  rw [bind_ok h]

/-- What is made of the result of a reader does not matter to whether it reads the whole text. -/
theorem whole_map (r : Reader α) (f : α → β) (s : List Char) :
    (r >>= fun a => pure (f a)).whole s = r.whole s >>= fun a => pure (f a) := by
  unfold whole
  cases h : r s with
  | error e =>
      rw [bind_error h]
      rfl
  | ok x =>
      obtain ⟨a, left⟩ := x
      rw [bind_ok h]
      cases left <;> rfl

theorem get_ok (s : List Char) : (get : Reader (List Char)) s = .ok (s, s) :=
  rfl

theorem set_ok (s rest : List Char) : (set rest : Reader PUnit) s = .ok (⟨⟩, rest) :=
  rfl

theorem char_ok (c : Char) (rest : List Char) : char c (c :: rest) = .ok ((), rest) := by
  unfold char
  rw [bind_ok (get_ok _)]
  simp only [if_true]
  exact set_ok _ _

/-- A character takes up at least a byte. -/
theorem length_le_byte_length (s : List Char) : s.length ≤ byteLength s := by
  unfold byteLength
  induction s with
  | nil => exact Nat.le_refl 0
  | cons c s ih =>
      rw [List.length_cons, List.map_cons, Number.total_cons]
      have hpos : 0 < c.utf8Size := c.utf8Size_pos
      omega

/-- A text does not go on with a digit. -/
def NoDigit (s : List Char) : Prop :=
  ∀ c, s.head? = some c → c.isDigit = false

theorem take_while_digits {ds : List Char} {most : Nat} (hdigits : ∀ c ∈ ds, c.isDigit = true)
    (hmost : ds.length ≤ most) (hrest : ds.length = most ∨ NoDigit rest) :
    ((ds ++ rest).take most).takeWhile Char.isDigit = ds := by
  have hnone : (rest.take (most - ds.length)).takeWhile Char.isDigit = [] := by
    rcases hrest with rfl | hrest
    · simp
    · cases rest with
      | nil => simp
      | cons c rest =>
          have hc : c.isDigit = false := hrest c rfl
          cases most - ds.length <;> simp [hc]
  rw [List.take_append, List.take_of_length_le hmost, List.takeWhile_append_of_pos hdigits, hnone,
    List.append_nil]

/-- Digits are read as their number, if they are not followed by another digit that might belong
to it. -/
theorem number_digits_ok {ds : List Char} {least most : Nat} (hdigits : ∀ c ∈ ds, c.isDigit = true)
    (hleast : least ≤ ds.length) (hmost : ds.length ≤ most)
    (hsmall : Text.digitsValue ds < Nat.pow 2 63) (hrest : ds.length = most ∨ NoDigit rest) :
    number least most (ds ++ rest) = .ok (Text.digitsValue ds, rest) := by
  have hbytes := length_le_byte_length (ds ++ rest)
  rw [List.length_append] at hbytes
  unfold number
  rw [bind_ok (get_ok _)]
  simp only [take_while_digits hdigits hmost hrest]
  rw [if_neg (by omega), if_neg (by omega), if_neg (Nat.not_le.mpr hsmall), List.drop_left]
  rfl

/-- A numeral of a fixed width is read as its number. -/
theorem number_ok {least most width : Nat} (hleast : least ≤ width) (hmost : width ≤ most)
    (hpos : 0 < width) (hn : n < 10 ^ width) (hsmall : n < Nat.pow 2 63)
    (hrest : width = most ∨ NoDigit rest) :
    number least most (Text.padNat width n ++ rest) = .ok (n, rest) := by
  have hwidth := Text.length_pad_nat hpos hn
  have hvalue := Text.digits_value_pad_nat width n
  have hok : number least most (Text.padNat width n ++ rest) =
      .ok (Text.digitsValue (Text.padNat width n), rest) :=
    number_digits_ok (fun c hc => Text.is_digit_of_mem_pad_nat hc) (by rwa [hwidth])
      (by rwa [hwidth]) (by rwa [hvalue]) (by rwa [hwidth])
  rwa [hvalue] at hok

/-- Two digits. -/
theorem two_digits_ok (hn : n < 100) (rest : List Char) :
    number 2 2 (Text.padNat 2 n ++ rest) = .ok (n, rest) :=
  number_ok (by decide) (by decide) (by decide) hn (Nat.lt_trans hn (by decide)) (.inl rfl)

theorem bounded_ok {low high : Nat} {r : Reader Nat} (h : r s = .ok (n, rest)) (hlow : low ≤ n)
    (hhigh : n ≤ high) : bounded low high r s = .ok (n, rest) := by
  unfold bounded
  rw [bind_ok h, if_neg (by omega)]
  rfl

/-- What may follow a time of day. -/
def EndsClock (rest : List Char) : Prop :=
  NoDigit rest ∧ rest.head? ≠ some '.'

/-- How a number of nanoseconds is written as a fraction of a second: not at all, or with a point
and up to nine digits. -/
inductive IsFraction : Nat → List Char → Prop where
  | none : IsFraction 0 []
  | digits {ds : List Char} (hdigits : ∀ c ∈ ds, c.isDigit = true) (hpos : 0 < ds.length)
      (hle : ds.length ≤ 9) : IsFraction (Text.digitsValue ds * 10 ^ (9 - ds.length)) ('.' :: ds)

/-- The digits of a numeral are a fraction. -/
theorem IsFraction.pad_nat {width n : Nat} (hpos : 0 < width) (hle : width ≤ 9)
    (hn : n < 10 ^ width) :
    IsFraction (n * 10 ^ (9 - width)) ('.' :: Text.padNat width n) := by
  have hwidth := Text.length_pad_nat hpos hn
  have hdigits : IsFraction (Text.digitsValue (Text.padNat width n) *
      10 ^ (9 - (Text.padNat width n).length)) ('.' :: Text.padNat width n) :=
    .digits (fun c hc => Text.is_digit_of_mem_pad_nat hc) (by rwa [hwidth]) (by rwa [hwidth])
  rwa [Text.digits_value_pad_nat, hwidth] at hdigits

/-- The fraction with as many digits as are exact is one. -/
theorem is_fraction_text (hn : n < 1000000000) : IsFraction n (Instant.fractionText n) := by
  unfold Instant.fractionText
  split
  next hzero =>
    rw [hzero]
    exact .none
  next =>
    split
    next hmillis =>
      have hdigits : IsFraction (n / 1000000 * 10 ^ (9 - 3))
          ('.' :: Text.padNat 3 (n / 1000000)) :=
        .pad_nat (by decide) (by decide) (by omega)
      rwa [show n / 1000000 * 10 ^ (9 - 3) = n by omega] at hdigits
    next =>
      split
      next hmicros =>
        have hdigits : IsFraction (n / 1000 * 10 ^ (9 - 6)) ('.' :: Text.padNat 6 (n / 1000)) :=
          .pad_nat (by decide) (by decide) (by omega)
        rwa [show n / 1000 * 10 ^ (9 - 6) = n by omega] at hdigits
      next =>
        have hdigits : IsFraction (n * 10 ^ (9 - 9)) ('.' :: Text.padNat 9 n) :=
          .pad_nat (by decide) (by decide) hn
        rwa [Nat.sub_self, Nat.pow_zero, Nat.mul_one] at hdigits

/-- A fraction of a second is read as its nanoseconds. -/
theorem fraction_ok {fraction : List Char} (h : IsFraction n fraction) (hrest : EndsClock rest) :
    Reader.fraction (fraction ++ rest) = .ok (n, rest) := by
  unfold Reader.fraction
  cases h with
  | none =>
      rw [List.nil_append, bind_ok (get_ok _)]
      split
      next rest => exact absurd rfl hrest.2
      next => rfl
  | @digits ds hdigits hpos hle =>
      have hsmall : Text.digitsValue ds < Nat.pow 2 63 :=
        calc Text.digitsValue ds
          _ < 10 ^ ds.length := Text.digits_value_lt hdigits
          _ ≤ 10 ^ 9 := Nat.pow_le_pow_right (by decide) hle
          _ ≤ Nat.pow 2 63 := by decide
      have hnumber : number 1 9 (ds ++ rest) = .ok (Text.digitsValue ds, rest) :=
        number_digits_ok hdigits hpos hle hsmall (.inr hrest.1)
      have hdrop : rest.dropWhile Char.isDigit = rest := by
        cases rest with
        | nil => rfl
        | cons c rest => simp [hrest.1 c rfl]
      have hwidth : (ds ++ rest).length - rest.length = ds.length := by
        rw [List.length_append, Nat.add_sub_cancel]
      rw [List.cons_append, bind_ok (get_ok _)]
      simp only
      rw [bind_ok (set_ok _ _), bind_ok hnumber, bind_ok (get_ok _)]
      simp only [hwidth]
      rw [bind_ok (get_ok _), hdrop, bind_ok (set_ok _ _)]
      rfl

end Reader

/-- A year that is written with four digits. -/
def FourDigits (year : Int) : Prop :=
  0 ≤ year ∧ year ≤ 9999

theorem FourDigits.to_nat_lt {year : Int} (h : FourDigits year) : year.toNat < 10 ^ 4 := by
  have hle := h.2
  omega

/-- How a date with a year of four digits is written. -/
theorem Date.chars_eq (d : Date) (hyear : FourDigits d.year) :
    d.chars = Text.padNat 4 d.year.toNat ++
      '-' :: (Text.padNat 2 d.month ++ '-' :: Text.padNat 2 d.day) := by
  rw [chars, yearText, if_pos (show 0 ≤ d.year ∧ d.year ≤ 9999 from hyear), List.append_assoc,
    List.cons_append]

/-- The numbers of a date. -/
def Date.fields (d : Date) : DateFields :=
  ⟨d.year, d.month, d.day⟩

/-- The numbers of an instant's time of day. -/
def Instant.clock (t : Instant) : ClockFields :=
  ⟨t.second / 3600, t.second / 60 % 60, t.second % 60 + t.nano / 1000000000,
    t.nano % 1000000000⟩

open Reader in
/-- A date is read as its numbers. -/
theorem strict_date_ok (d : Date) (hyear : FourDigits d.year) (rest : List Char) :
    strictDate (d.chars ++ rest) = .ok (d.fields, rest) := by
  have hmonth := d.month_le
  have hday := d.day_le_31
  have hdigits : number 4 4 (Text.padNat 4 d.year.toNat ++
      '-' :: (Text.padNat 2 d.month ++ '-' :: (Text.padNat 2 d.day ++ rest))) =
      .ok (d.year.toNat, '-' :: (Text.padNat 2 d.month ++ '-' :: (Text.padNat 2 d.day ++ rest))) :=
    number_ok (by decide) (by decide) (by decide) hyear.to_nat_lt
      (Nat.lt_trans hyear.to_nat_lt (by decide)) (.inl rfl)
  have hchars : d.chars ++ rest = Text.padNat 4 d.year.toNat ++
      '-' :: (Text.padNat 2 d.month ++ '-' :: (Text.padNat 2 d.day ++ rest)) := by
    rw [d.chars_eq hyear]
    simp only [List.append_assoc, List.cons_append]
  unfold strictDate
  rw [hchars, bind_ok hdigits, bind_ok (char_ok _ _),
    bind_ok (bounded_ok (two_digits_ok (by omega) _) d.month_pos hmonth), bind_ok (char_ok _ _),
    bind_ok (bounded_ok (two_digits_ok (by omega) _) d.day_pos hday)]
  have hnat : ((d.year.toNat : Nat) : Int) = d.year := Int.toNat_of_nonneg hyear.1
  rw [hnat]
  rfl

/-- An instant's time of day, written with a fraction of a second. -/
def Instant.clockChars (t : Instant) (fraction : List Char) : List Char :=
  t.clockText ++ ':' :: (Text.padNat 2 (t.second % 60 + t.nano / 1000000000) ++ fraction)

/-- The parts of a written time of day. -/
theorem Instant.clock_chars_append (t : Instant) (fraction rest : List Char) :
    t.clockChars fraction ++ rest = Text.padNat 2 t.clock.hour ++ ':' ::
      (Text.padNat 2 t.clock.minute ++ ':' ::
        (Text.padNat 2 t.clock.second ++ (fraction ++ rest))) := by
  simp only [clockChars, clockText, clock, List.append_assoc, List.cons_append]

/-- The numbers of a time of day are within their bounds. -/
theorem Instant.clock_le (t : Instant) :
    t.clock.hour ≤ 23 ∧ t.clock.minute ≤ 59 ∧ t.clock.second ≤ 60 := by
  have hsecond := t.second_lt
  have hnano := t.nano_lt
  have hleap := t.leap_last
  simp only [clock]
  omega

open Reader in
/-- A time of day is read as its numbers. -/
theorem strict_clock_ok (t : Instant) {fraction rest : List Char}
    (hfraction : IsFraction t.clock.nano fraction) (hrest : EndsClock rest) :
    strictClock (t.clockChars fraction ++ rest) = .ok (t.clock, rest) := by
  obtain ⟨hhour, hminute, hsecond⟩ := t.clock_le
  unfold strictClock
  rw [t.clock_chars_append, bind_ok (bounded_ok (two_digits_ok (by omega) _) (Nat.zero_le _) hhour),
    bind_ok (char_ok _ _),
    bind_ok (bounded_ok (two_digits_ok (by omega) _) (Nat.zero_le _) hminute),
    bind_ok (char_ok _ _),
    bind_ok (bounded_ok (two_digits_ok (by omega) _) (Nat.zero_le _) hsecond),
    bind_ok (fraction_ok hfraction hrest)]
  rfl

/-- The numbers of a date make up the date. -/
theorem Date.of_fields (d : Date) : Date.of? d.year d.month d.day = some d := by
  rw [Date.of?, dif_pos ⟨⟨d.month_pos, d.month_le⟩, d.day_pos, d.day_le⟩]

theorem Date.to_date_fields (d : Date) (hyear : yearInRange d.year = true) :
    d.fields.toDate = .ok d := by
  simp only [DateFields.toDate, Date.fields, hyear, d.of_fields, if_true]

/-- An instant of universal time is what it is. -/
theorem of_local_here (t : Instant) : Instant.ofLocal t.date t.second t.nano 0 t.second_lt
    t.nano_lt t.leap_last (by decide) = t := by
  have hsecond := t.second_lt
  obtain ⟨date, second, nano, h1, h2, h3⟩ := t
  simp only [Instant.ofLocal]
  rw [dif_neg (by omega), dif_neg (by simp only at hsecond; omega)]
  simp only [Instant.mk.injEq, true_and, and_true]
  omega

/-- The numbers of a local time make up the instant of the local time. -/
theorem instant_of_local (shown : Instant) (hyear : yearInRange shown.date.year = true)
    {ahead : Int} (ha : -1440 < ahead ∧ ahead < 1440) {t : Instant}
    (ht : Instant.ofLocal shown.date shown.second shown.nano ahead shown.second_lt shown.nano_lt
      shown.leap_last ha = t) (hrange : yearInRange t.date.year = true) :
    instantOf shown.date.fields shown.clock ahead = .ok t := by
  have hsecond := shown.second_lt
  have hnano := shown.nano_lt
  have hleap := shown.leap_last
  -- a leap second is written as the sixtieth and held as one that goes on
  have hclock : (shown.clock.hour * 60 + shown.clock.minute) * 60 +
        (if shown.clock.second = 60 then 59 else shown.clock.second) = shown.second ∧
      shown.clock.nano + (if shown.clock.second = 60 then 1000000000 else 0) = shown.nano := by
    have hhours : shown.clock.hour = shown.second / 3600 := rfl
    have hminutes : shown.clock.minute = shown.second / 60 % 60 := rfl
    have hseconds : shown.clock.second = shown.second % 60 + shown.nano / 1000000000 := rfl
    have hnanos : shown.clock.nano = shown.nano % 1000000000 := rfl
    by_cases hsixty : shown.clock.second = 60
    · rw [if_pos hsixty, if_pos hsixty]
      omega
    · rw [if_neg hsixty, if_neg hsixty]
      omega
  unfold instantOf
  rw [shown.date.to_date_fields hyear]
  simp only [bind, Except.bind, hclock]
  rw [dif_pos ⟨hsecond, hnano, hleap, ha⟩]
  simp only [ht, hrange, if_true]

/-- The numbers of an instant make up the instant. -/
theorem instant_of_clock (t : Instant) (hyear : yearInRange t.date.year = true) :
    instantOf t.date.fields t.clock 0 = .ok t :=
  instant_of_local t hyear (by decide) (of_local_here t) hyear

theorem FourDigits.in_range {year : Int} (h : FourDigits year) : yearInRange year = true := by
  obtain ⟨hlow, hhigh⟩ := h
  simp only [yearInRange, Bool.and_eq_true, decide_eq_true_eq]
  omega

namespace Reader

theorem ends_clock_nil : EndsClock [] :=
  ⟨nofun, nofun⟩

theorem ends_clock_cons {c : Char} (hdigit : c.isDigit = false) (hpoint : c ≠ '.')
    (rest : List Char) : EndsClock (c :: rest) := by
  refine ⟨?_, fun h => hpoint (Option.some.inj h)⟩
  rintro d h
  obtain rfl := Option.some.inj h
  exact hdigit

theorem separator_ok {c : Char} (hc : c = 'T' ∨ c = ' ') (rest : List Char) :
    separator (c :: rest) = .ok ((), rest) := by
  rcases hc with rfl | rfl <;> rfl

end Reader

/-- A date and a time of day. -/
def Instant.bareChars (t : Instant) (separator : Char) (fraction : List Char) : List Char :=
  t.date.chars ++ separator :: t.clockChars fraction

open Reader in
/-- After a date and a time of day, a full timestamp depends on what its distance from universal
time is read as. -/
theorem read_strict_eq (t : Instant) (hyear : FourDigits t.date.year) {separator : Char}
    {fraction rest : List Char} (hseparator : separator = 'T' ∨ separator = ' ')
    (hfraction : IsFraction t.clock.nano fraction) (hends : EndsClock rest) :
    Instant.readStrict (t.bareChars separator fraction ++ rest) =
      zone.whole rest >>= instantOf t.date.fields t.clock := by
  unfold Instant.readStrict Instant.bareChars
  simp only [List.append_assoc, List.cons_append]
  rw [whole_bind (strict_date_ok t.date hyear _), whole_bind (separator_ok hseparator _),
    whole_bind (strict_clock_ok t hfraction hends), whole_map, bind_assoc]
  rfl

open Reader in
/-- An instant is read as it is written. -/
theorem read_strict_chars (t : Instant) (hyear : FourDigits t.date.year) :
    Instant.readStrict t.chars = .ok t := by
  have hfraction : IsFraction t.clock.nano (Instant.fractionText t.clock.nano) :=
    is_fraction_text (Nat.mod_lt _ (by decide))
  have hchars : t.chars = t.bareChars 'T' (Instant.fractionText t.clock.nano) ++ ['Z'] := by
    simp only [Instant.chars, Instant.bareChars, Instant.clockChars, Instant.secondText,
      Instant.clock, List.append_assoc, List.cons_append]
  rw [hchars, read_strict_eq t hyear (.inl rfl) hfraction
    (ends_clock_cons (by decide) (by decide) [])]
  exact instant_of_clock t hyear.in_range

/-- So it is in a column. -/
theorem read_column_chars (t : Instant) (hyear : FourDigits t.date.year) :
    Instant.readColumn? t.chars = some t := by
  rw [Instant.readColumn?, read_strict_chars t hyear]
  rfl

end CustomerDedupe.Calendar
