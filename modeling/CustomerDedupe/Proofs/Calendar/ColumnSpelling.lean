import CustomerDedupe.Json.Decode
import CustomerDedupe.Proofs.Calendar.DateSpelling
import CustomerDedupe.Proofs.Calendar.DayNumber

/-!
# The spellings of an instant

A timestamp column holds an instant in one of several forms (`Spells`): with the mark of universal
time, without any mark, as a clock elsewhere shows it with the distance of that clock, or as a bare
date. The readers of these forms are tried one after another, so that each form has to be refused
by the readers before its own. What a text is read as is the instant that it spells
(`read_spelled`).
-/

namespace CustomerDedupe.Calendar

open Reader

/-- How a distance from universal time is written: a sign, hours and minutes. -/
inductive IsOffset : Int → List Char → Prop where
  | ahead {hours minutes : Nat} (hhours : hours ≤ 23) (hminutes : minutes ≤ 59) :
      IsOffset (hours * 60 + minutes)
        ('+' :: (Text.padNat 2 hours ++ ':' :: Text.padNat 2 minutes))
  | behind {hours minutes : Nat} (hhours : hours ≤ 23) (hminutes : minutes ≤ 59) :
      IsOffset (-(hours * 60 + minutes))
        ('-' :: (Text.padNat 2 hours ++ ':' :: Text.padNat 2 minutes))

namespace IsOffset

variable {distance : Int} {zone : List Char}

/-- A distance is less than a day. -/
theorem less_than_day (h : IsOffset distance zone) : -1440 < distance ∧ distance < 1440 := by
  cases h <;> omega

/-- Every distance of less than a day can be written. -/
theorem exists_zone (h : -1440 < distance ∧ distance < 1440) :
    ∃ zone, IsOffset distance zone := by
  have hhours : distance.natAbs / 60 ≤ 23 := by omega
  have hminutes : distance.natAbs % 60 ≤ 59 := by omega
  rcases Int.natAbs_eq distance with heq | heq
  · have hwritten := IsOffset.ahead hhours hminutes
    rw [show ((distance.natAbs / 60 : Nat) : Int) * 60 + (distance.natAbs % 60 : Nat) = distance by
      omega] at hwritten
    exact ⟨_, hwritten⟩
  · have hwritten := IsOffset.behind hhours hminutes
    rw [show -(((distance.natAbs / 60 : Nat) : Int) * 60 + (distance.natAbs % 60 : Nat)) = distance
      by omega] at hwritten
    exact ⟨_, hwritten⟩

theorem ends_clock (h : IsOffset distance zone) : EndsClock zone := by
  cases h <;> exact ends_clock_cons (by decide) (by decide) _

/-- A written distance is read as such. -/
theorem zone_ok (h : IsOffset distance zone) : Reader.zone zone = .ok (distance, []) := by
  have hlast {minutes : Nat} (hminutes : minutes ≤ 59) :
      number 2 2 (Text.padNat 2 minutes) = .ok (minutes, []) := by
    have hok := two_digits_ok (n := minutes) (by omega) []
    rwa [List.append_nil] at hok
  unfold Reader.zone
  rw [bind_ok (get_ok _)]
  cases h with
  | ahead hhours hminutes | behind hhours hminutes =>
      simp only
      rw [if_neg (by decide)]
      unfold offset
      rw [bind_ok (get_ok _)]
      simp only
      rw [bind_ok (set_ok _ _), pure_bind, bind_ok (two_digits_ok (by omega) _),
        bind_ok (char_ok _ _), bind_ok (hlast hminutes), if_neg (by omega)]
      rfl

end IsOffset

/-- A time of day is read as its numbers where these may be short. -/
theorem loose_clock_ok (t : Instant) {fraction rest : List Char}
    (hfraction : IsFraction t.clock.nano fraction) (hrest : EndsClock rest) :
    looseClock (t.clockChars fraction ++ rest) = .ok (t.clock, rest) := by
  obtain ⟨hhour, hminute, hsecond⟩ := t.clock_le
  unfold looseClock
  rw [t.clock_chars_append, bind_ok (loose_ok (by omega) (Nat.zero_le _) hhour _),
    bind_ok (char_ok _ _), bind_ok (loose_ok (by omega) (Nat.zero_le _) hminute _),
    bind_ok (char_ok _ _), bind_ok (loose_ok (by omega) (Nat.zero_le _) hsecond _),
    bind_ok (fraction_ok hfraction hrest)]
  rfl

/-- There is no white space before a time of day. -/
theorem blanks_before_clock (t : Instant) (fraction : List Char) :
    blanks (' ' :: t.clockChars fraction) = .ok ((), t.clockChars fraction) := by
  have hhour := t.clock_le.1
  have hchars := t.clock_chars_append fraction []
  rw [List.append_nil] at hchars
  rw [hchars]
  exact blanks_ok (by decide) (by omega) _

/-- After a date, a timestamp without a mark depends on what follows. -/
theorem read_naive_eq (middle : Reader Unit) (d : Date) (hyear : FourDigits d.year)
    (rest : List Char) :
    Instant.readNaive middle (d.chars ++ rest) =
      (middle >>= fun _ => looseClock).whole rest >>= fun c => instantOf d.fields c 0 := by
  unfold Instant.readNaive
  simp only
  rw [whole_bind (loose_date_ok d hyear rest), ← bind_assoc, whole_map, bind_assoc]
  rfl

/-- A timestamp without a mark is read as universal time. -/
theorem read_naive_ok {t : Instant} (hyear : FourDigits t.date.year) {middle : Reader Unit}
    {separator : Char} {fraction : List Char} (hfraction : IsFraction t.clock.nano fraction)
    (hmiddle : middle (separator :: t.clockChars fraction) = .ok ((), t.clockChars fraction)) :
    Instant.readNaive middle (t.bareChars separator fraction) = .ok t := by
  have hclock := loose_clock_ok t hfraction ends_clock_nil
  rw [List.append_nil] at hclock
  rw [Instant.bareChars, read_naive_eq middle t.date hyear, whole_bind hmiddle, whole, hclock]
  exact instant_of_clock t hyear.in_range

/-- A text that goes on wrongly after a date is no timestamp. -/
theorem read_naive_error (middle : Reader Unit) (d : Date) (hyear : FourDigits d.year)
    {rest : List Char} {e : ReadProblem} (h : (middle >>= fun _ => looseClock) rest = .error e) :
    (Instant.readNaive middle (d.chars ++ rest)).toOption = none := by
  rw [read_naive_eq middle d hyear, whole, h]
  rfl

/-- A timestamp without a mark is no full timestamp. -/
theorem read_strict_unmarked (t : Instant) (hyear : FourDigits t.date.year) {separator : Char}
    {fraction : List Char} (hseparator : separator = 'T' ∨ separator = ' ')
    (hfraction : IsFraction t.clock.nano fraction) :
    (Instant.readStrict (t.bareChars separator fraction)).toOption = none := by
  have heq := read_strict_eq t hyear hseparator hfraction ends_clock_nil
  rw [List.append_nil] at heq
  rw [heq]
  rfl

/-- Nor is a bare date. -/
theorem read_strict_date (d : Date) (hyear : FourDigits d.year) :
    (Instant.readStrict d.chars).toOption = none := by
  have hdate := strict_date_ok d hyear []
  rw [List.append_nil] at hdate
  unfold Instant.readStrict
  simp only
  rw [whole_bind hdate]
  rfl

/-- The text spells the instant in one of the forms that a column may have. -/
inductive Spells : List Char → Instant → Prop where
  | universal {t : Instant} {fraction : List Char} (hyear : FourDigits t.date.year)
      (hfraction : IsFraction t.clock.nano fraction) :
      Spells (t.bareChars 'T' fraction ++ ['Z']) t
  | unmarked {t : Instant} {fraction : List Char} (hyear : FourDigits t.date.year)
      (hfraction : IsFraction t.clock.nano fraction) : Spells (t.bareChars 'T' fraction) t
  | spaced {t : Instant} {fraction : List Char} (hyear : FourDigits t.date.year)
      (hfraction : IsFraction t.clock.nano fraction) : Spells (t.bareChars ' ' fraction) t
  | shown {t shown : Instant} {distance : Int} {fraction zone : List Char}
      (hyear : FourDigits t.date.year) (hform : t.IsLocalForm distance shown)
      (hshown : FourDigits shown.date.year) (hfraction : IsFraction shown.clock.nano fraction)
      (hzone : IsOffset distance zone) : Spells (shown.bareChars 'T' fraction ++ zone) t
  | date {d : Date} (hyear : FourDigits d.year) : Spells d.chars (.midnight d)

/-- What is read of a text is the instant that it spells. -/
theorem read_spelled {s : List Char} {t : Instant} (h : Spells s t) :
    Instant.readColumn? s = some t := by
  unfold Instant.readColumn?
  cases h with
  | universal hyear hfraction =>
      rw [read_strict_eq t hyear (.inl rfl) hfraction (ends_clock_cons (by decide) (by decide) [])]
      have hread : zone.whole ['Z'] >>= instantOf t.date.fields t.clock = .ok t :=
        instant_of_clock t hyear.in_range
      rw [hread]
      rfl
  | unmarked hyear hfraction =>
      -- the full form wants a mark at the end
      rw [read_strict_unmarked t hyear (.inl rfl) hfraction,
        read_naive_ok hyear hfraction (char_ok 'T' _)]
      rfl
  | @spaced _ fraction hyear hfraction =>
      -- the full form takes the space but wants a mark, and the next one wants a letter
      have hother : (Instant.readNaive (char 'T') (t.bareChars ' ' fraction)).toOption = none :=
        read_naive_error _ t.date hyear (bind_error rfl)
      rw [read_strict_unmarked t hyear (.inr rfl) hfraction, hother,
        read_naive_ok hyear hfraction (blanks_before_clock t _)]
      rfl
  | shown hyear hform hshown hfraction hzone =>
      rw [read_strict_eq _ hshown (.inl rfl) hfraction hzone.ends_clock, whole, hzone.zone_ok]
      have hread := instant_of_local _ hshown.in_range hzone.less_than_day
        (Instant.of_local_form hform hzone.less_than_day) hyear.in_range
      simp only [bind, Except.bind, hread]
      rfl
  | @date d hyear =>
      -- all forms with a time of day end before it
      have hnaive {middle : Reader Unit} {e : ReadProblem}
          (herror : (middle >>= fun _ => looseClock) [] = .error e) :
          (Instant.readNaive middle d.chars).toOption = none := by
        have hnone := read_naive_error middle d hyear herror
        rwa [List.append_nil] at hnone
      rw [read_strict_date d hyear, hnaive (e := .tooShort) rfl, hnaive (e := .tooShort) rfl,
        d.read_chars hyear]
      rfl

/-- A text that spells an instant begins with a date. -/
theorem Spells.not_blank {s : List Char} {t : Instant} (h : Spells s t) :
    Text.isBlankText (String.ofList s) = false := by
  have hhyphen : '-' ∈ s := by
    cases h <;> simp [Instant.bareChars, Date.chars]
  rw [Text.isBlankText, String.toList_ofList, List.all_eq_false]
  exact ⟨'-', hhyphen, by decide⟩

/-- A column is read as the instant that its text spells. -/
theorem timestamp_column_spelled {s : List Char} {t : Instant} (h : Spells s t)
    (start stop : Nat) :
    Json.timestampColumn (.str start stop (.ok (String.ofList s))) = .ok (some t) := by
  have hstring : Json.optional Json.string (.str start stop (.ok (String.ofList s))) =
      .ok (some (String.ofList s)) := rfl
  unfold Json.timestampColumn Json.column
  rw [hstring]
  simp only [bind, Except.bind, h.not_blank, String.toList_ofList, read_spelled h]
  rfl

/-- Whatever form an instant is written in, a column is read as that instant, and a blank text as
none. Texts that spell different instants are read differently. There is exactly one form for every
distance of less than a day. -/
theorem column_reads_spellings (start stop : Nat) :
    (∀ s t, Spells s t →
      Json.timestampColumn (.str start stop (.ok (String.ofList s))) = .ok (some t)) ∧
    (∀ s, Text.isBlankText s = true →
      Json.timestampColumn (.str start stop (.ok s)) = .ok none) ∧
    (∀ s s' t u, Spells s t → Spells s' u → t ≠ u →
      Json.timestampColumn (.str start stop (.ok (String.ofList s))) ≠
        Json.timestampColumn (.str start stop (.ok (String.ofList s')))) ∧
    ∀ (t : Instant) (distance : Int), -1440 < distance ∧ distance < 1440 →
      (∃ zone, IsOffset distance zone) ∧ ∃! shown, t.IsLocalForm distance shown := by
  refine ⟨fun s t h => timestamp_column_spelled h start stop, fun s h => ?_, ?_, ?_⟩
  · have hstring : Json.optional Json.string (.str start stop (.ok s)) = .ok (some s) := rfl
    unfold Json.timestampColumn Json.column
    rw [hstring]
    simp only [bind, Except.bind, h]
    rfl
  · intro s s' t u hs hs' hne heq
    rw [timestamp_column_spelled hs, timestamp_column_spelled hs'] at heq
    exact hne (Option.some.inj (Except.ok.inj heq))
  · intro t distance hdistance
    exact ⟨IsOffset.exists_zone hdistance, t.exists_unique_local_form hdistance⟩

/-- Half an hour before the end of a leap day, and half a second. -/
def leapDayEvening : Instant :=
  ⟨⟨2024, 2, 29, by decide, by decide, by decide, by decide⟩, 84600, 500000000, by decide,
    by decide, by decide⟩

/-- What a clock three quarters of an hour ahead shows then. -/
def marchMorning : Instant :=
  { leapDayEvening with
    date := leapDayEvening.date.succ
    second := 900
    second_lt := by decide
    leap_last := by decide }

theorem leap_day_evening_spelled :
    let column (text : String) := Json.timestampColumn (.str 0 0 (.ok text))
    column "2024-02-29T23:30:00.5Z" = .ok (some leapDayEvening) ∧
      column "2024-02-29T23:30:00.50" = .ok (some leapDayEvening) ∧
      column "2024-02-29 23:30:00.500000000" = .ok (some leapDayEvening) ∧
      column "2024-03-01T00:15:00.5+00:45" = .ok (some leapDayEvening) ∧
      column "2024-02-29" = .ok (some (.midnight leapDayEvening.date)) ∧
      column "2024-02-29" ≠ column "2024-02-29T23:30:00.5Z" ∧
      column " " = .ok none := by
  intro column
  obtain ⟨hread, hblank, hdiffer, -⟩ := column_reads_spellings 0 0
  have hyear : FourDigits leapDayEvening.date.year := ⟨by decide, by decide⟩
  have hmarch : FourDigits marchMorning.date.year := ⟨by decide, by decide⟩
  have hhalf (ds : List Char) (hdigits : ∀ c ∈ ds, c.isDigit = true) (hpos : 0 < ds.length)
      (hle : ds.length ≤ 9) (hvalue : Text.digitsValue ds * 10 ^ (9 - ds.length) = 500000000) :
      IsFraction 500000000 ('.' :: ds) :=
    hvalue ▸ .digits hdigits hpos hle
  have hhalfSecond := hhalf ['5'] (by simp) (by decide) (by decide) (by decide)
  have huniversal : Spells "2024-02-29T23:30:00.5Z".toList leapDayEvening :=
    .universal hyear hhalfSecond
  have hunmarked : Spells "2024-02-29T23:30:00.50".toList leapDayEvening :=
    .unmarked hyear (hhalf ['5', '0'] (by simp) (by decide) (by decide) (by decide))
  have hspaced : Spells "2024-02-29 23:30:00.500000000".toList leapDayEvening :=
    .spaced hyear (hhalf ('5' :: List.replicate 8 '0') (by simp) (by decide) (by decide)
      (by decide))
  have hahead : IsOffset 45 "+00:45".toList :=
    .ahead (show 0 ≤ 23 by decide) (show 45 ≤ 59 by decide)
  have hshown : Spells "2024-03-01T00:15:00.5+00:45".toList leapDayEvening :=
    .shown hyear (show leapDayEvening.IsLocalForm 45 marchMorning from ⟨by decide, rfl⟩) hmarch
      hhalfSecond hahead
  have hdate : Spells "2024-02-29".toList (.midnight leapDayEvening.date) := .date hyear
  exact ⟨hread _ _ huniversal, hread _ _ hunmarked, hread _ _ hspaced, hread _ _ hshown,
    hread _ _ hdate, hdiffer _ _ _ _ hdate huniversal (by decide), hblank " " (by decide)⟩

end CustomerDedupe.Calendar
