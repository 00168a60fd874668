import Mathlib.Logic.ExistsUnique
import CustomerDedupe.Calendar.Instant
import CustomerDedupe.Number.Total

/-!
# Days and seconds counted through

`Date.dayNumber` counts the days of the calendar from the end of the year 0, by the number of days
and leap days in the years and months before. The day after has the next number and the day before
the last one, so that a clock that is ahead of universal time can be put in terms of seconds
counted through (`ofLocal_seconds`). Each instant has exactly one local form for every distance of
less than a day (`exists_unique_local_form`).
-/

namespace CustomerDedupe.Calendar

/-- The number of days from the end of the year 0 to the beginning of a year. -/
def daysBeforeYear (year : Int) : Int :=
  365 * (year - 1) + (year - 1) / 4 - (year - 1) / 100 + (year - 1) / 400

/-- The number of days from the beginning of a year to the beginning of a month. -/
def daysBeforeMonth (year : Int) (month : Nat) : Nat :=
  Number.total ((List.range (month - 1)).map fun m => monthLength year (m + 1))

/-- The number of days of a year. -/
def yearLength (year : Int) : Nat :=
  if isLeapYear year then 366 else 365

theorem days_before_next_year (year : Int) :
    daysBeforeYear (year + 1) = daysBeforeYear year + yearLength year := by
  have hleap : isLeapYear year = true ↔ year % 4 = 0 ∧ (year % 100 ≠ 0 ∨ year % 400 = 0) := by
    simp [isLeapYear]
  unfold daysBeforeYear yearLength
  by_cases h : isLeapYear year = true
  · rw [if_pos h]
    rw [hleap] at h
    omega
  · rw [if_neg h]
    rw [hleap] at h
    omega

theorem days_before_year_le {year later : Int} (h : year < later) :
    daysBeforeYear year + yearLength year ≤ daysBeforeYear later := by
  rw [← days_before_next_year]
  unfold daysBeforeYear
  omega

theorem days_before_next_month (year : Int) {month : Nat} (h : 1 ≤ month) :
    daysBeforeMonth year (month + 1) = daysBeforeMonth year month + monthLength year month := by
  obtain ⟨m, rfl⟩ := Nat.exists_eq_add_of_le' h
  simp only [daysBeforeMonth, Nat.add_sub_cancel, List.range_succ, List.map_append, List.map_cons,
    List.map_nil, Number.total_append, Number.total_cons, Number.total_nil, Nat.add_zero]

theorem days_before_month_le (year : Int) {month later : Nat} (h : 1 ≤ month)
    (hlater : month < later) :
    daysBeforeMonth year month + monthLength year month ≤ daysBeforeMonth year later := by
  rw [← days_before_next_month year h]
  induction hlater with
  | refl => exact Nat.le_refl _
  | step hle ih =>
      rw [days_before_next_month year (Nat.le_trans h (Nat.le_of_succ_le hle))]
      exact Nat.le_trans ih (Nat.le_add_right _ _)

/-- The months make up the year. -/
theorem days_before_month_thirteen (year : Int) : daysBeforeMonth year 13 = yearLength year := by
  cases h : isLeapYear year <;>
    simp [daysBeforeMonth, yearLength, monthLength, List.range_succ, h]

namespace Date

/-- The number of a day, counted from the end of the year 0. -/
def dayNumber (d : Date) : Int :=
  daysBeforeYear d.year + daysBeforeMonth d.year d.month + d.day

example : (newYear 1970).dayNumber = 719163 := by decide

/-- The days of a year are numbered within the year. -/
theorem day_number_le (d : Date) : d.dayNumber ≤ daysBeforeYear d.year + yearLength d.year := by
  have hday := d.day_le
  have hmonth := days_before_month_le d.year d.month_pos (Nat.lt_succ_of_le d.month_le)
  rw [days_before_month_thirteen] at hmonth
  unfold dayNumber
  omega

theorem lt_day_number (d : Date) : daysBeforeYear d.year < d.dayNumber := by
  have hday := d.day_pos
  unfold dayNumber
  omega

/-- Days of an earlier year have smaller numbers. -/
theorem day_number_lt_of_year {a b : Date} (h : a.year < b.year) : a.dayNumber < b.dayNumber :=
  calc a.dayNumber
    _ ≤ daysBeforeYear a.year + yearLength a.year := a.day_number_le
    _ ≤ daysBeforeYear b.year := days_before_year_le h
    _ < b.dayNumber := b.lt_day_number

/-- Within a year, days of an earlier month have smaller numbers. -/
theorem day_number_lt_of_month {a b : Date} (hyear : a.year = b.year) (h : a.month < b.month) :
    a.dayNumber < b.dayNumber := by
  have hle := days_before_month_le b.year a.month_pos h
  have ha := a.day_le
  have hb := b.day_pos
  unfold dayNumber
  rw [hyear] at ha ⊢
  omega

/-- No two days have one number. -/
theorem day_number_injective {a b : Date} (h : a.dayNumber = b.dayNumber) : a = b := by
  have hyear : a.year = b.year := by
    rcases Int.lt_trichotomy a.year b.year with hlt | heq | hgt
    · exact absurd h (Int.ne_of_lt (day_number_lt_of_year hlt))
    · exact heq
    · exact absurd h.symm (Int.ne_of_lt (day_number_lt_of_year hgt))
  have hmonth : a.month = b.month := by
    rcases Nat.lt_trichotomy a.month b.month with hlt | heq | hgt
    · exact absurd h (Int.ne_of_lt (day_number_lt_of_month hyear hlt))
    · exact heq
    · exact absurd h.symm (Int.ne_of_lt (day_number_lt_of_month hyear.symm hgt))
  have hday : a.day = b.day := by
    unfold dayNumber at h
    rw [hyear, hmonth] at h
    omega
  apply rank_injective
  unfold rank
  rw [hyear, hmonth, hday]

theorem day_number_new_year (year : Int) :
    (newYear year).dayNumber = daysBeforeYear year + 1 := by
  simp [dayNumber, newYear, daysBeforeMonth]

/-- The day after has the next number. -/
theorem day_number_succ (d : Date) : d.succ.dayNumber = d.dayNumber + 1 := by
  unfold succ
  split
  next =>
    simp only [dayNumber]
    omega
  next hday =>
    have hlast : d.day = monthLength d.year d.month := Nat.le_antisymm d.day_le (by omega)
    split
    next =>
      simp only [dayNumber, days_before_next_month d.year d.month_pos, hlast]
      omega
    next hmonth =>
      have hdecember : d.month = 12 := Nat.le_antisymm d.month_le (by omega)
      have hyear := days_before_next_month d.year d.month_pos
      rw [hdecember, days_before_month_thirteen] at hyear
      rw [day_number_new_year, days_before_next_year, dayNumber, hlast, hdecember]
      omega

/-- The day before has the last number. -/
theorem day_number_pred (d : Date) : d.pred.dayNumber = d.dayNumber - 1 := by
  have hpos := d.day_pos
  unfold pred
  split
  next =>
    simp only [dayNumber]
    omega
  next hday =>
    have hfirst : d.day = 1 := Nat.le_antisymm (by omega) d.day_pos
    split
    next hmonth =>
      have hlast := days_before_next_month d.year (Nat.le_sub_one_of_lt hmonth)
      rw [Nat.sub_add_cancel d.month_pos] at hlast
      simp only [dayNumber, hlast, hfirst]
      omega
    next hmonth =>
      have hjanuary : d.month = 1 := Nat.le_antisymm (by omega) d.month_pos
      have hdecember := days_before_next_month (d.year - 1) (by decide : 1 ≤ 12)
      have hyear := days_before_next_year (d.year - 1)
      rw [days_before_month_thirteen] at hdecember
      rw [Int.sub_add_cancel] at hyear
      have hnone : daysBeforeMonth d.year 1 = 0 := rfl
      have hlength : monthLength (d.year - 1) 12 = 31 := rfl
      simp only [dayNumber, hfirst, hjanuary, hyear, hnone]
      omega

end Date

namespace Instant

/-- The seconds of an instant counted through, without leap seconds. -/
def seconds (t : Instant) : Int :=
  t.date.dayNumber * 86400 + t.second

/-- No two instants agree in their seconds and in what goes beyond them. -/
theorem seconds_injective {t u : Instant} (h : t.seconds = u.seconds) (hnano : t.nano = u.nano) :
    t = u := by
  have ht := t.second_lt
  have hu := u.second_lt
  unfold seconds at h
  have hdate : t.date = u.date := Date.day_number_injective (by omega)
  have hsecond : t.second = u.second := by
    rw [hdate] at h
    omega
  apply rank_injective
  unfold rank
  rw [hdate, hsecond, hnano]

/-- What a clock shows that is a number of minutes ahead of universal time. -/
def IsLocalForm (t : Instant) (ahead : Int) (shown : Instant) : Prop :=
  shown.seconds = t.seconds + ahead * 60 ∧ shown.nano = t.nano

section OfLocal

variable {d : Date} {second nano : Nat} {ahead : Int} (hs : second < 86400)
  (hn : nano < 2000000000) (hl : 1000000000 ≤ nano → second % 60 = 59)
  (ha : -1440 < ahead ∧ ahead < 1440)

@[simp] theorem of_local_nano : (ofLocal d second nano ahead hs hn hl ha).nano = nano := by
  unfold ofLocal
  dsimp only
  split
  · rfl
  · split <;> rfl

/-- The instant of a local time lies as many minutes before as its clock is ahead. -/
theorem of_local_seconds :
    (ofLocal d second nano ahead hs hn hl ha).seconds =
      d.dayNumber * 86400 + second - ahead * 60 := by
  unfold ofLocal
  dsimp only
  split
  next =>
    simp only [seconds, Date.day_number_pred]
    omega
  next =>
    split
    next =>
      simp only [seconds, Date.day_number_succ]
      omega
    next =>
      simp only [seconds]
      omega

end OfLocal

/-- The instant of a local form is the instant that it is the form of. -/
theorem of_local_form {t shown : Instant} {ahead : Int} (h : t.IsLocalForm ahead shown)
    (ha : -1440 < ahead ∧ ahead < 1440) :
    ofLocal shown.date shown.second shown.nano ahead shown.second_lt shown.nano_lt shown.leap_last
      ha = t := by
  refine seconds_injective ?_ ((of_local_nano _ _ _ _).trans h.2)
  have hshown : shown.date.dayNumber * 86400 + shown.second = t.seconds + ahead * 60 := h.1
  rw [of_local_seconds, hshown, Int.add_sub_cancel]

/-- Each instant has exactly one local form for every distance of less than a day. -/
theorem exists_unique_local_form (t : Instant) {ahead : Int} (ha : -1440 < ahead ∧ ahead < 1440) :
    ∃! shown, t.IsLocalForm ahead shown := by
  have hback : -1440 < -ahead ∧ -ahead < 1440 := by omega
  refine ⟨ofLocal t.date t.second t.nano (-ahead) t.second_lt t.nano_lt t.leap_last hback,
    ⟨?_, of_local_nano _ _ _ _⟩, fun shown h => ?_⟩
  · rw [of_local_seconds, seconds]
    omega
  · refine seconds_injective ?_ (h.2.trans (of_local_nano _ _ _ _).symm)
    rw [h.1, of_local_seconds, seconds]
    omega

end Instant

end CustomerDedupe.Calendar
