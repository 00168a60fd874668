import CustomerDedupe.Text.Numeral

/-!
# Calendar dates

Days of the Gregorian calendar, extended to all years. The order of dates is that of their
ranks, which number the days as if every month had 31 of them. `rank_pred_lt` says that the
day before has a smaller rank, and `rank_injective` that no two days share one.
-/

namespace CustomerDedupe.Calendar

/-- Whether a year has a 29th of February. -/
def isLeapYear (year : Int) : Bool :=
  year % 4 == 0 && (year % 100 != 0 || year % 400 == 0)

/-- The number of days of a month. -/
def monthLength (year : Int) (month : Nat) : Nat :=
  if month = 2 then (if isLeapYear year then 29 else 28)
  else if month = 4 ∨ month = 6 ∨ month = 9 ∨ month = 11 then 30
  else 31

/-- A day of the calendar. -/
structure Date where
  year : Int
  month : Nat
  day : Nat
  month_pos : 1 ≤ month
  month_le : month ≤ 12
  day_pos : 1 ≤ day
  day_le : day ≤ monthLength year month
  deriving DecidableEq, Repr

theorem month_length_le (year : Int) (month : Nat) : monthLength year month ≤ 31 := by
  unfold monthLength
  split
  · split <;> omega
  · split <;> omega

theorem month_length_pos (year : Int) (month : Nat) : 1 ≤ monthLength year month := by
  unfold monthLength
  split
  · split <;> omega
  · split <;> omega

namespace Date

/-- The date with these numbers, if the calendar has it. -/
def of? (year : Int) (month day : Nat) : Option Date :=
  if h : (1 ≤ month ∧ month ≤ 12) ∧ (1 ≤ day ∧ day ≤ monthLength year month) then
    some ⟨year, month, day, h.1.1, h.1.2, h.2.1, h.2.2⟩
  else none

/-- The first day of a year. -/
def newYear (year : Int) : Date :=
  ⟨year, 1, 1, by decide, by decide, by decide, month_length_pos year 1⟩

instance : Inhabited Date :=
  ⟨newYear 1970⟩

/-- The day before. -/
def pred (d : Date) : Date :=
  if h : 1 < d.day then
    ⟨d.year, d.month, d.day - 1, d.month_pos, d.month_le, by omega,
      Nat.le_trans (Nat.sub_le _ _) d.day_le⟩
  else if hm : 1 < d.month then
    ⟨d.year, d.month - 1, monthLength d.year (d.month - 1), by omega,
      Nat.le_trans (Nat.sub_le _ _) d.month_le, month_length_pos _ _, Nat.le_refl _⟩
  else
    ⟨d.year - 1, 12, 31, by decide, by decide, by decide, Nat.le_refl _⟩

/-- The day after. -/
def succ (d : Date) : Date :=
  if h : d.day < monthLength d.year d.month then
    ⟨d.year, d.month, d.day + 1, d.month_pos, d.month_le, by omega, h⟩
  else if hm : d.month < 12 then
    ⟨d.year, d.month + 1, 1, by omega, hm, by decide, month_length_pos _ _⟩
  else newYear (d.year + 1)

/-- The day that lies a number of days before. -/
def daysBefore (d : Date) : Nat → Date
  | 0 => d
  | n + 1 => (d.daysBefore n).pred

/-- The number of a day in a calendar whose months all have 31 days. -/
def rank (d : Date) : Int :=
  (d.year * 12 + ((d.month : Int) - 1)) * 31 + ((d.day : Int) - 1)

instance : LE Date :=
  ⟨fun a b => a.rank ≤ b.rank⟩

instance : LT Date :=
  ⟨fun a b => a.rank < b.rank⟩

instance (a b : Date) : Decidable (a ≤ b) :=
  inferInstanceAs (Decidable (a.rank ≤ b.rank))

instance (a b : Date) : Decidable (a < b) :=
  inferInstanceAs (Decidable (a.rank < b.rank))

theorem day_le_31 (d : Date) : d.day ≤ 31 :=
  Nat.le_trans d.day_le (month_length_le _ _)

/-- Days with the same rank are the same day. -/
theorem rank_injective {a b : Date} (h : a.rank = b.rank) : a = b := by
  have ha := a.day_le_31
  have hb := b.day_le_31
  obtain ⟨ya, ma, da, h1, h2, h3, h4⟩ := a
  obtain ⟨yb, mb, db, k1, k2, k3, k4⟩ := b
  simp only [rank] at h ha hb
  have hy : ya = yb := by omega
  have hm : ma = mb := by omega
  have hd : da = db := by omega
  subst hy hm hd
  rfl

/-- The day before comes earlier. -/
theorem rank_pred_lt (d : Date) : d.pred.rank < d.rank := by
  have hd := d.day_le_31
  have hp := d.day_pos
  have hq := d.month_pos
  have hl := month_length_le d.year (d.month - 1)
  unfold pred
  split
  · simp only [rank]; omega
  · split
    · simp only [rank]; omega
    · simp only [rank]; omega

/-- More days before is no later. -/
theorem days_before_le (d : Date) {m n : Nat} (h : m ≤ n) : d.daysBefore n ≤ d.daysBefore m := by
  induction h with
  | refl => exact Int.le_refl _
  | step _ ih => exact Int.le_trans (Int.le_of_lt (rank_pred_lt _)) ih

/-- Four digits, or a sign and at least four digits for years outside 0 to 9999. -/
def yearText (year : Int) : List Char :=
  if 0 ≤ year ∧ year ≤ 9999 then Text.padNat 4 year.toNat
  else (if year < 0 then '-' else '+') :: Text.padNat 4 year.natAbs

/-- The written form, year first. -/
def chars (d : Date) : List Char :=
  yearText d.year ++ '-' :: Text.padNat 2 d.month ++ '-' :: Text.padNat 2 d.day

/-- The written form, year first. -/
def text (d : Date) : String :=
  String.ofList d.chars

end Date

end CustomerDedupe.Calendar
