import CustomerDedupe.Calendar.Date

/-!
# Instants

Moments of universal time with nanoseconds. A leap second is the second after the last one of
its minute, written `:60`; it is held as second 59 with a thousand million nanoseconds more.
Instants are ordered by rank, and `rank_injective` says that no two share one.
-/

namespace CustomerDedupe.Calendar

/-- A moment of universal time. -/
structure Instant where
  date : Date
  second : Nat
  nano : Nat
  second_lt : second < 86400
  nano_lt : nano < 2000000000
  leap_last : 1000000000 ≤ nano → second % 60 = 59
  deriving DecidableEq, Repr

namespace Instant

/-- The beginning of a day. -/
def midnight (d : Date) : Instant :=
  ⟨d, 0, 0, by decide, by decide, by decide⟩

instance : Inhabited Instant :=
  ⟨midnight default⟩

/-- The position of an instant in time, counted in nanoseconds with room for leap seconds. -/
def rank (t : Instant) : Int :=
  (t.date.rank * 86400 + t.second) * 2000000000 + t.nano

instance : LE Instant :=
  ⟨fun a b => a.rank ≤ b.rank⟩

instance : LT Instant :=
  ⟨fun a b => a.rank < b.rank⟩

instance (a b : Instant) : Decidable (a ≤ b) :=
  inferInstanceAs (Decidable (a.rank ≤ b.rank))

instance (a b : Instant) : Decidable (a < b) :=
  inferInstanceAs (Decidable (a.rank < b.rank))

/-- Instants with the same rank are the same instant. -/
theorem rank_injective {a b : Instant} (h : a.rank = b.rank) : a = b := by
  obtain ⟨da, sa, na, h1, h2, h3⟩ := a
  obtain ⟨db, sb, nb, k1, k2, k3⟩ := b
  simp only [rank] at h
  have hd : da = db := Date.rank_injective (by omega)
  have hs : sa = sb := by subst hd; omega
  have hn : na = nb := by subst hd; omega
  subst hd hs hn
  rfl

theorem le_trans {a b c : Instant} (hab : a ≤ b) (hbc : b ≤ c) : a ≤ c :=
  Int.le_trans hab hbc

theorem le_total (a b : Instant) : a ≤ b ∨ b ≤ a :=
  Int.le_total a.rank b.rank

/-- Instants neither of which is later are the same instant. -/
theorem le_antisymm {a b : Instant} (hab : a ≤ b) (hba : b ≤ a) : a = b :=
  rank_injective (Int.le_antisymm hab hba)

/-- The instants of an earlier day come earlier. -/
theorem rank_lt_of_date_lt {a b : Instant} (h : a.date < b.date) : a < b := by
  have h' : a.date.rank < b.date.rank := h
  have ha := a.second_lt
  have hn := a.nano_lt
  change a.rank < b.rank
  simp only [rank]
  omega

/-- An instant that comes no later is of no later day. -/
theorem date_le_of_le {a b : Instant} (h : a ≤ b) : a.date ≤ b.date :=
  Int.not_lt.mp fun hlater => Int.not_lt.mpr h (rank_lt_of_date_lt hlater)

/-- The instant of a local time of day whose clock is ahead of universal time by `ahead`
minutes, less than a day. -/
def ofLocal (d : Date) (second nano : Nat) (ahead : Int) (hs : second < 86400)
    (hn : nano < 2000000000) (hl : 1000000000 ≤ nano → second % 60 = 59)
    (ha : -1440 < ahead ∧ ahead < 1440) : Instant :=
  let shifted : Int := (second : Int) - ahead * 60
  if h : shifted < 0 then
    ⟨d.pred, (shifted + 86400).toNat, nano, by omega, hn, by intro hk; have := hl hk; omega⟩
  else if h' : 86400 ≤ shifted then
    ⟨d.succ, (shifted - 86400).toNat, nano, by omega, hn, by intro hk; have := hl hk; omega⟩
  else ⟨d, shifted.toNat, nano, by omega, hn, by intro hk; have := hl hk; omega⟩

/-- The fraction of a second with as many digits as are exact, in groups of three. -/
def fractionText (nano : Nat) : List Char :=
  if nano = 0 then []
  else if nano % 1000000 = 0 then '.' :: Text.padNat 3 (nano / 1000000)
  else if nano % 1000 = 0 then '.' :: Text.padNat 6 (nano / 1000)
  else '.' :: Text.padNat 9 nano

/-- Hour and minute. -/
def clockText (t : Instant) : List Char :=
  Text.padNat 2 (t.second / 3600) ++ ':' :: Text.padNat 2 (t.second / 60 % 60)

/-- The second within the minute, in which a leap second is the sixtieth, and its fraction. -/
def secondText (t : Instant) : List Char :=
  Text.padNat 2 (t.second % 60 + t.nano / 1000000000) ++ fractionText (t.nano % 1000000000)

/-- The written form: date, `T`, time of day, `Z`. -/
def chars (t : Instant) : List Char :=
  t.date.chars ++ 'T' :: t.clockText ++ ':' :: t.secondText ++ ['Z']

/-- The written form: date, `T`, time of day, `Z`. -/
def text (t : Instant) : String :=
  String.ofList t.chars

/-- Date, hour and minute, for people. -/
def minuteText (t : Instant) : String :=
  String.ofList (t.date.chars ++ ' ' :: t.clockText)

end Instant

end CustomerDedupe.Calendar
