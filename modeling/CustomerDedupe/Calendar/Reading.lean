import CustomerDedupe.Calendar.Instant
import CustomerDedupe.Number.Total
import CustomerDedupe.Text.Blank

/-!
# Reading dates and instants

The written forms of dates and timestamps, each as a reader that takes characters from the
front of a text. A timestamp column may hold a full timestamp with its distance from universal
time, a timestamp without one, which is taken as universal time, or a bare date, which is its
midnight; these forms are tried in this order by `Instant.readColumn?`.
-/

namespace CustomerDedupe.Calendar

/-- Why a text is no date or timestamp. -/
inductive ReadProblem where
  | tooShort
  | tooLong
  | invalid
  | outOfRange
  deriving DecidableEq, Repr

/-- The wording of a problem. -/
def ReadProblem.message : ReadProblem → String
  | .tooShort => "premature end of input"
  | .tooLong => "trailing input"
  | .invalid => "input contains invalid characters"
  | .outOfRange => "input is out of range"

/-- A reader takes characters from the front of a text. -/
abbrev Reader (α : Type) :=
  StateT (List Char) (Except ReadProblem) α

/-- The length of a text in UTF-8. -/
def byteLength (s : List Char) : Nat :=
  Number.total (s.map Char.utf8Size)

namespace Reader

/-- Reads a number of at least `least` and at most `most` decimal digits. -/
def number (least most : Nat) : Reader Nat := do
  let s ← get
  let ds := (s.take most).takeWhile Char.isDigit
  if byteLength s < least then throw .tooShort
  if ds.length < least then throw .invalid
  if Text.digitsValue ds ≥ Nat.pow 2 63 then throw .outOfRange
  set (s.drop ds.length)
  pure (Text.digitsValue ds)

/-- Reads one given character. -/
def char (c : Char) : Reader Unit := do
  match ← get with
  | [] => throw .tooShort
  | d :: rest => if d = c then set rest else throw .invalid

/-- Skips white space. -/
def blanks : Reader Unit := do
  set ((← get).dropWhile Text.isBlank)

/-- Fails if a number lies outside its bounds. -/
def bounded (low high : Nat) (r : Reader Nat) : Reader Nat := do
  let n ← r
  if n < low ∨ high < n then throw .outOfRange
  pure n

/-- Reads the character between a date and a time of day. -/
def separator : Reader Unit := do
  match ← get with
  | [] => throw .tooShort
  | c :: rest => if c = 'T' ∨ c = 't' ∨ c = ' ' then set rest else throw .invalid

/-- Reads the digits of a fraction of a second as nanoseconds; digits after the ninth do not
count. -/
def fraction : Reader Nat := do
  match ← get with
  | '.' :: rest =>
    set rest
    let n ← number 1 9
    let width := rest.length - (← get).length
    set ((← get).dropWhile Char.isDigit)
    pure (n * Nat.pow 10 (9 - width))
  | _ => pure 0

/-- Reads a year of up to four digits, or of any length after a sign, that fits into 32
bits. -/
def signedYear : Reader Int := do
  blanks
  let year : Int ← match ← get with
    | '-' :: rest => set rest; pure (-(← number 1 rest.length : Int))
    | '+' :: rest => set rest; pure (← number 1 rest.length : Int)
    | _ => pure (← number 1 4 : Int)
  if year < -2147483648 ∨ 2147483647 < year then throw .outOfRange
  pure year

/-- Reads a number of one or two digits after white space. -/
def loose (low high : Nat) : Reader Nat := do
  blanks
  bounded low high (number 1 2)

/-- Reads minutes ahead of universal time: a sign, hours, a separation and minutes. The minus
sign may be typographic. -/
def offset (separation : Reader Unit) : Reader Int := do
  let negative ← match ← get with
    | [] => throw .tooShort
    | '+' :: rest => set rest; pure false
    | '-' :: rest => set rest; pure true
    | '\u2212' :: rest => set rest; pure true
    | _ :: _ => throw .invalid
  let hours ← number 2 2
  separation
  let minutes ← number 2 2
  if 59 < minutes then throw .outOfRange
  let total : Int := hours * 60 + minutes
  pure (if negative then -total else total)

/-- Reads the mark of universal time or minutes ahead of it. -/
def zone : Reader Int := do
  match ← get with
  | c :: rest => if c = 'Z' ∨ c = 'z' then set rest; pure 0 else offset (char ':')
  | [] => throw .tooShort

/-- Runs a reader on a whole text. -/
def whole {α : Type} (r : Reader α) (s : List Char) : Except ReadProblem α :=
  match r s with
  | .error e => .error e
  | .ok (a, []) => .ok a
  | .ok (_, _ :: _) => .error .tooLong

end Reader

/-- The numbers of a date as they are written. -/
structure DateFields where
  year : Int
  month : Nat
  day : Nat

/-- The numbers of a time of day as they are written. -/
structure ClockFields where
  hour : Nat
  minute : Nat
  second : Nat
  nano : Nat

/-- The years that can be held. -/
def yearInRange (year : Int) : Bool :=
  -262143 ≤ year && year ≤ 262142

/-- The date with these numbers, which must exist. -/
def DateFields.toDate (f : DateFields) : Except ReadProblem Date :=
  if yearInRange f.year then
    match Date.of? f.year f.month f.day with
    | some d => .ok d
    | none => .error .outOfRange
  else .error .outOfRange

/-- The instant of a date and a time of day whose clock is ahead of universal time by a number
of minutes. A sixtieth second is a leap second. -/
def instantOf (f : DateFields) (c : ClockFields) (ahead : Int) : Except ReadProblem Instant := do
  let d ← f.toDate
  let leap := c.second = 60
  let second := (c.hour * 60 + c.minute) * 60 + (if leap then 59 else c.second)
  let nano := c.nano + (if leap then 1000000000 else 0)
  if h : second < 86400 ∧ nano < 2000000000 ∧ (1000000000 ≤ nano → second % 60 = 59) ∧
      (-1440 < ahead ∧ ahead < 1440) then
    let t := Instant.ofLocal d second nano ahead h.1 h.2.1 h.2.2.1 h.2.2.2
    if yearInRange t.date.year then .ok t else .error .outOfRange
  else .error .outOfRange

namespace Reader

/-- Reads `YYYY-MM-DD` with all digits. -/
def strictDate : Reader DateFields := do
  let year ← number 4 4
  char '-'
  let month ← bounded 1 12 (number 2 2)
  char '-'
  let day ← bounded 1 31 (number 2 2)
  pure ⟨year, month, day⟩

/-- Reads `HH:MM:SS` with all digits and an optional fraction. -/
def strictClock : Reader ClockFields := do
  let hour ← bounded 0 23 (number 2 2)
  char ':'
  let minute ← bounded 0 59 (number 2 2)
  char ':'
  let second ← bounded 0 60 (number 2 2)
  let nano ← fraction
  pure ⟨hour, minute, second, nano⟩

/-- Reads a date whose numbers may be short or follow white space. -/
def looseDate : Reader DateFields := do
  let year ← signedYear
  char '-'
  let month ← loose 1 12
  char '-'
  let day ← loose 1 31
  pure ⟨year, month, day⟩

/-- Reads a time of day whose numbers may be short or follow white space. -/
def looseClock : Reader ClockFields := do
  let hour ← loose 0 23
  char ':'
  let minute ← loose 0 59
  char ':'
  let second ← loose 0 60
  let nano ← fraction
  pure ⟨hour, minute, second, nano⟩

/-- Reads a date whose dashes may follow white space. -/
def spacedDate : Reader DateFields := do
  let year ← signedYear
  blanks
  char '-'
  let month ← loose 1 12
  blanks
  char '-'
  let day ← loose 1 31
  pure ⟨year, month, day⟩

/-- Reads a time of day whose colons may follow white space. -/
def spacedClock : Reader ClockFields := do
  let hour ← loose 0 23
  blanks
  char ':'
  let minute ← loose 0 59
  blanks
  char ':'
  let second ← loose 0 60
  let nano ← fraction
  blanks
  pure ⟨hour, minute, second, nano⟩

/-- Reads `UTC` in any case, or minutes ahead of universal time with colons and white space
between hours and minutes. -/
def spacedZone : Reader Int := do
  match ← get with
  | u :: t :: c :: rest =>
    if u.toLower = 'u' ∧ t.toLower = 't' ∧ c.toLower = 'c' then
      set rest
      pure 0
    else if u = 'Z' ∨ u = 'z' then
      set (t :: c :: rest)
      pure 0
    else offset looseColon
  | z :: rest => if z = 'Z' ∨ z = 'z' then set rest; pure 0 else offset looseColon
  | [] => throw .tooShort
where
  /-- Skips colons and white space. -/
  looseColon : Reader Unit := do
    set ((← get).dropWhile fun c => c = ':' || Text.isBlank c)

end Reader

/-- Reads a timestamp in the internet's form, all digits written and with its distance from
universal time. -/
def Instant.readStrict (s : List Char) : Except ReadProblem Instant := do
  let fields : Reader (DateFields × ClockFields × Int) := do
    let d ← Reader.strictDate
    Reader.separator
    let c ← Reader.strictClock
    let ahead ← Reader.zone
    pure (d, c, ahead)
  let (d, c, ahead) ← fields.whole s
  instantOf d c ahead

/-- Reads a timestamp with its distance from universal time, in which white space may stand
around the separators and at the end. -/
def Instant.readRelaxed (s : List Char) : Except ReadProblem Instant := do
  let fields : Reader (DateFields × ClockFields × Int) := do
    let d ← Reader.spacedDate
    Reader.separator
    let c ← Reader.spacedClock
    let ahead ← Reader.spacedZone
    Reader.blanks
    pure (d, c, ahead)
  let (d, c, ahead) ← fields.whole s
  instantOf d c ahead

/-- Reads a timestamp without a distance from universal time, taken as universal time. -/
def Instant.readNaive (middle : Reader Unit) (s : List Char) : Except ReadProblem Instant := do
  let fields : Reader (DateFields × ClockFields) := do
    let d ← Reader.looseDate
    middle
    let c ← Reader.looseClock
    pure (d, c)
  let (d, c) ← fields.whole s
  instantOf d c 0

/-- Reads a date. -/
def Date.read (s : List Char) : Except ReadProblem Date := do
  let fields ← Reader.looseDate.whole s
  fields.toDate

/-- Reads a timestamp column in any of its forms. -/
def Instant.readColumn? (s : List Char) : Option Instant :=
  (Instant.readStrict s).toOption
    |>.orElse (fun _ => (Instant.readNaive (Reader.char 'T') s).toOption)
    |>.orElse (fun _ => (Instant.readNaive Reader.blanks s).toOption)
    |>.orElse (fun _ => ((Date.read s).toOption).map Instant.midnight)

/-- The part of a date column that holds the date: its first ten bytes, if they end at a
character's end, and otherwise all of it. -/
def datePart (s : List Char) : List Char :=
  go 10 [] s
where
  /-- Takes characters while they fit. -/
  go : Nat → List Char → List Char → List Char
    | 0, taken, _ => taken.reverse
    | _ + 1, _, [] => s
    | room + 1, taken, c :: rest =>
      if c.utf8Size ≤ room + 1 then go (room + 1 - c.utf8Size) (c :: taken) rest else s

/-- Reads a date column, which may hold a full timestamp. -/
def Date.readColumn (s : List Char) : Except ReadProblem Date :=
  Date.read (datePart s)

end CustomerDedupe.Calendar
