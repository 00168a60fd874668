import CustomerDedupe.Calendar.Date
import CustomerDedupe.Toml.Value

/-!
# The words of configuration texts

Readers of the parts of a configuration text that stand on their own: white space and comments,
strings in their four spellings, keys, numbers and points in time. Each takes characters from
the front of a text or refuses it.
-/

namespace CustomerDedupe.Toml

/-- A reader of characters from the front of a text. -/
abbrev Reader (α : Type) :=
  StateT (List Char) Option α

namespace Reader

/-- Whether a character is a control that a text cannot hold; a tab it can. -/
def isControl (c : Char) : Bool :=
  (c.toNat < 0x20 && c != '\t') || c.toNat == 0x7F

/-- Skips blanks within a line. -/
def blanks : Reader Unit := do
  set ((← get).dropWhile Text.isSpaceOrTab)

/-- Whether a text continues with a given character. -/
def atChar (c : Char) : Reader Bool := do
  return (← get).head? == some c

/-- Reads one given character. -/
def char (c : Char) : Reader Unit := do
  match ← get with
  | d :: rest => if d = c then set rest else failure
  | [] => failure

/-- Reads given characters. -/
def chars (cs : List Char) : Reader Unit := do
  let s ← get
  if cs.isPrefixOf s then set (s.drop cs.length) else failure

/-- Reads a line end. -/
def newline : Reader Unit := do
  match ← get with
  | '\n' :: rest => set rest
  | '\r' :: '\n' :: rest => set rest
  | _ => failure

/-- Skips a comment, if there is one; it ends before the line does. -/
def comment : Reader Unit := do
  match ← get with
  | '#' :: rest =>
    let body := rest.takeWhile fun c => c != '\n' && c != '\r'
    if body.any isControl then failure
    set (rest.drop body.length)
  | _ => pure ()

/-- Reads the rest of a line, which holds at most a comment. -/
def lineEnd : Reader Unit := do
  blanks
  comment
  if (← get).isEmpty then pure () else newline

/-- Skips blanks, comments and line ends. -/
def gap : Nat → Reader Unit
  | 0 => pure ()
  | fuel + 1 => do
    blanks
    comment
    match ← get with
    | '\n' :: rest => set rest; gap fuel
    | '\r' :: '\n' :: rest => set rest; gap fuel
    | _ => pure ()

/-- The character with a number given by hexadecimal digits. -/
def charOf? (digits : List Char) (count : Nat) : Option Char := do
  if digits.length < count then none
  else
    let values ← digits.mapM Text.hexValue?
    let n := values.foldl (fun acc v => acc * 16 + v) 0
    if n.isValidChar then some (Char.ofNat n) else none

/-- Reads what follows a backslash. -/
def escape : Reader Char := do
  let byNumber (count : Nat) (rest : List Char) : Reader Char := do
    let c ← charOf? (rest.take count) count
    set (rest.drop count)
    pure c
  match ← get with
  | 'b' :: rest => set rest; pure '\x08'
  | 't' :: rest => set rest; pure '\t'
  | 'n' :: rest => set rest; pure '\n'
  | 'f' :: rest => set rest; pure '\x0c'
  | 'r' :: rest => set rest; pure '\r'
  | 'e' :: rest => set rest; pure '\x1b'
  | '"' :: rest => set rest; pure '"'
  | '\\' :: rest => set rest; pure '\\'
  | 'x' :: rest => byNumber 2 rest
  | 'u' :: rest => byNumber 4 rest
  | 'U' :: rest => byNumber 8 rest
  | _ => failure

/-- Reads the inside of a string within double quotes, and the closing quote. -/
def basicBody : Nat → List Char → Reader String
  | 0, _ => failure
  | fuel + 1, done => do
    match ← get with
    | '"' :: rest => set rest; pure (String.ofList done.reverse)
    | '\\' :: rest => do
      set rest
      let c ← escape
      basicBody fuel (c :: done)
    | c :: rest => do
      if isControl c then failure
      set rest
      basicBody fuel (c :: done)
    | [] => failure

/-- Reads the inside of a string within single quotes, and the closing quote. -/
def literalBody : Reader String := do
  let s ← get
  let body := s.takeWhile (· != '\'')
  if body.any isControl then failure
  set (s.drop body.length)
  char '\''
  pure (String.ofList body)

/-- Reads the quotes at the end of a string within three quotes: as many as five, of which the
last three close it. -/
def closingQuotes (quote : Char) (s : List Char) : Option (Nat × List Char) :=
  let n := (s.takeWhile (· == quote)).length
  if n < 3 then none
  else
    let used := min n 5
    some (used - 3, s.drop used)

/-- Skips white space and line ends after a backslash at a line's end. -/
def continued (s : List Char) : Option (List Char) :=
  let afterBlanks := s.dropWhile Text.isSpaceOrTab
  match afterBlanks with
  | '\n' :: _ => some (afterBlanks.dropWhile fun c => Text.isSpaceOrTab c || c == '\n' || c == '\r')
  | '\r' :: '\n' :: _ =>
    some (afterBlanks.dropWhile fun c => Text.isSpaceOrTab c || c == '\n' || c == '\r')
  | _ => none

/-- Reads the inside of a string within three quotes of a kind, and the closing quotes. -/
def longBody (quote : Char) : Nat → List Char → Reader String
  | 0, _ => failure
  | fuel + 1, done => do
    let s ← get
    match closingQuotes quote s with
    | some (kept, rest) =>
      set rest
      pure (String.ofList (done.reverse ++ List.replicate kept quote))
    | none =>
      match s with
      | '\n' :: rest => set rest; longBody quote fuel ('\n' :: done)
      | '\r' :: '\n' :: rest => set rest; longBody quote fuel ('\n' :: '\r' :: done)
      | c :: rest => do
        if isControl c then failure
        set rest
        if c = '\\' ∧ quote = '"' then
          match continued rest with
          | some rest => do
            set rest
            longBody quote fuel done
          | none => do
            let e ← escape
            longBody quote fuel (e :: done)
        else longBody quote fuel (c :: done)
      | [] => failure

/-- Skips a line end directly after opening quotes. -/
def firstNewline : Reader Unit := do
  match ← get with
  | '\n' :: rest => set rest
  | '\r' :: '\n' :: rest => set rest
  | _ => pure ()

/-- Reads a string on one line. -/
def shortString : Reader String := do
  match ← get with
  | '"' :: rest => set rest; basicBody (rest.length + 1) []
  | '\'' :: rest => set rest; literalBody
  | _ => failure

/-- Reads a string in any spelling. -/
def string : Reader String := do
  match ← get with
  | '"' :: '"' :: '"' :: rest =>
    set rest
    firstNewline
    longBody '"' (rest.length + 1) []
  | '\'' :: '\'' :: '\'' :: rest =>
    set rest
    firstNewline
    longBody '\'' (rest.length + 1) []
  | _ => shortString

/-- Whether a character may stand in a key without quotes. -/
def isKeyChar (c : Char) : Bool :=
  c.isAlphanum || c == '_' || c == '-'

/-- Reads one part of a key. -/
def keyPart : Reader String := do
  let s ← get
  match s with
  | '"' :: _ | '\'' :: _ => shortString
  | _ =>
    let bare := s.takeWhile isKeyChar
    if bare.isEmpty then failure
    set (s.drop bare.length)
    pure (String.ofList bare)

/-- Reads a key: parts between dots, with blanks around them. -/
def key : Nat → Reader (List String)
  | 0 => failure
  | fuel + 1 => do
    blanks
    let part ← keyPart
    blanks
    if ← atChar '.' then
      char '.'
      let more ← key fuel
      pure (part :: more)
    else pure [part]

end Reader

/-- Whether digits of a base are written with single underscores between them only. -/
def isDigitRun (isDigit : Char → Bool) (s : List Char) : Bool :=
  let rec go : Bool → List Char → Bool
    | afterDigit, [] => afterDigit
    | afterDigit, c :: rest =>
      if isDigit c then go true rest
      else if c == '_' && afterDigit then go false rest
      else false
  go false s

/-- The number that digits of a base stand for, underscores apart. -/
def runValue (base : Nat) (s : List Char) : Nat :=
  (s.filter (· != '_')).foldl (fun n c => n * base + (Text.hexValue? c).getD 0) 0

/-- Whether decimal digits have no leading zero. -/
def isDecimalRun (s : List Char) : Bool :=
  isDigitRun Char.isDigit s && (s == ['0'] || s.head? != some '0')

/-- Cuts a sign off a text. -/
def splitSign : List Char → Option Bool × List Char
  | '-' :: rest => (some true, rest)
  | '+' :: rest => (some false, rest)
  | s => (none, s)

/-- Reads an integer. -/
def integer? (s : List Char) : Option Int :=
  let isDigitOf (base : Nat) (c : Char) : Bool := (Text.hexValue? c).any (· < base)
  let based (base : Nat) (ds : List Char) : Option Int :=
    if isDigitRun (isDigitOf base) ds then some (runValue base ds) else none
  match s with
  | '0' :: 'x' :: ds => based 16 ds
  | '0' :: 'o' :: ds => based 8 ds
  | '0' :: 'b' :: ds => based 2 ds
  | _ =>
    let (sign, ds) := splitSign s
    if isDecimalRun ds then
      some (if sign = some true then -(runValue 10 ds : Int) else runValue 10 ds)
    else none

/-- Whether a text is a number that is no integer. -/
def isFloat (s : List Char) : Bool :=
  let (_, body) := splitSign s
  let isMark (c : Char) : Bool := c == 'e' || c == 'E'
  let mantissa := body.takeWhile fun c => !isMark c
  let exponent := body.drop mantissa.length
  let whole := mantissa.takeWhile (· != '.')
  let places := mantissa.drop whole.length
  body == ['i', 'n', 'f'] || body == ['n', 'a', 'n'] ||
    (isDecimalRun whole && (!places.isEmpty || !exponent.isEmpty) &&
      (places.isEmpty || isDigitRun Char.isDigit (places.drop 1)) &&
      (exponent.isEmpty || isDigitRun Char.isDigit (splitSign (exponent.drop 1)).2))

/-- A number of exactly two digits. -/
def twoDigits? : List Char → Option (Nat × List Char)
  | a :: b :: rest =>
    if a.isDigit && b.isDigit then some (Text.digitsValue [a, b], rest) else none
  | _ => none

/-- Reads a date from the front of a text. -/
def date? (s : List Char) : Option (List Char) := do
  let year := s.take 4
  if year.length = 4 ∧ year.all Char.isDigit then
    match s.drop 4 with
    | '-' :: rest => do
      let (month, rest) ← twoDigits? rest
      match rest with
      | '-' :: rest => do
        let (day, rest) ← twoDigits? rest
        let _ ← Calendar.Date.of? (Text.digitsValue year) month day
        some rest
      | _ => none
    | _ => none
  else none

/-- Reads a time of day, whose seconds may be left out, from the front of a text. -/
def clock? (s : List Char) : Option (List Char) := do
  let (hour, rest) ← twoDigits? s
  match rest with
  | ':' :: rest => do
    let (minute, rest) ← twoDigits? rest
    if 23 < hour ∨ 59 < minute then none
    else
      match rest with
      | ':' :: rest => do
        let (second, rest) ← twoDigits? rest
        if 60 < second then none
        else
          match rest with
          | '.' :: rest =>
            let places := rest.takeWhile Char.isDigit
            if places.isEmpty then none else some (rest.drop places.length)
          | _ => some rest
      | _ => some rest
  | _ => none

/-- Reads a distance from universal time, or its mark, which ends a text. -/
def isZone (s : List Char) : Bool :=
  match s with
  | [] | ['Z'] | ['z'] => true
  | c :: rest =>
    (c == '+' || c == '-') &&
      (match twoDigits? rest with
        | some (hour, ':' :: rest) =>
          (match twoDigits? rest with
            | some (minute, []) => hour ≤ 24 && minute ≤ 59
            | _ => false)
        | _ => false)

/-- Whether a text is a point in time: a date, a time of day, or both. -/
def isTime (s : List Char) : Bool :=
  match date? s with
  | some [] => true
  | some (c :: rest) =>
    (c == 'T' || c == 't' || c == ' ') && ((clock? rest).map isZone).getD false
  | none => clock? s == some []

/-- Whether a character ends a word. -/
def endsWord (c : Char) : Bool :=
  [' ', '\t', ',', ']', '\x7d', '#', '\n', '\r', '='].contains c

/-- Reads a value that is neither string, array nor table. -/
def Reader.word : Reader Value := do
  let s ← get
  let first := s.takeWhile fun c => !endsWord c
  let rest := s.drop first.length
  -- a date may be followed by a space and a time of day
  let joined :=
    match rest with
    | ' ' :: c :: more =>
      if (date? first == some []) && c.isDigit then
        first ++ ' ' :: (c :: more).takeWhile fun c => !endsWord c
      else first
    | _ => first
  set (s.drop joined.length)
  let text := String.ofList joined
  if joined = "true".toList then pure (.bool true)
  else if joined = "false".toList then pure (.bool false)
  else
    match integer? joined with
    | some n => pure (.int n)
    | none =>
      if isFloat joined then pure (.float text)
      else if isTime joined then pure (.time text)
      else failure

end CustomerDedupe.Toml
