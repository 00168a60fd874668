import CustomerDedupe.Text.CaseTable

/-!
# Lower case

Unicode lowercasing of whole texts. Every letter is mapped on its own except two: the capital
I with a dot, whose lowercase form is two characters, and the capital sigma, which takes its
final form at the end of a word.
-/

namespace CustomerDedupe.Text

/-- Searches a list of ranges for a code point. -/
def inRanges (ranges : List (Nat × Nat)) (n : Nat) : Bool :=
  ranges.any fun r => r.1 ≤ n && n ≤ r.2

/-- Whether a character has case. -/
def isCased (c : Char) : Bool :=
  inRanges casedRanges c.toNat

/-- Whether a character is passed over when a word's end is looked for. -/
def isCaseIgnorable (c : Char) : Bool :=
  inRanges caseIgnorableRanges c.toNat

/-- The run that holds a code point, if its lowercase form is another single character. -/
def caseRun? (n : Nat) : Option CaseRun :=
  caseRuns.find? fun r => r.first ≤ n && n ≤ r.last && (n - r.first) % r.step == 0

/-- The lowercase form of a character that stands alone. -/
def lowerChar (c : Char) : List Char :=
  if c.toNat < 0x80 then
    [c.toLower]
  else if c == 'İ' then
    ['i', '\u0307']
  else
    match caseRun? c.toNat with
    | some r => [Char.ofNat (r.lower + (c.toNat - r.first))]
    | none => [c]

/-- Whether the nearest character that is not passed over has case. -/
def meetsCased (s : List Char) : Bool :=
  match s.dropWhile isCaseIgnorable with
  | c :: _ => isCased c
  | [] => false

/-- Lowercases what follows `before`, whose characters are listed from the last to the first:
a capital sigma is final when a cased letter precedes it in its word and none follows. -/
def lowerFrom (before : List Char) : List Char → List Char
  | [] => []
  | c :: rest =>
    let lowered :=
      if c == 'Σ' then
        if meetsCased before && !meetsCased rest then ['ς'] else ['σ']
      else lowerChar c
    lowered ++ lowerFrom (c :: before) rest

/-- The lowercase form of a list of characters. -/
def lowerChars (s : List Char) : List Char :=
  lowerFrom [] s

/-- The lowercase form of a text in which only the ASCII letters are changed. -/
def asciiLowercase (s : String) : String :=
  String.ofList (s.toList.map Char.toLower)

end CustomerDedupe.Text
