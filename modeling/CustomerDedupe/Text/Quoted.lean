import CustomerDedupe.Text.Lowercase
import CustomerDedupe.Text.VisibleTable

/-!
# Quoted texts in messages

A text shown inside a message stands in double quotes. Quotes and backslashes are written with
a backslash, the common controls by a letter, and every other character that cannot be seen by
its number in braces.
-/

namespace CustomerDedupe.Text

/-- Whether a character is shown as it is. -/
def isVisible (c : Char) : Bool :=
  !inRanges hiddenRanges c.toNat && !inRanges attachedRanges c.toNat

/-- The lower-case hexadecimal numeral of a number. -/
def hexNumeral (n : Nat) : List Char :=
  Nat.toDigits 16 n

/-- How a character is shown between quotes. -/
def quotedChar (c : Char) : List Char :=
  if c = '"' ∨ c = '\\' then ['\\', c]
  else if c = '\n' then ['\\', 'n']
  else if c = '\r' then ['\\', 'r']
  else if c = '\t' then ['\\', 't']
  else if c.toNat = 0 then ['\\', '0']
  else if c.toNat < 0x7F ∧ 0x20 ≤ c.toNat then [c]
  else if isVisible c then [c]
  else ['\\', 'u', '\x7b'] ++ hexNumeral c.toNat ++ ['\x7d']

/-- A text in quotes. -/
def quoted (s : String) : String :=
  String.ofList ('"' :: s.toList.flatMap quotedChar ++ ['"'])

end CustomerDedupe.Text
