/-!
# White space

The characters that count as white space in names, numbers and settings, and the three things
done with them: a text is trimmed, tested for being blank, or stripped of all of them.
`mem_without_blanks` says that stripping removes exactly the white space.
-/

namespace CustomerDedupe.Text

/-- The white space of Unicode: the controls tab to carriage return, space, next line and the
space separators. -/
def isBlank (c : Char) : Bool :=
  let n := c.toNat
  (0x9 ≤ n && n ≤ 0xD) || n == 0x20 || n == 0x85 || n == 0xA0 || n == 0x1680 ||
  (0x2000 ≤ n && n ≤ 0x200A) || n == 0x2028 || n == 0x2029 || n == 0x202F || n == 0x205F ||
  n == 0x3000

/-- Removes the white space at both ends. -/
def trimChars (s : List Char) : List Char :=
  ((s.dropWhile isBlank).reverse.dropWhile isBlank).reverse

/-- Removes the white space at both ends of a text. -/
def trim (s : String) : String :=
  String.ofList (trimChars s.toList)

/-- Holds of a text without any character other than white space. -/
def isBlankText (s : String) : Bool :=
  s.toList.all isBlank

/-- An absent text is as good as a blank one. -/
def isMissing : Option String → Bool
  | none => true
  | some s => isBlankText s

/-- Removes all white space. -/
def withoutBlanks (s : List Char) : List Char :=
  s.filter fun c => !isBlank c

@[simp] theorem mem_without_blanks {c : Char} {s : List Char} :
    c ∈ withoutBlanks s ↔ c ∈ s ∧ isBlank c = false := by
  simp [withoutBlanks]

/-- A text is blank exactly if nothing is left of it after trimming. -/
theorem trim_chars_eq_nil_iff {s : List Char} : trimChars s = [] ↔ s.all isBlank = true := by
  have key : ∀ t : List Char, t.dropWhile isBlank = [] ↔ t.all isBlank = true := by
    intro t
    induction t with
    | nil => simp
    | cons c t ih => cases h : isBlank c <;> simp_all
  unfold trimChars
  rw [List.reverse_eq_nil_iff, key]
  induction s with
  | nil => simp
  | cons c t ih => cases h : isBlank c <;> simp_all

/-- Recognises ASCII white space as command lines and protocols know it: space and tab. -/
def isSpaceOrTab (c : Char) : Bool :=
  c == ' ' || c == '\t'

end CustomerDedupe.Text
