import CustomerDedupe.Number.Total
import CustomerDedupe.Text.Lowercase

/-!
# Lengths of lowercase forms

How a character is lowercased may depend on its neighbours, but how many characters its
lowercase form has does not. So the length of a lowercase form adds up over the parts of a text,
although the form itself need not.
-/

namespace CustomerDedupe.Text

/-- How many characters a character has in lower case. -/
def lowerWidth (c : Char) : Nat :=
  if c == 'Σ' then 1 else (lowerChar c).length

/-- Lowercasing leaves something of every character. -/
theorem lower_width_pos (c : Char) : 0 < lowerWidth c := by
  unfold lowerWidth lowerChar
  split
  · exact Nat.one_pos
  · split
    · exact Nat.one_pos
    · split
      · exact Nat.two_pos
      · split <;> exact Nat.one_pos

/-- The length of a lowercase form is the same wherever the text stands. -/
theorem length_lower_from (before s : List Char) :
    (lowerFrom before s).length = Number.total (s.map lowerWidth) := by
  induction s generalizing before with
  | nil => rfl
  | cons c rest ih =>
      rw [lowerFrom, List.length_append, ih, List.map_cons, Number.total_cons]
      congr 1
      unfold lowerWidth
      by_cases hsigma : (c == 'Σ') = true
      · rw [if_pos hsigma, if_pos hsigma]
        split <;> rfl
      · rw [if_neg hsigma, if_neg hsigma]

/-- The length of a lowercase form adds up over the parts of a text. -/
theorem length_lower_chars_append (s t : List Char) :
    (lowerChars (s ++ t)).length = (lowerChars s).length + (lowerChars t).length := by
  unfold lowerChars
  rw [length_lower_from, length_lower_from, length_lower_from, List.map_append,
    Number.total_append]

/-- The lowercase form of a text that is not empty is not empty. -/
theorem length_lower_chars_pos {s : List Char} (h : s ≠ []) : 0 < (lowerChars s).length := by
  obtain ⟨c, rest, rfl⟩ := List.exists_cons_of_ne_nil h
  have hc := lower_width_pos c
  unfold lowerChars
  rw [length_lower_from, List.map_cons, Number.total_cons]
  omega

end CustomerDedupe.Text
