/-!
# Splitting texts

The parts of a text between separators. `intercalate_split_at` says that nothing is lost, and
`not_mem_of_mem_split_at` that no part holds a separator.
-/

namespace CustomerDedupe.Text

/-- The parts of a text between separators, of which there is always one more than there are
separators. -/
def splitAt (sep : Char) : List Char → List (List Char)
  | [] => [[]]
  | c :: rest =>
    match c == sep, splitAt sep rest with
    | true, parts => [] :: parts
    | false, part :: parts => (c :: part) :: parts
    | false, [] => [[c]]

theorem split_at_ne_nil (sep : Char) (s : List Char) : splitAt sep s ≠ [] := by
  cases s with
  | nil => simp [splitAt]
  | cons c rest =>
    unfold splitAt
    split <;> simp

theorem split_at_cons_sep (sep : Char) (s : List Char) :
    splitAt sep (sep :: s) = [] :: splitAt sep s := by
  simp [splitAt]

/-- The parts joined by separators are the text. -/
theorem intercalate_split_at (sep : Char) (s : List Char) :
    List.intercalate [sep] (splitAt sep s) = s := by
  induction s with
  | nil => rfl
  | cons c rest ih =>
    unfold splitAt
    have hne := split_at_ne_nil sep rest
    generalize hp : splitAt sep rest = parts at ih hne
    cases parts with
    | nil => exact absurd rfl hne
    | cons part parts =>
      by_cases hc : c = sep
      · subst hc
        simp only [BEq.rfl]
        rw [← ih]
        simp [List.intercalate, List.intersperse]
      · have : (c == sep) = false := by simpa using hc
        simp only [this]
        rw [← ih]
        cases parts <;> simp [List.intercalate, List.intersperse]

/-- No part holds a separator. -/
theorem not_mem_of_mem_split_at {sep : Char} {s part : List Char} (h : part ∈ splitAt sep s) :
    sep ∉ part := by
  induction s generalizing part with
  | nil =>
    simp only [splitAt, List.mem_singleton] at h
    simp [h]
  | cons c rest ih =>
    unfold splitAt at h
    split at h
    · rcases List.mem_cons.1 h with rfl | h
      · simp
      · exact ih h
    · rename_i first parts hc hp
      rcases List.mem_cons.1 h with rfl | h
      · have hne : sep ≠ c := fun e => by simp [e] at hc
        simp only [List.mem_cons, not_or]
        exact ⟨hne, ih (by rw [hp]; exact List.mem_cons_self)⟩
      · exact ih (by rw [hp]; exact List.mem_cons_of_mem _ h)
    · rename_i hc hp
      exact absurd hp (split_at_ne_nil sep rest)

end CustomerDedupe.Text
