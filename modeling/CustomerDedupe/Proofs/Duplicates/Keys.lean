import CustomerDedupe.Duplicates.Scan

/-!
# Keys of phone numbers

A normalised number consists of digits, so its last four do as well, and the text of a fuzzy key
can be taken apart again at the first colon behind the digits.
-/

namespace CustomerDedupe.Duplicates

/-- The domestic form of digits consists of digits. -/
theorem is_digit_of_mem_domestic {ds : List Char} (h : ∀ c ∈ ds, c.isDigit = true) {c : Char}
    (hc : c ∈ domestic ds) : c.isDigit = true := by
  unfold domestic at hc
  split at hc
  · next rest =>
    rcases List.mem_cons.mp hc with rfl | hc
    · decide
    · exact h c (by simp [hc])
  · next rest _ =>
    rcases List.mem_cons.mp hc with rfl | hc
    · decide
    · exact h c (by simp [hc])
  · exact h c hc

/-- A normalised number consists of digits. -/
theorem is_digit_of_mem_normalize_digits {number : Option String} {c : Char}
    (h : c ∈ normalizeDigits number) : c.isDigit = true := by
  have hdigits : ∀ d ∈ (Text.trimChars ((number.getD "").toList)).filter Char.isDigit,
      d.isDigit = true := fun d hd => (List.mem_filter.mp hd).2
  simp only [normalizeDigits, numberDigits] at h
  split at h
  · exact is_digit_of_mem_domestic hdigits h
  · exact hdigits c h

/-- The last four digits are digits of the number. -/
theorem mem_of_mem_last_four {number : Option String} {c : Char} (h : c ∈ lastFour number) :
    c ∈ normalizeDigits number :=
  List.mem_of_mem_drop h

/-- The last four digits hold no colon. -/
theorem colon_not_mem_last_four (number : Option String) : ':' ∉ lastFour number := by
  intro h
  have hdigit := is_digit_of_mem_normalize_digits (mem_of_mem_last_four h)
  exact absurd hdigit (by decide)

/-- A number whose last four digits are not empty is not empty. -/
theorem normalize_digits_ne_nil {number : Option String} (h : lastFour number ≠ []) :
    normalizeDigits number ≠ [] := by
  intro hnil
  exact h (by simp [lastFour, hnil])

/-- A list is cut in only one way at a mark that is not in its first part. -/
theorem append_mark_inj {mark : Char} {tail tail' rest rest' : List Char} (h : mark ∉ tail)
    (h' : mark ∉ tail') (heq : tail ++ mark :: rest = tail' ++ mark :: rest') :
    tail = tail' ∧ rest = rest' := by
  induction tail generalizing tail' with
  | nil =>
      cases tail' with
      | nil => exact ⟨rfl, (List.cons.inj heq).2⟩
      | cons c tail' =>
          have hc : mark = c := (List.cons.inj heq).1
          exact absurd (hc ▸ List.mem_cons_self) h'
  | cons c tail ih =>
      cases tail' with
      | nil =>
          have hc : c = mark := (List.cons.inj heq).1
          exact absurd (hc ▸ List.mem_cons_self) h
      | cons c' tail' =>
          obtain ⟨rfl, hrest⟩ := List.cons.inj heq
          obtain ⟨rfl, rfl⟩ := ih (fun hm => h (List.mem_cons_of_mem _ hm))
            (fun hm => h' (List.mem_cons_of_mem _ hm)) hrest
          exact ⟨rfl, rfl⟩

/-- Fuzzy keys whose digits hold no colon have different texts. -/
theorem fuzzy_key_text_inj {k k' : FuzzyKey} (h : ':' ∉ k.1) (h' : ':' ∉ k'.1)
    (heq : fuzzyKeyText k = fuzzyKeyText k') : k = k' := by
  have hchars := String.ofList_injective heq
  rw [List.append_assoc, List.append_assoc] at hchars
  -- behind the common beginning, the first colon ends the digits
  obtain ⟨htail, hprefix⟩ := append_mark_inj h h' (List.append_cancel_left hchars)
  exact Prod.ext htail hprefix

end CustomerDedupe.Duplicates
