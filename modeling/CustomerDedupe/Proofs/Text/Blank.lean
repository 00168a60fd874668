import Mathlib.Data.List.DropRight
import Mathlib.Data.List.TakeWhile
import CustomerDedupe.Text.Blank

/-!
# Trimmed texts

A text is trimmed if it neither begins nor ends with white space. Trimming makes every text
trimmed and leaves a trimmed one alone, and texts between two trimmed ones do not matter. Of the
other characters, trimming keeps them all (`filter_trim_chars`), with the first one in front
(`head_trim_chars`).
-/

namespace CustomerDedupe.Text

/-- Digits are no white space. -/
theorem digit_not_blank {c : Char} (hc : c.isDigit = true) : isBlank c = false := by
  simp only [Char.isDigit, Bool.and_eq_true, decide_eq_true_eq, UInt32.le_iff_toNat_le] at hc
  have hlow : 48 ≤ c.toNat := hc.1
  have hhigh : c.toNat ≤ 57 := hc.2
  simp only [isBlank, Bool.or_eq_false_iff, Bool.and_eq_false_iff, decide_eq_false_iff_not,
    beq_eq_false_iff_ne]
  omega

/-- Neither begins nor ends with white space. -/
def Trimmed (s : List Char) : Prop :=
  (∀ c ∈ s.head?, isBlank c = false) ∧ ∀ c ∈ s.getLast?, isBlank c = false

/-- What is left of a text without the white space at its beginning does not begin with any. -/
theorem not_blank_head_drop_while {s : List Char} {c : Char}
    (hc : c ∈ (s.dropWhile isBlank).head?) : isBlank c = false := by
  have hhead := List.head?_dropWhile_not isBlank s
  rw [Option.mem_def.mp hc] at hhead
  exact hhead

/-- Trimming makes a text trimmed. -/
theorem trimmed_trim_chars (s : List Char) : Trimmed (trimChars s) := by
  constructor
  · intro c hc
    -- what trimming leaves at the end is a beginning of what it leaves at the beginning
    have hbegin : trimChars s <+: s.dropWhile isBlank := List.rdropWhile_prefix _ _
    obtain ⟨rest, hrest⟩ := hbegin
    apply not_blank_head_drop_while (s := s)
    rw [← hrest, List.head?_append, Option.mem_def.mp hc]
    rfl
  · intro c hc
    unfold trimChars at hc
    rw [List.getLast?_reverse] at hc
    exact not_blank_head_drop_while hc

/-- Trimming leaves a trimmed text alone. -/
theorem trim_chars_eq_self {s : List Char} (h : Trimmed s) : trimChars s = s := by
  have hbegin : s.dropWhile isBlank = s := by
    cases s with
    | nil => rfl
    | cons c rest =>
        apply List.dropWhile_cons_of_neg
        rw [h.1 c rfl]
        exact Bool.false_ne_true
  have hend : s.rdropWhile isBlank = s := by
    rw [List.rdropWhile_eq_self_iff]
    intro hne
    rw [h.2 _ (List.getLast?_eq_some_getLast hne)]
    exact Bool.false_ne_true
  show (s.dropWhile isBlank).rdropWhile isBlank = s
  rw [hbegin, hend]

/-- A trimmed text begins with the first character that is no white space. -/
theorem head_trim_chars (s : List Char) :
    (trimChars s).head? = s.find? fun c => !isBlank c := by
  have hfirst : s.find? (fun c => !isBlank c) = (s.dropWhile isBlank).head? :=
    List.find?_not_eq_head?_dropWhile isBlank s
  rw [hfirst]
  cases htrim : trimChars s with
  | nil =>
      have hall := List.all_eq_true.mp (trim_chars_eq_nil_iff.mp htrim)
      rw [List.dropWhile_eq_nil_iff.mpr hall]
  | cons c cs =>
      obtain ⟨rest, hrest⟩ : trimChars s <+: s.dropWhile isBlank := List.rdropWhile_prefix _ _
      rw [← hrest, htrim]
      rfl

/-- What is chosen among the other characters does not depend on the white space dropped. -/
theorem filter_drop_while_blank {p : Char → Bool} (hp : ∀ c, p c = true → isBlank c = false)
    (s : List Char) : (s.dropWhile isBlank).filter p = s.filter p := by
  induction s with
  | nil => rfl
  | cons c s ih =>
      cases hc : isBlank c with
      | false => rw [List.dropWhile_cons_of_neg (by rw [hc]; exact Bool.false_ne_true)]
      | true =>
          have hnot : ¬p c = true := by
            intro hpc
            rw [hp c hpc] at hc
            cases hc
          rw [List.dropWhile_cons_of_pos hc, ih, List.filter_cons_of_neg hnot]

/-- Trimming does not change what is chosen among the other characters. -/
theorem filter_trim_chars {p : Char → Bool} (hp : ∀ c, p c = true → isBlank c = false)
    (s : List Char) : (trimChars s).filter p = s.filter p := by
  rw [trimChars, List.filter_reverse, filter_drop_while_blank hp, List.filter_reverse,
    List.reverse_reverse, filter_drop_while_blank hp]

/-- What stands between two trimmed texts that are not empty does not matter. -/
theorem Trimmed.append {s t : List Char} (hs : Trimmed s) (ht : Trimmed t) (hs' : s ≠ [])
    (ht' : t ≠ []) (between : List Char) : Trimmed (s ++ between ++ t) := by
  constructor
  · intro c hc
    rw [List.append_assoc, List.head?_append_of_ne_nil _ hs'] at hc
    exact hs.1 c hc
  · intro c hc
    rw [List.getLast?_append_of_ne_nil _ ht'] at hc
    exact ht.2 c hc

end CustomerDedupe.Text
