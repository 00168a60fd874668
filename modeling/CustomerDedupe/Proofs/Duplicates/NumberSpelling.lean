import CustomerDedupe.Proofs.Duplicates.Keys
import CustomerDedupe.Proofs.Text.Blank

/-!
# Spellings of a phone number

The key of a phone number depends on two things in its text: the digits, and whether the first
character that is no white space is a plus sign (`number_digits_eq`). Whatever leaves these two
alone leaves the key alone. The main result, `number_spellings_share_key`, says so of inserted
characters and compares the domestic with the international spellings of a number.
-/

namespace CustomerDedupe.Duplicates

/-- The digits in a text. -/
def writtenDigits (s : List Char) : List Char :=
  s.filter Char.isDigit

/-- The first character of a text that is no white space. -/
def firstVisible (s : List Char) : Option Char :=
  s.find? fun c => !Text.isBlank c

/-! ## What a key depends on -/

/-- The key of a number is made of its digits and of what it begins with. -/
theorem number_digits_eq (s : List Char) :
    numberDigits s =
      if firstVisible s = some '+' then domestic (writtenDigits s) else writtenDigits s := by
  have hdigits : (Text.trimChars s).filter Char.isDigit = writtenDigits s :=
    Text.filter_trim_chars (fun _ hc => Text.digit_not_blank hc) s
  have hfirst : (Text.trimChars s).head? = firstVisible s := Text.head_trim_chars s
  unfold numberDigits
  simp only [hdigits, hfirst]

/-- Texts with the same digits and the same beginning have the same key. -/
theorem number_digits_congr {s t : List Char} (hfirst : firstVisible s = firstVisible t)
    (hdigits : writtenDigits s = writtenDigits t) : numberDigits s = numberDigits t := by
  rw [number_digits_eq, number_digits_eq, hfirst, hdigits]

/-- A number that does not begin with a plus sign has its digits for a key. -/
theorem number_digits_of_no_plus {s : List Char} (h : firstVisible s ≠ some '+') :
    numberDigits s = writtenDigits s := by
  rw [number_digits_eq, if_neg h]

/-- Digits are their own key. -/
theorem number_digits_of_digits {ds : List Char} (h : ∀ c ∈ ds, c.isDigit = true) :
    numberDigits ds = ds := by
  have hplus : firstVisible ds ≠ some '+' := by
    intro hfirst
    exact absurd (h _ (List.mem_of_find?_eq_some hfirst)) (by decide)
  rw [number_digits_of_no_plus hplus, writtenDigits, List.filter_eq_self.mpr h]

/-- The text of a key has that key. -/
theorem normalize_digits_of_key (number : Option String) :
    normalizeDigits (some (String.ofList (normalizeDigits number))) = normalizeDigits number := by
  have hdigits : ∀ c ∈ normalizeDigits number, c.isDigit = true :=
    fun _ hc => is_digit_of_mem_normalize_digits hc
  rw [normalizeDigits, Option.getD_some, String.toList_ofList, number_digits_of_digits hdigits]

/-! ## Inserted characters -/

/-- A character other than a digit does not count among the digits. -/
theorem written_digits_insert {c : Char} (hc : c.isDigit = false) (s t : List Char) :
    writtenDigits (s ++ c :: t) = writtenDigits (s ++ t) := by
  have hnot : ¬c.isDigit = true := by rw [hc]; exact Bool.false_ne_true
  simp only [writtenDigits, List.filter_append, List.filter_cons_of_neg hnot]

/-- White space does not change the key, wherever it stands. -/
theorem number_digits_insert_blank {c : Char} (hc : Text.isBlank c = true) (s t : List Char) :
    numberDigits (s ++ c :: t) = numberDigits (s ++ t) := by
  have hdigit : c.isDigit = false := by
    cases hc' : c.isDigit with
    | false => rfl
    | true =>
        rw [Text.digit_not_blank hc'] at hc
        cases hc
  refine number_digits_congr ?_ (written_digits_insert hdigit s t)
  have hskip : firstVisible (c :: t) = firstVisible t :=
    List.find?_cons_of_neg (by simp only [hc, Bool.not_true, Bool.false_eq_true, not_false_eq_true])
  unfold firstVisible at hskip ⊢
  rw [List.find?_append, List.find?_append, hskip]

/-- A character that is no digit does not change the key behind the beginning of a number. -/
theorem number_digits_insert_other {c : Char} (hc : c.isDigit = false) {s : List Char}
    (hs : ∃ d ∈ s, Text.isBlank d = false) (t : List Char) :
    numberDigits (s ++ c :: t) = numberDigits (s ++ t) := by
  refine number_digits_congr ?_ (written_digits_insert hc s t)
  have hfirst : (s.find? fun d => !Text.isBlank d).isSome = true := by
    obtain ⟨d, hd, hblank⟩ := hs
    exact List.find?_isSome.mpr ⟨d, hd, by rw [hblank]; rfl⟩
  rw [firstVisible, firstVisible, List.find?_append, List.find?_append, Option.or_of_isSome hfirst,
    Option.or_of_isSome hfirst]

/-! ## The country code -/

/-- The country code gives way to a zero, unless there is one already. -/
theorem domestic_of_country (ds : List Char) :
    domestic ('8' :: '2' :: ds) = if ds.head? = some '0' then ds else '0' :: ds := by
  cases ds with
  | nil => rfl
  | cons d ds =>
      by_cases hd : d = '0'
      · subst hd
        rfl
      · have hhead : ¬(d :: ds).head? = some '0' := fun h => hd (Option.some.inj h)
        rw [if_neg hhead, domestic]
        intro rest heq
        exact hd (List.cons.inj heq).1

/-- The key of a number behind plus sign and country code. -/
theorem number_digits_of_country (s : List Char) :
    numberDigits ('+' :: '8' :: '2' :: s) =
      if (writtenDigits s).head? = some '0' then writtenDigits s else '0' :: writtenDigits s := by
  rw [← domestic_of_country, number_digits_eq]
  rfl

/-- The first zero of a number that begins with zero is its first digit. -/
theorem written_digits_erase_zero {s ds : List Char} (h : writtenDigits s = '0' :: ds) :
    writtenDigits (s.erase '0') = ds := by
  rw [writtenDigits, ← List.erase_filter]
  rw [writtenDigits] at h
  rw [h, List.erase_cons_head]

/-- A number that begins with zero is read as before behind plus sign and country code. -/
theorem number_digits_of_country_zero {s : List Char} (hplus : firstVisible s ≠ some '+')
    {ds : List Char} (hzero : writtenDigits s = '0' :: ds) :
    numberDigits ('+' :: '8' :: '2' :: s) = numberDigits s := by
  rw [number_digits_of_country, number_digits_of_no_plus hplus, hzero]
  rfl

/-- The country code may take the place of the first zero, unless a second one follows. -/
theorem number_digits_of_country_for_zero {s : List Char} (hplus : firstVisible s ≠ some '+')
    {ds : List Char} (hzero : writtenDigits s = '0' :: ds) (hnext : ds.head? ≠ some '0') :
    numberDigits ('+' :: '8' :: '2' :: s.erase '0') = numberDigits s := by
  rw [number_digits_of_country, number_digits_of_no_plus hplus, written_digits_erase_zero hzero,
    if_neg hnext, hzero]

/-! ## The last four digits -/

/-- Numbers with the same key have the same last four digits. -/
theorem last_four_congr {m n : Option String} (h : normalizeDigits m = normalizeDigits n) :
    lastFour m = lastFour n := by
  unfold lastFour
  rw [h]

/-- The last four digits are the end of the key. -/
theorem last_four_suffix (n : Option String) : lastFour n <:+ normalizeDigits n :=
  List.drop_suffix _ _

/-- There are four last digits, or as many as there are digits. -/
theorem length_last_four (n : Option String) :
    (lastFour n).length = min 4 (normalizeDigits n).length := by
  simp only [lastFour, List.length_drop]
  omega

/-! ## Spellings -/

/-- Spellings of one phone number share one key. A key consists of digits and is its own key.
White space may be inserted anywhere, and all but digits behind the first character that is no
white space. Behind plus sign and country code stand the digits of the key, up to a zero in front.
So a number whose digits begin with zero has the same key there, and also without this zero if no
second one follows. Numbers with the same key have the same last four digits, which are the end of
the key. -/
theorem number_spellings_share_key :
    (∀ n : Option String, (∀ c ∈ normalizeDigits n, c.isDigit = true) ∧
      normalizeDigits (some (String.ofList (normalizeDigits n))) = normalizeDigits n) ∧
    (∀ (s t : String) (c : Char),
      Text.isBlank c = true ∨ c.isDigit = false ∧ (∃ d ∈ s.toList, Text.isBlank d = false) →
      normalizeDigits (some (s.push c ++ t)) = normalizeDigits (some (s ++ t))) ∧
    (∀ t : String, normalizeDigits (some ("+82" ++ t)) =
      if (writtenDigits t.toList).head? = some '0' then writtenDigits t.toList
      else '0' :: writtenDigits t.toList) ∧
    (∀ t : String, (Text.trimChars t.toList).head? ≠ some '+' →
      ∀ ds, writtenDigits t.toList = '0' :: ds →
      normalizeDigits (some ("+82" ++ t)) = normalizeDigits (some t) ∧
      (ds.head? ≠ some '0' →
        normalizeDigits (some ("+82" ++ String.ofList (t.toList.erase '0'))) =
          normalizeDigits (some t))) ∧
    (∀ m n : Option String, normalizeDigits m = normalizeDigits n → lastFour m = lastFour n) ∧
    (∀ n : Option String, lastFour n <:+ normalizeDigits n ∧
      (lastFour n).length = min 4 (normalizeDigits n).length) := by
  have hcountry : ∀ t : String, normalizeDigits (some ("+82" ++ t)) =
      numberDigits ('+' :: '8' :: '2' :: t.toList) := by
    intro t
    rw [normalizeDigits, Option.getD_some, String.toList_append]
    rfl
  refine ⟨fun n => ⟨fun c hc => is_digit_of_mem_normalize_digits hc, normalize_digits_of_key n⟩,
    ?_, ?_, ?_, fun m n h => last_four_congr h, fun n => ⟨last_four_suffix n, length_last_four n⟩⟩
  · intro s t c hc
    rw [normalizeDigits, normalizeDigits, Option.getD_some, Option.getD_some, String.toList_append,
      String.toList_push, String.toList_append, List.append_assoc, List.singleton_append]
    rcases hc with hblank | ⟨hdigit, hs⟩
    · exact number_digits_insert_blank hblank _ _
    · exact number_digits_insert_other hdigit hs _
  · intro t
    rw [hcountry, number_digits_of_country]
  · intro t hplus ds hzero
    rw [Text.head_trim_chars] at hplus
    refine ⟨?_, fun hnext => ?_⟩
    · rw [hcountry]
      exact number_digits_of_country_zero hplus hzero
    · rw [hcountry, String.toList_ofList]
      exact number_digits_of_country_for_zero hplus hzero hnext

/-- The same number is written with a hyphen more, behind plus sign and country code, and with
the country code for its zero. -/
theorem spellings_of_one_number :
    let t := "010-12345678"
    (∃ d ∈ "010-1234".toList, Text.isBlank d = false) ∧
      (Text.trimChars t.toList).head? ≠ some '+' ∧
      writtenDigits t.toList = '0' :: "1012345678".toList ∧
      normalizeDigits (some ("010-1234".push '-' ++ "5678")) = normalizeDigits (some t) ∧
      normalizeDigits (some ("+82" ++ t)) = normalizeDigits (some t) ∧
      normalizeDigits (some ("+82" ++ String.ofList (t.toList.erase '0'))) =
        normalizeDigits (some t) ∧
      lastFour (some ("+82" ++ t)) = lastFour (some t) := by
  intro t
  have hvisible : ∃ d ∈ "010-1234".toList, Text.isBlank d = false := ⟨'0', by decide +kernel⟩
  have hplus : (Text.trimChars t.toList).head? ≠ some '+' := by decide +kernel
  have hzero : writtenDigits t.toList = '0' :: "1012345678".toList := by decide +kernel
  obtain ⟨-, hinsert, -, hdomestic, hlast, -⟩ := number_spellings_share_key
  obtain ⟨hsame, hshort⟩ := hdomestic t hplus _ hzero
  exact ⟨hvisible, hplus, hzero, hinsert "010-1234" "5678" '-' (.inr ⟨by decide, hvisible⟩), hsame,
    hshort (by decide +kernel), hlast _ _ hsame⟩

end CustomerDedupe.Duplicates
