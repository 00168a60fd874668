import Mathlib.Data.String.Basic
import CustomerDedupe.Proofs.Text.Numeral
import CustomerDedupe.Url.Basic

/-!
# Reading forms

Names and values in the form encoding of a query are found again: cut at its ampersands and at
the first equals sign of each part, with plus signs read as spaces and percent encoding undone,
the query gives the bytes of the same names and values in the same order (`read_form_pairs`).
No value has more bytes than the query (`size_le_form_pairs`).
-/

namespace CustomerDedupe.Url

/-- The bytes that a text in the form encoding stands for. -/
def readForm (s : List Char) : List UInt8 :=
  percentDecode (s.map fun c => if c == '+' then 0x20 else UInt8.ofNat c.toNat)

/-- Name and value of a part of a query. -/
def readPair (part : List Char) : List UInt8 × List UInt8 :=
  match Text.splitAt '=' part with
  | [] => ([], [])
  | name :: value => (readForm name, readForm (List.intercalate ['='] value))

/-- The names and values of a query, in order. -/
def readPairs (query : List Char) : List (List UInt8 × List UInt8) :=
  ((Text.splitAt '&' query).filter fun part => !part.isEmpty).map readPair

/-- A byte in the form encoding. -/
def formByte (b : UInt8) : List Char :=
  if isFormByte b then [Char.ofNat b.toNat] else if b == 0x20 then ['+'] else percentByte b

theorem form_encode_eq (s : String) : formEncode s = (Text.Utf8.encode s).flatMap formByte := rfl

theorem percent_decode_cons_of_ne {b : UInt8} (h : b ≠ 0x25) (rest : List UInt8) :
    percentDecode (b :: rest) = b :: percentDecode rest := by
  have hne : (b == 0x25) = false := beq_false_of_ne h
  rcases rest with _ | ⟨x, _ | ⟨y, more⟩⟩ <;> simp [percentDecode, hne]

/-- The two digits of a byte are read as the byte. -/
theorem percent_decode_digits (b : UInt8) (rest : List UInt8) :
    percentDecode ((percentByte b).map (fun c => UInt8.ofNat c.toNat) ++ rest) =
      b :: percentDecode rest := by
  have hdigit : ∀ n < 16, Text.hexValue?
      (Char.ofNat (UInt8.ofNat (Text.upperHexDigit n).toNat).toNat) = some n := by decide
  have hb : b.toNat < 256 := b.toNat_lt
  have hhigh := hdigit (b.toNat / 16) (by omega)
  have hlow := hdigit (b.toNat % 16) (by omega)
  simp only [percentByte, List.map_cons, List.map_nil, List.cons_append, List.nil_append]
  rw [percentDecode, if_pos (by decide)]
  simp only [hhigh, hlow]
  rw [Nat.div_add_mod', UInt8.ofNat_toNat]

theorem form_byte_cases (b : UInt8) :
    (formByte b = percentByte b) ∨
      ∃ c, formByte b = [c] ∧ c ≠ '&' ∧ c ≠ '=' ∧
        (if c == '+' then 0x20 else UInt8.ofNat c.toNat) = b ∧ b ≠ 0x25 := by
  have hall : ∀ n < 256, isFormByte (UInt8.ofNat n) = true →
      Char.ofNat n ≠ '&' ∧ Char.ofNat n ≠ '=' ∧ Char.ofNat n ≠ '+' ∧ n ≠ 0x25 ∧
        UInt8.ofNat (Char.ofNat n).toNat = UInt8.ofNat n := by decide +kernel
  unfold formByte
  split
  · rename_i hform
    have h := hall b.toNat b.toNat_lt
    rw [UInt8.ofNat_toNat] at h
    obtain ⟨hand, heq, hplus, hpercent, hback⟩ := h hform
    refine .inr ⟨Char.ofNat b.toNat, rfl, hand, heq, ?_, fun h => hpercent (h ▸ rfl)⟩
    rw [beq_false_of_ne hplus, if_neg Bool.false_ne_true, hback]
  · split
    · rename_i hspace
      obtain rfl := eq_of_beq hspace
      exact .inr ⟨'+', rfl, by decide, by decide, rfl, by decide⟩
    · exact .inl rfl

theorem digits_plain (b : UInt8) :
    ∀ c ∈ percentByte b, c ≠ '&' ∧ c ≠ '=' ∧ c ≠ '+' := by
  have hdigit : ∀ n < 16, Text.upperHexDigit n ≠ '&' ∧ Text.upperHexDigit n ≠ '=' ∧
      Text.upperHexDigit n ≠ '+' := by decide
  have hb : b.toNat < 256 := b.toNat_lt
  intro c hc
  rcases List.mem_cons.1 hc with rfl | hc
  · decide
  rcases List.mem_cons.1 hc with rfl | hc
  · exact hdigit _ (by omega)
  rw [List.mem_singleton.1 hc]
  exact hdigit _ (by omega)

/-- Neither ampersands nor equals signs stand in a text in the form encoding. -/
theorem form_encode_plain (s : String) : ∀ c ∈ formEncode s, c ≠ '&' ∧ c ≠ '=' := by
  intro c hc
  rw [form_encode_eq] at hc
  obtain ⟨b, -, hcb⟩ := List.mem_flatMap.1 hc
  rcases form_byte_cases b with h | ⟨d, h, hand, heq, -⟩
  · rw [h] at hcb
    exact ⟨(digits_plain b c hcb).1, (digits_plain b c hcb).2.1⟩
  · rw [h, List.mem_singleton] at hcb
    exact hcb ▸ ⟨hand, heq⟩

/-- A text in the form encoding stands for its bytes. -/
theorem read_form_encode (s : String) : readForm (formEncode s) = Text.Utf8.encode s := by
  rw [form_encode_eq, readForm]
  induction Text.Utf8.encode s with
  | nil => rfl
  | cons b bytes ih =>
      rw [List.flatMap_cons, List.map_append]
      rcases form_byte_cases b with h | ⟨c, h, -, -, hback, hne⟩
      · have hdigits : ((percentByte b).map fun c => if c == '+' then 0x20 else UInt8.ofNat c.toNat)
            = (percentByte b).map fun c => UInt8.ofNat c.toNat := by
          refine List.map_congr_left fun c hc => ?_
          rw [beq_false_of_ne (digits_plain b c hc).2.2, if_neg Bool.false_ne_true]
        rw [h, hdigits, percent_decode_digits, ih]
      · rw [h, List.map_singleton, hback, List.singleton_append, percent_decode_cons_of_ne hne, ih]

/-- A name and its value as a part of a query. -/
def pairText (pair : String × String) : List Char :=
  formEncode pair.1 ++ '=' :: formEncode pair.2

theorem read_pair_text (pair : String × String) :
    readPair (pairText pair) = (Text.Utf8.encode pair.1, Text.Utf8.encode pair.2) := by
  have hname : '=' ∉ formEncode pair.1 := fun h => (form_encode_plain _ _ h).2 rfl
  have hvalue : '=' ∉ formEncode pair.2 := fun h => (form_encode_plain _ _ h).2 rfl
  rw [readPair, pairText, Text.split_at_append_sep hname, Text.split_at_of_not_mem hvalue]
  simp only [List.intercalate_singleton, read_form_encode]

/-- Names and values are found again in their query. -/
theorem read_form_pairs (pairs : List (String × String)) :
    readPairs (formPairs pairs) =
      pairs.map fun p => (Text.Utf8.encode p.1, Text.Utf8.encode p.2) := by
  rcases pairs with _ | ⟨pair, pairs⟩
  · rfl
  have hand : ∀ part ∈ (pair :: pairs).map pairText, '&' ∉ part := by
    intro part hpart hmem
    obtain ⟨p, -, rfl⟩ := List.mem_map.1 hpart
    rcases List.mem_append.1 hmem with h | h
    · exact (form_encode_plain _ _ h).1 rfl
    · rcases List.mem_cons.1 h with h | h
      · exact absurd h (by decide)
      · exact (form_encode_plain _ _ h).1 rfl
  have hsplit : Text.splitAt '&' (formPairs (pair :: pairs)) = (pair :: pairs).map pairText :=
    Text.split_at_intercalate (by simp) hand
  have hfull : ((pair :: pairs).map pairText).filter (fun part => !part.isEmpty) =
      (pair :: pairs).map pairText := by
    refine List.filter_eq_self.2 fun part hpart => ?_
    obtain ⟨p, -, rfl⟩ := List.mem_map.1 hpart
    simp [pairText]
  rw [readPairs, hsplit, hfull, List.map_map]
  exact List.map_congr_left fun p _ => read_pair_text p

/-! ## The length of a query -/

theorem length_to_list_loop (bytes : ByteArray) (i : Nat) (before : List UInt8) :
    (ByteArray.toList.loop bytes i before).length = before.length + (bytes.size - i) := by
  induction i, before using ByteArray.toList.loop.induct bytes with
  | case1 i before h ih =>
      rw [ByteArray.toList.loop, if_pos h, ih, List.length_cons]
      omega
  | case2 i before h =>
      rw [ByteArray.toList.loop, if_neg h, List.length_reverse]
      omega

theorem length_encode (s : String) : (Text.Utf8.encode s).length = s.utf8ByteSize := by
  rw [Text.Utf8.encode, ByteArray.toList, length_to_list_loop, List.length_nil, Nat.zero_add]
  rfl

theorem form_byte_length_pos (b : UInt8) : 0 < (formByte b).length := by
  rcases form_byte_cases b with h | ⟨c, h, -⟩
  · rw [h, percentByte]
    exact Nat.zero_lt_succ _
  · rw [h]
    exact Nat.zero_lt_succ _

/-- The form encoding shortens no text. -/
theorem size_le_form_encode (s : String) : s.utf8ByteSize ≤ (formEncode s).length := by
  rw [form_encode_eq, ← length_encode]
  induction Text.Utf8.encode s with
  | nil => exact Nat.le_refl 0
  | cons b bytes ih =>
      have hpos := form_byte_length_pos b
      rw [List.flatMap_cons, List.length_append, List.length_cons]
      omega

theorem length_le_intercalate {α : Type} (sep : List α) {parts : List (List α)} {part : List α}
    (h : part ∈ parts) : part.length ≤ (List.intercalate sep parts).length := by
  induction parts with
  | nil => cases h
  | cons first rest ih =>
      rcases rest with _ | ⟨second, rest⟩
      · rw [List.mem_singleton.1 h, List.intercalate_singleton]
      · rw [List.intercalate_cons_cons, List.length_append, List.length_append]
        rcases List.mem_cons.1 h with rfl | h
        · omega
        · have hrest := ih h
          omega

/-- A query is no shorter than the values in it. -/
theorem size_le_form_pairs {pairs : List (String × String)} {pair : String × String}
    (h : pair ∈ pairs) : pair.2.utf8ByteSize ≤ (formPairs pairs).length := by
  have hvalue := size_le_form_encode pair.2
  have hpair : pair.2.utf8ByteSize ≤ (pairText pair).length := by
    rw [pairText, List.length_append, List.length_cons]
    omega
  exact hpair.trans (length_le_intercalate ['&'] (List.mem_map_of_mem h))

theorem length_le_size (s : String) : s.length ≤ s.utf8ByteSize := by
  rw [← String.length_toList, ← String.utf8Len_toList]
  induction s.toList with
  | nil => exact Nat.le_refl 0
  | cons c cs ih =>
      have hpos := c.utf8Size_pos
      rw [List.length_cons, String.utf8Len_cons]
      omega

theorem without_user_query (u : Url) : u.withoutUser.query = u.query := by
  unfold withoutUser
  split
  · rfl
  · split <;> rfl

/-- An address is no shorter than its query. -/
theorem query_length_le_size {u : Url} {query : List Char} (h : u.query = some query) :
    query.length ≤ u.text.utf8ByteSize := by
  refine Nat.le_trans ?_ (length_le_size _)
  rw [text, String.length_ofList, queryChars, h]
  simp only [List.length_append, List.length_cons]
  omega

end CustomerDedupe.Url
