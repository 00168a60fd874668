import CustomerDedupe.Duplicates.Keys
import CustomerDedupe.Proofs.Text.EditDistance

/-!
# Similar names

Names are similar if at most two edits lead from one to the other once white space and case are
taken away (`names_similar_iff_edits`). So names that agree but for white space can stand for each
other. `names_similar_two_edits` puts together what follows.
-/

namespace CustomerDedupe.Duplicates

variable {a b : Option String}

/-- Names are similar exactly if at most two edits lead from one to the other in their normal
form. -/
theorem names_similar_iff_edits :
    namesSimilar a b = true ↔ Text.Edits 2 (normalizeName a) (normalizeName b) := by
  rw [namesSimilar, decide_eq_true_eq, nameDistanceLimit, Text.distance_le_iff]

theorem names_similar_comm (a b : Option String) : namesSimilar a b = namesSimilar b a := by
  rw [Bool.eq_iff_iff, names_similar_iff_edits, names_similar_iff_edits]
  exact ⟨Text.Edits.symm, Text.Edits.symm⟩

/-- Two names, missing ones being empty, consist of the same characters in the same order but for
white space. -/
def SameButBlanks (a b : Option String) : Prop :=
  Text.withoutBlanks (a.getD "").toList = Text.withoutBlanks (b.getD "").toList

instance (a b : Option String) : Decidable (SameButBlanks a b) :=
  inferInstanceAs (Decidable (_ = _))

/-- White space does not matter to the normal form of a name. -/
theorem SameButBlanks.normalize_name_eq (h : SameButBlanks a b) :
    normalizeName a = normalizeName b :=
  congrArg Text.lowerChars h

/-- White space can be inserted anywhere. -/
theorem same_but_blanks_insert (front rest : String) {blanks : String}
    (h : Text.isBlankText blanks = true) :
    SameButBlanks (some (front ++ blanks ++ rest)) (some (front ++ rest)) := by
  have hnothing : Text.withoutBlanks blanks.toList = [] := by
    rw [Text.withoutBlanks, List.filter_eq_nil_iff]
    intro c hc
    rw [List.all_eq_true.mp h c hc]
    exact Bool.false_ne_true
  simp only [SameButBlanks, Option.getD_some, String.toList_append, Text.withoutBlanks,
    List.filter_append] at hnothing ⊢
  rw [hnothing, List.append_nil]

/-- Names of which one is longer by more than two characters in its normal form are not similar. -/
theorem not_names_similar_of_longer
    (h : (normalizeName b).length + 2 < (normalizeName a).length) : namesSimilar a b = false := by
  rw [← Bool.not_eq_true, names_similar_iff_edits]
  intro hedits
  exact absurd hedits.length_le (Nat.not_le_of_lt h)

/-- Two names, of which any may be missing, are similar exactly if at most two characters have to be
inserted, deleted or replaced to turn one into the other in their normal form. So it does not matter
which of them comes first, names that agree but for white space are similar, white space inserted
anywhere in one of them changes nothing, and names whose normal forms differ in length by more than
two are not similar. -/
theorem names_similar_two_edits :
    (∀ a b, namesSimilar a b = true ↔ Text.Edits 2 (normalizeName a) (normalizeName b)) ∧
    (∀ a b, namesSimilar a b = namesSimilar b a) ∧
    (∀ a b, SameButBlanks a b → namesSimilar a b = true) ∧
    (∀ front blanks rest, Text.isBlankText blanks = true → ∀ other,
      namesSimilar (some (front ++ blanks ++ rest)) other =
          namesSimilar (some (front ++ rest)) other ∧
        namesSimilar other (some (front ++ blanks ++ rest)) =
          namesSimilar other (some (front ++ rest))) ∧
    ∀ a b, (normalizeName a).length + 2 < (normalizeName b).length ∨
        (normalizeName b).length + 2 < (normalizeName a).length → namesSimilar a b = false := by
  refine ⟨fun _ _ => names_similar_iff_edits, names_similar_comm, ?_, ?_, ?_⟩
  · intro a b hsame
    rw [names_similar_iff_edits, hsame.normalize_name_eq]
    exact .done 2 _
  · intro front blanks rest hblanks other
    have hname := (same_but_blanks_insert front rest hblanks).normalize_name_eq
    rw [namesSimilar, namesSimilar, namesSimilar, namesSimilar, hname]
    exact ⟨rfl, rfl⟩
  · rintro a b (hlonger | hlonger)
    · rw [names_similar_comm]
      exact not_names_similar_of_longer hlonger
    · exact not_names_similar_of_longer hlonger

/-- Spellings of a name that differ in white space, in case and in one letter. -/
theorem spellings_of_name_similar :
    Text.Edits 2 (normalizeName (some "Kim Minsu")) (normalizeName (some "kim minso")) ∧
      SameButBlanks (some " Kim Minsu") (some "KimMinsu\t") ∧
      namesSimilar (some " Kim Minsu") (some "KimMinsu\t") = true ∧
      Text.isBlankText "\u3000 " = true ∧
      namesSimilar (some ("Kim" ++ "\u3000 " ++ "Minsu")) (some "kim minso") = true ∧
      (normalizeName none).length + 2 < (normalizeName (some "Kim")).length ∧
      namesSimilar none (some "Kim") = false := by
  obtain ⟨hedits, -, hsame, hinsert, hlonger⟩ := names_similar_two_edits
  have hblanks : SameButBlanks (some " Kim Minsu") (some "KimMinsu\t") := by decide
  have hlength : (normalizeName none).length + 2 < (normalizeName (some "Kim")).length := by decide
  refine ⟨(hedits _ _).mp (by decide), hblanks, hsame _ _ hblanks, by decide, ?_, hlength,
    hlonger _ _ (.inl hlength)⟩
  rw [(hinsert "Kim" "\u3000 " "Minsu" (by decide) _).1]
  decide

end CustomerDedupe.Duplicates
