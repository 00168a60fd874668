import CustomerDedupe.Text.EditDistance

/-!
# Edits and alignments

An edit inserts, deletes or replaces one element of a list anywhere. That some number of edits lead
from one list to another is not said by a recursion over the lists; that they can be aligned with as
many differing columns is. Both say the same (`aligned_iff_edits`): an alignment is carried out from
its end, and an edit before an alignment costs one column more (`Edit.aligned`).
-/

namespace CustomerDedupe.Text

variable {α : Type} {n : Nat} {s t u : List α} {a b : α}

/-- One insertion, deletion or replacement of an element. -/
inductive Edit : List α → List α → Prop
  | insert (front : List α) (x : α) (rest : List α) : Edit (front ++ rest) (front ++ x :: rest)
  | delete (front : List α) (x : α) (rest : List α) : Edit (front ++ x :: rest) (front ++ rest)
  | replace (front : List α) (x y : α) (rest : List α) :
      Edit (front ++ x :: rest) (front ++ y :: rest)

/-- At most `n` edits, one after another, lead from a list to another. -/
inductive Edits : Nat → List α → List α → Prop
  | done (n : Nat) (s : List α) : Edits n s s
  | step {n : Nat} {s u t : List α} (first : Edit s u) (rest : Edits n u t) : Edits (n + 1) s t

/-- Two lists can be written below each other, with gaps in both, such that at most `n` columns
differ. -/
inductive Aligned : Nat → List α → List α → Prop
  | nil (n : Nat) : Aligned n [] []
  | keep {n : Nat} {s t : List α} (a : α) (h : Aligned n s t) : Aligned n (a :: s) (a :: t)
  | insert {n : Nat} {s t : List α} (b : α) (h : Aligned n s t) : Aligned (n + 1) s (b :: t)
  | delete {n : Nat} {s t : List α} (a : α) (h : Aligned n s t) : Aligned (n + 1) (a :: s) t
  | replace {n : Nat} {s t : List α} (a b : α) (h : Aligned n s t) :
      Aligned (n + 1) (a :: s) (b :: t)

/-! ## Edits -/

namespace Edit

/-- An edit does not mind what stands in front. -/
theorem cons (a : α) (h : Edit s t) : Edit (a :: s) (a :: t) := by
  cases h with
  | insert front x rest => exact .insert (a :: front) x rest
  | delete front x rest => exact .delete (a :: front) x rest
  | replace front x y rest => exact .replace (a :: front) x y rest

/-- An edit of a list is one of the list read backwards. -/
theorem reverse (h : Edit s t) : Edit s.reverse t.reverse := by
  cases h with
  | insert front x rest => simpa using insert rest.reverse x front.reverse
  | delete front x rest => simpa using delete rest.reverse x front.reverse
  | replace front x y rest => simpa using replace rest.reverse x y front.reverse

/-- An edit concerns the first element of its result, puts it there, or leaves it alone. -/
theorem cons_right_cases (h : Edit s (a :: u)) :
    s = u ∨ (∃ x, s = x :: a :: u) ∨ (∃ x, s = x :: u) ∨ ∃ s', s = a :: s' ∧ Edit s' u := by
  generalize hresult : a :: u = result at h
  cases h with
  | insert front x rest =>
      cases front with
      | nil =>
          obtain ⟨rfl, rfl⟩ := List.cons.inj hresult
          exact .inl rfl
      | cons c front =>
          obtain ⟨rfl, rfl⟩ := List.cons.inj hresult
          exact .inr (.inr (.inr ⟨_, rfl, .insert front x rest⟩))
  | delete front x rest =>
      cases front with
      | nil =>
          obtain rfl : a :: u = rest := hresult
          exact .inr (.inl ⟨x, rfl⟩)
      | cons c front =>
          obtain ⟨rfl, rfl⟩ := List.cons.inj hresult
          exact .inr (.inr (.inr ⟨_, rfl, .delete front x rest⟩))
  | replace front x y rest =>
      cases front with
      | nil =>
          obtain ⟨rfl, rfl⟩ := List.cons.inj hresult
          exact .inr (.inr (.inl ⟨x, rfl⟩))
      | cons c front =>
          obtain ⟨rfl, rfl⟩ := List.cons.inj hresult
          exact .inr (.inr (.inr ⟨_, rfl, .replace front x y rest⟩))

/-- Only a deletion leaves nothing. -/
theorem nil_right (h : Edit s []) : ∃ x, s = [x] := by
  generalize hresult : [] = result at h
  cases h with
  | insert front x rest => simp at hresult
  | delete front x rest =>
      obtain ⟨rfl, rfl⟩ := List.nil_eq_append_iff.mp hresult
      exact ⟨x, rfl⟩
  | replace front x y rest => simp at hresult

end Edit

namespace Edits

/-- Edits do not mind what stands in front. -/
theorem cons (a : α) (h : Edits n s t) : Edits n (a :: s) (a :: t) := by
  induction h with
  | done n s => exact .done n (a :: s)
  | step first rest ih => exact .step (first.cons a) ih

/-- Edits of a list are edits of the list read backwards. -/
theorem reverse (h : Edits n s t) : Edits n s.reverse t.reverse := by
  induction h with
  | done n s => exact .done n s.reverse
  | step first rest ih => exact .step first.reverse ih

end Edits

/-! ## Alignments -/

namespace Aligned

/-- One more column may differ. -/
theorem succ (h : Aligned n s t) : Aligned (n + 1) s t := by
  induction h with
  | nil n => exact .nil (n + 1)
  | keep a h ih => exact .keep a ih
  | insert b h ih => exact .insert b ih
  | delete a h ih => exact .delete a ih
  | replace a b h ih => exact .replace a b ih

/-- A list is aligned with itself without gaps. -/
theorem refl (n : Nat) (s : List α) : Aligned n s s := by
  induction s with
  | nil => exact .nil n
  | cons a s ih => exact .keep a ih

/-- An alignment is one the other way round. -/
theorem symm (h : Aligned n s t) : Aligned n t s := by
  induction h with
  | nil n => exact .nil n
  | keep a h ih => exact .keep a ih
  | insert b h ih => exact .delete b ih
  | delete a h ih => exact .insert a ih
  | replace a b h ih => exact .replace b a ih

/-- Each element that one list is longer takes a column that differs. -/
theorem length_le (h : Aligned n s t) : s.length ≤ t.length + n := by
  induction h with
  | nil n => exact Nat.zero_le _
  | keep a h ih | insert b h ih | delete a h ih | replace a b h ih =>
      simp only [List.length_cons]
      omega

/-- An alignment is carried out by as many edits as it has columns that differ. -/
theorem edits (h : Aligned n s t) : Edits n s t := by
  induction h with
  | nil n => exact .done n []
  | keep a h ih => exact ih.cons a
  | @insert n s t b h ih => exact .step (.insert [] b s) (ih.cons b)
  | @delete n s t a h ih => exact .step (.delete [] a s) ih
  | @replace n s t a b h ih => exact .step (.replace [] a b s) (ih.cons b)

end Aligned

/-- After an edit, a list is aligned with at most one column more. -/
theorem Edit.aligned (first : Edit s u) (h : Aligned n u t) : Aligned (n + 1) s t := by
  -- the induction is on the alignment; where it goes on behind an element of the edited list, the
  -- edit has either concerned this element or goes on behind it as well
  induction h generalizing s with
  | nil n =>
      obtain ⟨x, rfl⟩ := first.nil_right
      exact .delete x (.nil n)
  | keep a h ih =>
      rcases first.cons_right_cases with rfl | ⟨x, rfl⟩ | ⟨x, rfl⟩ | ⟨s, rfl, behind⟩
      · exact .insert a h
      · exact .delete x (.keep a h)
      · exact .replace x a h
      · exact .keep a (ih behind)
  | insert b h ih => exact .insert b (ih first)
  | delete a h ih =>
      rcases first.cons_right_cases with rfl | ⟨x, rfl⟩ | ⟨x, rfl⟩ | ⟨s, rfl, behind⟩
      · exact h.succ.succ
      · exact .delete x (.delete a h)
      · exact .delete x h.succ
      · exact .delete a (ih behind)
  | replace a b h ih =>
      rcases first.cons_right_cases with rfl | ⟨x, rfl⟩ | ⟨x, rfl⟩ | ⟨s, rfl, behind⟩
      · exact .insert b h.succ
      · exact .delete x (.replace a b h)
      · exact .replace x b h.succ
      · exact .replace a b (ih behind)

/-- Lists can be aligned with some number of differing columns exactly if as many edits lead from
one to the other. -/
theorem aligned_iff_edits : Aligned n s t ↔ Edits n s t := by
  refine ⟨Aligned.edits, fun h => ?_⟩
  induction h with
  | done n s => exact .refl n s
  | step first rest ih => exact first.aligned ih

namespace Edits

/-- As many edits lead back. -/
theorem symm (h : Edits n s t) : Edits n t s :=
  (aligned_iff_edits.mpr h).symm.edits

/-- Each element that one list is longer takes an edit. -/
theorem length_le (h : Edits n s t) : s.length ≤ t.length + n :=
  (aligned_iff_edits.mpr h).length_le

end Edits

/-! ## Alignments of lists with first elements -/

/-- Equal first elements can be aligned with each other. -/
theorem aligned_cons_self : Aligned n (a :: s) (a :: t) ↔ Aligned n s t := by
  refine ⟨fun h => ?_, .keep a⟩
  cases h with
  | keep _ h => exact h
  | insert _ h => exact Edit.aligned (.insert [] a s) h
  | delete _ h => exact (Edit.aligned (.insert [] a t) h.symm).symm
  | replace _ _ h => exact h.succ

/-- Without a column that differs, different first elements cannot be aligned. -/
theorem not_aligned_zero_cons (hne : a ≠ b) : ¬Aligned 0 (a :: s) (b :: t) := by
  intro h
  cases h
  exact hne rfl

/-- Where the first elements differ, the first column of an alignment does. -/
theorem aligned_succ_cons (hne : a ≠ b) :
    Aligned (n + 1) (a :: s) (b :: t) ↔
      Aligned n s t ∨ Aligned n s (b :: t) ∨ Aligned n (a :: s) t := by
  constructor
  · intro h
    cases h with
    | keep => exact absurd rfl hne
    | insert _ h => exact .inr (.inr h)
    | delete _ h => exact .inr (.inl h)
    | replace _ _ h => exact .inl h
  · rintro (h | h | h)
    · exact .replace a b h
    · exact .delete a h
    · exact .insert b h

end CustomerDedupe.Text
