import CustomerDedupe.Proofs.Text.Edits

/-!
# The table of edit distances

Every entry of the table is the least number of columns that differ in an alignment of two
beginnings. `LeastAligned.cons` says so of an entry whose neighbours above and to the left are such
numbers, `Row.next` of the row below another. So the distance of two lists is the least number of
edits that lead from one to the other (`distance_le_iff`).
-/

namespace CustomerDedupe.Text

section LeastAligned

variable {α : Type} {d x y z : Nat} {s t : List α} {a b : α}

/-- `d` is the least number of columns that differ in an alignment of the lists. -/
def LeastAligned (d : Nat) (s t : List α) : Prop :=
  ∀ n, d ≤ n ↔ Aligned n s t

namespace LeastAligned

theorem symm (h : LeastAligned d s t) : LeastAligned d t s :=
  fun n => (h n).trans ⟨Aligned.symm, Aligned.symm⟩

theorem nil : LeastAligned 0 ([] : List α) [] :=
  fun n => iff_of_true (Nat.zero_le n) (.nil n)

/-- Below the empty list, every element is one column more. -/
theorem cons_nil (h : LeastAligned d s []) (a : α) : LeastAligned (d + 1) (a :: s) [] := by
  intro n
  constructor
  · intro hle
    obtain ⟨n, rfl⟩ := Nat.exists_eq_add_one_of_ne_zero (Nat.ne_zero_of_lt hle)
    exact .delete a ((h n).mp (Nat.le_of_succ_le_succ hle))
  · intro haligned
    cases haligned with
    | delete _ haligned => exact Nat.succ_le_succ ((h _).mpr haligned)

/-- Of lists with equal first elements, the number is that of what is behind them. -/
theorem cons_self (h : LeastAligned d s t) (a : α) : LeastAligned d (a :: s) (a :: t) :=
  fun n => (h n).trans aligned_cons_self.symm

/-- Of lists with different first elements, one column more differs than in the best alignment
without one of these elements or both. -/
theorem cons_of_ne (hne : a ≠ b) (hx : LeastAligned x s t) (hy : LeastAligned y s (b :: t))
    (hz : LeastAligned z (a :: s) t) :
    LeastAligned (1 + min x (min y z)) (a :: s) (b :: t) := by
  intro n
  cases n with
  | zero => exact iff_of_false (by omega) (not_aligned_zero_cons hne)
  | succ n =>
      rw [aligned_succ_cons hne, ← hx n, ← hy n, ← hz n]
      omega

/-- An entry of the table is the number for two beginnings, if those beside it are. -/
theorem cons [DecidableEq α] (hx : LeastAligned x s t) (hy : LeastAligned y s (b :: t))
    (hz : LeastAligned z (a :: s) t) :
    LeastAligned (if a = b then x else 1 + min x (min y z)) (a :: s) (b :: t) := by
  split
  next h =>
    rw [h]
    exact hx.cons_self b
  next hne => exact cons_of_ne hne hx hy hz

end LeastAligned

end LeastAligned

section Table

variable {α : Type} {s t p : List α} {row : List Nat}

/-- The entries of a row from one place on: `s` is the beginning that the row is for and `p` the one
that its first entry is for, both read backwards, and `t` is what follows `p`. -/
inductive Row (s : List α) : List α → List α → List Nat → Prop
  | last {d : Nat} {p : List α} (h : LeastAligned d s p) : Row s p [] [d]
  | cons {d : Nat} {p t : List α} {b : α} {row : List Nat} (h : LeastAligned d s p)
      (behind : Row s (b :: p) t row) : Row s p (b :: t) (d :: row)

namespace Row

/-- The table begins with the row for the empty list. -/
theorem first (t : List α) (h : LeastAligned p.length [] p) :
    Row [] p t (List.range' p.length (t.length + 1)) := by
  induction t generalizing p with
  | nil => exact .last h
  | cons b t ih => exact .cons h (ih (h.symm.cons_nil b).symm)

/-- There is a first entry. -/
theorem exists_first (h : Row s p t row) : ∃ d above, row = d :: above ∧ LeastAligned d s p := by
  cases h with
  | last h => exact ⟨_, _, rfl, h⟩
  | cons h => exact ⟨_, _, rfl, h⟩

/-- The last entry is the one for the whole list. -/
theorem last_entry (h : Row s p t row) : LeastAligned (row.getLastD 0) s (t.reverse ++ p) := by
  induction h with
  | last h => exact h
  | cons h behind ih =>
      obtain ⟨d, above, rfl, -⟩ := behind.exists_first
      simpa using ih

variable [DecidableEq α]

/-- The entries below a row, each from the one above it and those to the left of both. -/
theorem cells {a : α} {diagonal left : Nat} {above : List Nat}
    (h : Row s p t (diagonal :: above)) (hleft : LeastAligned left (a :: s) p) :
    Row (a :: s) p t (left :: distanceCells a diagonal left t above) := by
  induction t generalizing p diagonal left above with
  | nil =>
      cases h with
      | last => exact .last hleft
  | cons b t ih =>
      cases h with
      | cons hdiagonal behind =>
          obtain ⟨up, above, rfl, hup⟩ := behind.exists_first
          exact .cons hleft (ih behind (hdiagonal.cons hup hleft))

/-- Below the row for a beginning is the row for a beginning of one element more. -/
theorem next (h : Row s [] t row) (a : α) : Row (a :: s) [] t (distanceRow a t row) := by
  obtain ⟨diagonal, above, rfl, hdiagonal⟩ := h.exists_first
  exact h.cells (hdiagonal.cons_nil a)

/-- All rows are for the beginnings in turn. -/
theorem rows (h : Row p [] t row) (s : List α) :
    Row (s.reverse ++ p) [] t (distanceRows t row s) := by
  induction s generalizing p row with
  | nil => exact h
  | cons a s ih =>
      rw [List.reverse_cons, List.append_assoc]
      exact ih (h.next a)

end Row

end Table

variable {α : Type} [DecidableEq α] {s t : List α} {n : Nat}

/-- The distance is at most some number exactly if as many edits lead from one list to the other. -/
theorem distance_le_iff : distance s t ≤ n ↔ Edits n s t := by
  have hfirst : Row [] [] t (List.range (t.length + 1)) := by
    rw [List.range_eq_range']
    exact .first t .nil
  -- the table goes through beginnings, alignments through what follows a first element, so the
  -- last entry is about the lists read backwards
  have hleast := (hfirst.rows s).last_entry
  rw [List.append_nil, List.append_nil] at hleast
  calc distance s t ≤ n
    _ ↔ Aligned n s.reverse t.reverse := hleast n
    _ ↔ Edits n s.reverse t.reverse := aligned_iff_edits
    _ ↔ Edits n s t := ⟨fun h => by simpa using h.reverse, Edits.reverse⟩

example : distance "kitten".toList "sitting".toList = 3 := by decide

/-- No edits lead from a list to itself. -/
@[simp] theorem distance_self (t : List α) : distance t t = 0 :=
  Nat.le_zero.mp (distance_le_iff.mpr (.done 0 t))

end CustomerDedupe.Text
