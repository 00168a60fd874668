/-!
# Edit distance

The number of single-character insertions, deletions and substitutions that turn one list into
another, computed one row of the table at a time. `distance_nil_left` and
`distance_nil_right` give the two borders of the table.
-/

namespace CustomerDedupe.Text

variable {α : Type} [DecidableEq α]

/-- One row of the table below the row `above`, left to right: `diagonal` is the entry above
and to the left, `left` the entry just computed. -/
def distanceCells (a : α) (diagonal left : Nat) : List α → List Nat → List Nat
  | b :: t, up :: above =>
    let here := if a = b then diagonal else 1 + min diagonal (min up left)
    here :: distanceCells a up here t above
  | _, _ => []

/-- The row for the prefix that ends in `a`, from the row of the prefix before it. -/
def distanceRow (a : α) (t : List α) : List Nat → List Nat
  | diagonal :: above => (diagonal + 1) :: distanceCells a diagonal (diagonal + 1) t above
  | [] => []

/-- The rows of the table in turn, starting below `row`. -/
def distanceRows (t : List α) (row : List Nat) : List α → List Nat
  | [] => row
  | a :: s => distanceRows t (distanceRow a t row) s

/-- The edit distance of two lists. -/
def distance (s t : List α) : Nat :=
  (distanceRows t (List.range (t.length + 1)) s).getLastD 0

theorem distance_nil_left (t : List α) : distance [] t = t.length := by
  simp [distance, distanceRows, List.getLastD_eq_getLast?, List.range_succ]

private theorem distance_rows_nil (s : List α) (k : Nat) :
    distanceRows [] [k] s = [k + s.length] := by
  induction s generalizing k with
  | nil => rfl
  | cons a s ih => simp [distanceRows, distanceRow, distanceCells, ih]; omega

theorem distance_nil_right (s : List α) : distance s [] = s.length := by
  have h := distance_rows_nil s 0
  simp only [Nat.zero_add] at h
  simp [distance, List.range_succ, h]

end CustomerDedupe.Text
