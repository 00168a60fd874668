/-!
# Totals

The sum of natural numbers, with what it comes to for joined lists and for multiples.
-/

namespace CustomerDedupe.Number

/-- The sum of some numbers. -/
def total : List Nat → Nat
  | [] => 0
  | n :: ns => n + total ns

@[simp] theorem total_nil : total [] = 0 := rfl

@[simp] theorem total_cons (n : Nat) (ns : List Nat) : total (n :: ns) = n + total ns := rfl

@[simp] theorem total_append (ms ns : List Nat) : total (ms ++ ns) = total ms + total ns := by
  induction ms with
  | nil => simp
  | cons m ms ih =>
    simp only [List.cons_append, total_cons, ih]
    omega

end CustomerDedupe.Number
