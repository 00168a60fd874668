import Mathlib.Algebra.Group.Nat.Defs
import CustomerDedupe.Proofs.Number.Total

/-!
# Sums in 32 bits

Adding numbers one after the other fails as soon as a partial sum does not fit into 32 bits. As
partial sums only grow, it fails exactly if the total does not fit (`sum_32_eq`).
-/

namespace CustomerDedupe.Number

/-- A natural number, if it fits into 32 bits. -/
def fit32? (n : Nat) : Option Nat :=
  if n < 2 ^ 32 then some n else none

/-- Adds numbers one after the other to a first one. Nothing if a partial sum does not fit. -/
def sum32? (start : Nat) (ns : List Nat) : Option Nat :=
  ns.foldlM (fun sum n => fit32? (sum + n)) start

theorem fit_32_of_lt {n : Nat} (h : n < 2 ^ 32) : fit32? n = some n :=
  if_pos h

theorem fit_32_of_ge {n : Nat} (h : 2 ^ 32 ≤ n) : fit32? n = none :=
  if_neg (Nat.not_lt.mpr h)

theorem fit_32_eq_some_iff {m n : Nat} : fit32? m = some n ↔ m < 2 ^ 32 ∧ m = n := by
  unfold fit32?
  split
  · next h => rw [Option.some.injEq, and_iff_right h]
  · next h => exact ⟨nofun, fun h' => absurd h'.1 h⟩

/-- What adds to a number that fits, and tells whether the sum fits, does so of any number: what has
grown from a number that does not fit does not fit either. -/
theorem fit_32_bind {m k : Nat} {next : Nat → Option Nat}
    (h : m < 2 ^ 32 → next m = fit32? (m + k)) : (fit32? m >>= next) = fit32? (m + k) := by
  by_cases hm : m < 2 ^ 32
  · rw [fit_32_of_lt hm]
    exact h hm
  · have hge : 2 ^ 32 ≤ m := Nat.not_lt.mp hm
    rw [fit_32_of_ge hge, fit_32_of_ge (Nat.le_add_right_of_le hge)]
    rfl

/-- Adding numbers one after the other succeeds exactly if their total fits. -/
theorem sum_32_eq {start : Nat} (h : start < 2 ^ 32) (ns : List Nat) :
    sum32? start ns = fit32? (start + total ns) := by
  induction ns generalizing start with
  | nil => exact (fit_32_of_lt h).symm
  | cons n ns ih =>
      rw [sum32?, List.foldlM_cons, total_cons, ← Nat.add_assoc]
      exact fit_32_bind fun hnext => ih hnext

end CustomerDedupe.Number
