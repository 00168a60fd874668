import Mathlib.Algebra.Group.Nat.Defs
import CustomerDedupe.Number.Overflow
import CustomerDedupe.Proofs.Number.Total

/-!
# What is kept of sums

Adding numbers one after the other keeps of each partial sum what fits into 32 bits. Whether a
number that does not fit stops the program or loses its carry, what is kept in the end is what is
kept of the total (`add_32_eq`).
-/

namespace CustomerDedupe.Number

variable {build : Build} {overflow : Overflow} {m n k : Nat}

theorem keep_32_of_lt (h : n < 2 ^ 32) : keep32 build overflow n = .ok n :=
  if_pos h

/-- A number that does not fit stops a program that checks. -/
theorem keep_32_checked (h : ¬n < 2 ^ 32) : keep32 .checked overflow n = .error overflow :=
  if_neg h

/-- Without the carry, any number leaves its remainder. -/
theorem keep_32_wrapping (overflow : Overflow) (n : Nat) :
    keep32 .wrapping overflow n = .ok (n % 2 ^ 32) := by
  by_cases h : n < 2 ^ 32
  · rw [keep_32_of_lt h, Nat.mod_eq_of_lt h]
  · exact if_neg h

/-- What adds to any number that fits, and keeps of the sum what fits, does so as well after what
has been kept of a number before. -/
theorem keep_32_bind {next : Nat → Except Overflow Nat}
    (h : ∀ n < 2 ^ 32, next n = keep32 build .adding (n + k)) :
    (keep32 build .adding m >>= next) = keep32 build .adding (m + k) := by
  by_cases hm : m < 2 ^ 32
  · rw [keep_32_of_lt hm]
    exact h m hm
  · cases build with
    | checked =>
        have hsum : ¬m + k < 2 ^ 32 := by omega
        rw [keep_32_checked hm, keep_32_checked hsum]
        rfl
    | wrapping =>
        rw [keep_32_wrapping, keep_32_wrapping, ← Nat.mod_add_mod]
        show next (m % 2 ^ 32) = _
        rw [h _ (Nat.mod_lt m (Nat.two_pow_pos 32)), keep_32_wrapping]

/-- Of numbers that are added one after the other, what fits of their total is kept. -/
theorem add_32_eq {start : Nat} (h : start < 2 ^ 32) (ns : List Nat) :
    add32 build start ns = keep32 build .adding (start + total ns) := by
  induction ns generalizing start with
  | nil => exact (keep_32_of_lt h).symm
  | cons n ns ih =>
      rw [add32, List.foldlM_cons, total_cons, ← Nat.add_assoc]
      exact keep_32_bind fun sum hsum => ih hsum

end CustomerDedupe.Number
