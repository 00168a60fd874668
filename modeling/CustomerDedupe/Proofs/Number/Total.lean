import CustomerDedupe.Number.Total

/-!
# Bounds of totals

A total does not depend on the order of its numbers and takes on a common factor of them. Numbers
with a common bound add up to at most as many times this bound, and they reach it only if each of
them does (`total_eq_mul_length_iff`).
-/

namespace CustomerDedupe.Number

/-- The order of the numbers does not matter. -/
theorem total_perm {ms ns : List Nat} (h : ms.Perm ns) : total ms = total ns := by
  induction h with
  | nil => rfl
  | cons n _ ih => rw [total_cons, total_cons, ih]
  | swap m n ns =>
      simp only [total_cons]
      omega
  | trans _ _ ih ih' => exact ih.trans ih'

/-- Fewer numbers add up to no more. -/
theorem total_le_of_sublist {ms ns : List Nat} (h : ms.Sublist ns) : total ms ≤ total ns := by
  induction h with
  | slnil => exact Nat.le_refl 0
  | cons n _ ih =>
      rw [total_cons]
      omega
  | cons_cons n _ ih =>
      rw [total_cons, total_cons]
      omega

/-- A common factor of some numbers is one of their total. -/
theorem total_mul_left (k : Nat) (ns : List Nat) :
    total (ns.map (k * ·)) = k * total ns := by
  induction ns with
  | nil => rfl
  | cons n ns ih => rw [List.map_cons, total_cons, total_cons, ih, Nat.mul_add]

section Bound

variable {bound : Nat} {ns : List Nat} (h : ∀ n ∈ ns, n ≤ bound)

include h

/-- Numbers with a common bound add up to at most as many times this bound. -/
theorem total_le_mul_length : total ns ≤ bound * ns.length := by
  induction ns with
  | nil => exact Nat.le_refl 0
  | cons n ns ih =>
      have hn := h n List.mem_cons_self
      have hns := ih fun m hm => h m (List.mem_cons_of_mem n hm)
      rw [total_cons, List.length_cons, Nat.mul_succ]
      omega

/-- The greatest possible total is reached only by numbers that all reach the bound. -/
theorem total_eq_mul_length_iff : total ns = bound * ns.length ↔ ∀ n ∈ ns, n = bound := by
  induction ns with
  | nil => exact ⟨fun _ => nofun, fun _ => rfl⟩
  | cons n ns ih =>
      have hn := h n List.mem_cons_self
      have hrest : ∀ m ∈ ns, m ≤ bound := fun m hm => h m (List.mem_cons_of_mem n hm)
      have hns := total_le_mul_length hrest
      rw [List.forall_mem_cons, ← ih hrest, total_cons, List.length_cons, Nat.mul_succ]
      omega

end Bound

end CustomerDedupe.Number
