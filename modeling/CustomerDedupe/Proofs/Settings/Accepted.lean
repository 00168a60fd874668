import CustomerDedupe.Settings.Basic

/-!
# Settings that are accepted

What is known of settings that pass all checks (`validate_eq_ok_iff`), and what this means for the
fields that take part in scoring.
-/

namespace CustomerDedupe

/-- A check that passes is followed by the next one. -/
theorem check_bind_eq_ok_iff {ε : Type} {check : Except ε Unit} {next : Unit → Except ε Unit} :
    (check >>= next) = .ok () ↔ check = .ok () ∧ next () = .ok () := by
  cases check with
  | error e => exact ⟨nofun, fun h => nomatch h.1⟩
  | ok u => exact ⟨fun h => ⟨rfl, h⟩, fun h => h.2⟩

/-- Checks made one after the other pass exactly if each of them does. -/
theorem for_all_eq_ok_iff {ε α : Type} {check : α → Except ε Unit} {items : List α} :
    items.forM check = .ok () ↔ ∀ a ∈ items, check a = .ok () := by
  induction items with
  | nil => exact ⟨fun _ => nofun, fun _ => rfl⟩
  | cons a items ih =>
      have hstep : (a :: items).forM check = (check a >>= fun _ => items.forM check) := rfl
      rw [hstep, check_bind_eq_ok_iff, ih, List.forall_mem_cons]

namespace Settings

/-- Settings are accepted exactly if each of them is within its bounds. -/
theorem validate_eq_ok_iff {s : Settings} :
    s.validate = .ok () ↔
      (1 ≤ s.days ∧ s.days ≤ 365) ∧ (0 ≤ s.scoreThreshold ∧ s.scoreThreshold ≤ 100) ∧
        (1 ≤ s.monitorIntervalMinutes ∧ s.monitorIntervalMinutes ≤ 2147483647) ∧
        ∀ f, s.weights.get f ≤ 10 := by
  have hweights : (∀ f, s.weights.get f ≤ 10) ↔ ∀ f ∈ CompareField.all,
      (0 : Int) ≤ s.weights.get f ∧ (s.weights.get f : Int) ≤ 10 := by
    constructor
    · intro h f _
      have hf := h f
      omega
    · intro h f
      have hf := h f (CompareField.mem_all f)
      omega
  rw [hweights]
  unfold validate
  simp only [check_bind_eq_ok_iff, for_all_eq_ok_iff, Validation.range_eq_ok_iff]

/-- The fields that take part in scoring have positive weights. -/
theorem active_weight_pos {s : Settings} {f : CompareField × Nat} (hf : f ∈ s.activeFields) :
    0 < f.2 := by
  obtain ⟨g, hg, rfl⟩ := List.mem_map.mp hf
  have hactive := (List.mem_filter.mp hg).2
  simp only [isActive, Bool.and_eq_true, decide_eq_true_eq] at hactive
  exact hactive.2

/-- No more fields take part in scoring than there are. -/
theorem length_active_fields_le (s : Settings) : s.activeFields.length ≤ 10 := by
  have hfilter := List.length_filter_le s.isActive CompareField.all
  have hall : CompareField.all.length = 10 := rfl
  rw [activeFields, List.length_map]
  omega

/-- The weights of accepted settings are at most ten. -/
theorem active_weight_le {s : Settings} (h : s.validate = .ok ()) {f : CompareField × Nat}
    (hf : f ∈ s.activeFields) : f.2 ≤ 10 := by
  obtain ⟨g, -, rfl⟩ := List.mem_map.mp hf
  exact (validate_eq_ok_iff.mp h).2.2.2 g

end Settings

end CustomerDedupe
