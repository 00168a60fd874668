import Mathlib.Data.List.Induction
import Mathlib.Data.List.Sort
import CustomerDedupe.Duplicates.Merge

/-!
# Identifiers named once

Identifiers collected one by one are those that pass the test, each at its first occurrence.
`FirstOccurrences` says what this means, and that it leaves no choice is
`FirstOccurrences.unique`. What has been collected stays as it is if it is collected again
(`distinct_ids_again`).
-/

namespace CustomerDedupe.Duplicates

variable {keep : Int → Bool} {ids kept kept' : List Int} {id : Int}

/-- One more identifier is collected if it passes the test and has not been met. -/
theorem distinct_ids_snoc (keep : Int → Bool) (ids : List Int) (id : Int) :
    distinctIds keep (ids ++ [id]) =
      if keep id && !(distinctIds keep ids).contains id then distinctIds keep ids ++ [id]
      else distinctIds keep ids := by
  unfold distinctIds
  rw [List.foldl_append]
  rfl

/-- Identifiers collected one by one are those that pass the test, each at its first
occurrence. -/
theorem distinct_ids_eq (keep : Int → Bool) (ids : List Int) :
    distinctIds keep ids = (ids.filter keep).eraseDups := by
  -- the fold looks at the last identifier last, so the induction is from the end
  induction ids using List.reverseRecOn with
  | nil => rfl
  | append_singleton ids id ih =>
      rw [distinct_ids_snoc, ih, List.filter_append, List.eraseDups_append]
      cases hkeep : keep id
      · simp [hkeep]
      · by_cases hmem : id ∈ ids
        · simp [hkeep, hmem, List.removeAll]
        · simp [hkeep, hmem, List.removeAll, List.eraseDups_cons]

theorem mem_distinct_ids : id ∈ distinctIds keep ids ↔ id ∈ ids ∧ keep id = true := by
  rw [distinct_ids_eq, List.mem_eraseDups, List.mem_filter]

/-- Collecting again changes nothing. -/
theorem distinct_ids_again (keep : Int → Bool) (ids : List Int) :
    distinctIds keep (distinctIds keep ids) = distinctIds keep ids := by
  induction ids using List.reverseRecOn with
  | nil => rfl
  | append_singleton ids id ih =>
      rw [distinct_ids_snoc]
      split
      next hnew => rw [distinct_ids_snoc, ih, if_pos hnew]
      next => exact ih

/-! ## Order of first occurrence -/

/-- The identifiers of a list that pass a test, each once, in the order in which they occur first
in the list. -/
structure FirstOccurrences (keep : Int → Bool) (ids kept : List Int) : Prop where
  mem : ∀ id, id ∈ kept ↔ id ∈ ids ∧ keep id = true
  nodup : kept.Nodup
  in_order : kept.Pairwise fun a b => ids.idxOf a < ids.idxOf b

namespace FirstOccurrences

/-- Where identifiers occur first does not change if one is added at the end. -/
theorem in_order_append (h : FirstOccurrences keep ids kept) (id : Int) :
    kept.Pairwise fun a b => (ids ++ [id]).idxOf a < (ids ++ [id]).idxOf b := by
  refine h.in_order.imp_of_mem fun {a b} ha hb hlt => ?_
  rwa [List.idxOf_append_of_mem ((h.mem a).mp ha).1, List.idxOf_append_of_mem ((h.mem b).mp hb).1]

/-- One more identifier that fails the test or has been kept is passed over. -/
theorem pass_over (h : FirstOccurrences keep ids kept) (hold : keep id = true → id ∈ kept) :
    FirstOccurrences keep (ids ++ [id]) kept where
  mem a := by
    rw [h.mem, List.mem_append, List.mem_singleton]
    constructor
    · rintro ⟨ha, hkeep⟩
      exact ⟨.inl ha, hkeep⟩
    · rintro ⟨ha | rfl, hkeep⟩
      · exact ⟨ha, hkeep⟩
      · exact (h.mem a).mp (hold hkeep)
  nodup := h.nodup
  in_order := h.in_order_append id

/-- One more identifier that passes the test and has not been kept comes last. -/
theorem snoc (h : FirstOccurrences keep ids kept) (hkeep : keep id = true) (hnew : id ∉ kept) :
    FirstOccurrences keep (ids ++ [id]) (kept ++ [id]) where
  mem a := by
    rw [List.mem_append, List.mem_append, List.mem_singleton, h.mem]
    constructor
    · rintro (⟨ha, hkeep⟩ | rfl)
      · exact ⟨.inl ha, hkeep⟩
      · exact ⟨.inr rfl, hkeep⟩
    · rintro ⟨ha | rfl, hkeep⟩
      · exact .inl ⟨ha, hkeep⟩
      · exact .inr rfl
  nodup := h.nodup.append (List.nodup_singleton id) (List.disjoint_singleton.mpr hnew)
  in_order := by
    refine List.pairwise_append.mpr ⟨h.in_order_append id, List.pairwise_singleton _ _, ?_⟩
    intro a ha b hb
    obtain rfl := List.mem_singleton.mp hb
    have hmem : a ∈ ids := ((h.mem a).mp ha).1
    have hnot : b ∉ ids := fun hb => hnew ((h.mem b).mpr ⟨hb, hkeep⟩)
    calc (ids ++ [b]).idxOf a = ids.idxOf a := List.idxOf_append_of_mem hmem
      _ < ids.length := List.idxOf_lt_length_of_mem hmem
      _ ≤ (ids ++ [b]).idxOf b := by
        rw [List.idxOf_append_of_notMem hnot]
        exact Nat.le_add_right _ _

/-- There is only one such list. -/
theorem unique (h : FirstOccurrences keep ids kept) (h' : FirstOccurrences keep ids kept') :
    kept = kept' := by
  have : Std.Irrefl fun a b => ids.idxOf a < ids.idxOf b := ⟨fun _ => Nat.lt_irrefl _⟩
  have : Std.Antisymm fun a b => ids.idxOf a < ids.idxOf b :=
    ⟨fun _ _ hab hba => absurd hba (Nat.lt_asymm hab)⟩
  exact h.in_order.eq_of_mem_iff h'.in_order fun id => (h.mem id).trans (h'.mem id).symm

end FirstOccurrences

/-- Identifiers are collected in the order of their first occurrence. -/
theorem distinct_ids_in_order (keep : Int → Bool) (ids : List Int) :
    FirstOccurrences keep ids (distinctIds keep ids) := by
  induction ids using List.reverseRecOn with
  | nil => exact ⟨fun _ => by simp [distinctIds], List.nodup_nil, List.Pairwise.nil⟩
  | append_singleton ids id ih =>
      rw [distinct_ids_snoc, List.contains_eq_mem]
      split
      next hnew =>
        rw [Bool.and_eq_true, Bool.not_eq_true', decide_eq_false_iff_not] at hnew
        exact ih.snoc hnew.1 hnew.2
      next hold =>
        refine ih.pass_over fun hkeep => ?_
        by_contra hnew
        exact hold (by rw [hkeep, decide_eq_false hnew]; rfl)

/-- No identifier is collected twice. -/
theorem distinct_ids_nodup (keep : Int → Bool) (ids : List Int) :
    (distinctIds keep ids).Nodup :=
  (distinct_ids_in_order keep ids).nodup

end CustomerDedupe.Duplicates
