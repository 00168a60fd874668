import CustomerDedupe.Proofs.Duplicates.FullAgreement
import CustomerDedupe.Proofs.Duplicates.ReferencePlace
import CustomerDedupe.Proofs.Duplicates.ScoreBounds
import CustomerDedupe.Proofs.Text.EditDistance

/-!
# More agreement

A member that moves closer to the one that the group is compared with, `Closer`, leaves this one
where it is and does not lower any part of the score, `ScoreParts.AtMost`. All steps from the parts
to the score keep the order. The main result, `more_agreement_never_lowers`, is about a member that
takes over a value or the name of the one compared. It is about weights whose sums fit into 32 bits:
where carries are lost, more agreement can be counted as none (`more_agreement_wraps`).
-/

namespace CustomerDedupe.Duplicates

open Number

/-! ## Parts that are not lowered -/

namespace ScoreParts

/-- As much is compared, at least as much agreement is found, and a similar name is not lost. -/
structure AtMost (p q : ScoreParts) : Prop where
  weight : p.weight = q.weight
  pairs : p.pairs = q.pairs
  matched : p.matched ≤ q.matched
  similar : p.similar = true → q.similar = true

section Rounded

variable {round : Rat → Rat} (hround : Rounding round) {p q : ScoreParts} (h : p.AtMost q)

include h

theorem AtMost.possible : p.possible = q.possible := by
  rw [ScoreParts.possible, ScoreParts.possible, h.weight, h.pairs]

include hround

theorem percentage_mono : p.percentage round ≤ q.percentage round := by
  have hratio : mkRat p.matched p.possible ≤ mkRat q.matched q.possible := by
    rw [h.possible, Rat.mkRat_eq_div, Rat.mkRat_eq_div]
    exact div_le_div_of_nonneg_right (by exact_mod_cast h.matched) (by positivity)
  have hshare := hround.mono hratio
  exact hround.mono (by linarith)

theorem raised_mono : p.raised round ≤ q.raised round := by
  have hpercentage := percentage_mono hround h
  cases hsimilar : p.similar with
  | false =>
      calc p.raised round = p.percentage round := by rw [raised, hsimilar]; rfl
        _ ≤ q.percentage round := hpercentage
        _ ≤ q.raised round := percentage_le_raised hround
  | true =>
      rw [raised, raised, if_pos hsimilar, if_pos (h.similar hsimilar)]
      exact hround.mono (by linarith)

/-- Whichever way its steps are rounded, the score is not lowered. -/
theorem score_mono : p.score round ≤ q.score round := by
  have hcapped : p.capped round ≤ q.capped round :=
    min_le_min_right 100 (raised_mono hround h)
  have htenths := tenths_mono hround hcapped
  rw [score, score, h.possible]
  split
  · exact le_refl _
  · exact div_le_div_of_nonneg_right (by exact_mod_cast htenths) (by norm_num)

end Rounded

end ScoreParts

/-! ## Closer members -/

/-- Of two customers assigned at the same time, the second agrees with the reference in all fields
in which the first does, and its name is similar if that of the first is. -/
structure Closer (reference c c' : Customer) : Prop where
  date : c'.assignedDate = c.assignedDate
  agrees : ∀ f, agreeOn reference c f = true → agreeOn reference c' f = true
  similar : namesSimilar reference.customerName c.customerName = true →
    namesSimilar reference.customerName c'.customerName = true

section Closer

variable {fields : List (CompareField × Nat)} {reference c c' : Customer}

theorem matched_weight_mono
    (h : ∀ f, agreeOn reference c f = true → agreeOn reference c' f = true) :
    matchedWeight fields reference c ≤ matchedWeight fields reference c' := by
  refine total_le_of_sublist (List.Sublist.map _ ?_)
  exact List.monotone_filter_right fields fun f => h f.1

/-- One of the members compared moves closer. -/
theorem compare_closer (others : List Customer) (h : Closer reference c c') :
    (ScoreParts.compare fields reference (c :: others)).AtMost
      (ScoreParts.compare fields reference (c' :: others)) where
  weight := rfl
  pairs := rfl
  matched := Nat.add_le_add_right (matched_weight_mono h.agrees) _
  similar := by
    simp only [ScoreParts.compare, List.any_cons, Bool.or_eq_true]
    exact Or.imp_left h.similar

end Closer

/-- Of the members other than the one at a place, a further one may be replaced. -/
theorem others_perm {group : List Customer} {i j : Nat} (hi : i < group.length)
    (hj : j < group.length) (hne : j ≠ i) :
    ∃ rest, (group.eraseIdx i).Perm (group[j] :: rest) ∧
      ∀ c, ((group.set j c).eraseIdx i).Perm (c :: rest) := by
  have hmember : group[i] ∈ group.eraseIdx j :=
    List.mem_eraseIdx_iff_getElem.mpr ⟨i, hi, hne.symm, rfl⟩
  have hrest := List.perm_cons_erase hmember
  refine ⟨(group.eraseIdx j).erase group[i], ?_, fun c => ?_⟩
  · have hperm := (List.getElem_cons_eraseIdx_perm hi).trans
      ((List.getElem_cons_eraseIdx_perm hj).symm.trans (hrest.cons _))
    exact (hperm.trans (.swap _ _ _)).cons_inv
  · have hi' : i < (group.set j c).length := by rwa [List.length_set]
    have hj' : j < (group.set j c).length := by rwa [List.length_set]
    have hat := List.getElem_cons_eraseIdx_perm hi'
    have hat' := List.getElem_cons_eraseIdx_perm hj'
    rw [List.getElem_set_ne hne] at hat
    rw [List.getElem_set_self, List.eraseIdx_set_eq] at hat'
    exact ((hat.trans (hat'.symm.trans (hrest.cons _))).trans (.swap _ _ _)).cons_inv

/-- The score of a second group is at least that of a first, as it would be in exact arithmetic and
as it is computed in 32 bits. -/
structure NoLower (s : Settings) (group group' : List Customer) : Prop where
  exact : (groupParts s.activeFields group).score id ≤ (groupParts s.activeFields group').score id
  computed : ∀ build, ∃ n m, score32 build s group = .ok n ∧ score32 build s group' = .ok m ∧ n ≤ m

/-- Scores that fit are not lowered if no part of them is, as long as the group stays as large. -/
theorem no_lower_of_parts {s : Settings} {group group' : List Customer}
    (htwo : 2 ≤ group.length)
    (hfits : totalWeight s.activeFields * (group.length - 1) < 2 ^ 32)
    (hlength : group.length = group'.length)
    (h : (groupParts s.activeFields group).AtMost (groupParts s.activeFields group')) :
    NoLower s group group' := by
  have hscore := ScoreParts.score_mono Binary64.nearest_rounding h
  rw [← compute_score_eq_score, ← compute_score_eq_score,
    div_le_div_iff_of_pos_right (by norm_num)] at hscore
  refine ⟨ScoreParts.score_mono exact_rounding h, fun build => ?_⟩
  refine ⟨computeScore s group, computeScore s group', score_32_of_fits htwo hfits, ?_, ?_⟩
  · exact score_32_of_fits (hlength ▸ htwo) (hlength ▸ hfits)
  · exact_mod_cast hscore

section Group

variable {group : List Customer} {i j : Nat} (hi : i < group.length) (hj : j < group.length)
  (hplace : referencePlace? group = some i) (hne : j ≠ i)

include hplace hne

/-- If a member of a group moves closer to the one that it is compared with, no part of the score is
lowered. -/
theorem group_parts_closer (fields : List (CompareField × Nat)) {c : Customer}
    (h : Closer group[i] group[j] c) :
    (groupParts fields group).AtMost (groupParts fields (group.set j c)) := by
  have hgroup : group ≠ [] := List.ne_nil_of_length_pos (Nat.zero_lt_of_lt hi)
  have hgroup' : group.set j c ≠ [] := by rwa [ne_eq, List.set_eq_nil_iff]
  have hlatest := ((reference_place_eq_some_iff hgroup).mp hplace).set hj hne h.date
  have hplace' := (reference_place_eq_some_iff hgroup').mpr hlatest
  obtain ⟨k, hk, hfound, hparts⟩ := group_parts_at_place fields hgroup
  obtain ⟨k', hk', hfound', hparts'⟩ := group_parts_at_place fields hgroup'
  obtain rfl : i = k := Option.some.inj (hplace.symm.trans hfound)
  obtain rfl : i = k' := Option.some.inj (hplace'.symm.trans hfound')
  obtain ⟨rest, hothers, hothers'⟩ := others_perm hi hj hne
  rw [hparts, hparts', List.getElem_set_ne hne, ScoreParts.compare_perm hothers,
    ScoreParts.compare_perm (hothers' c)]
  exact compare_closer rest h

/-- A member that comes closer to the member compared does not lower a score that fits. -/
theorem no_lower_of_closer (s : Settings)
    (hfits : totalWeight s.activeFields * (group.length - 1) < 2 ^ 32) {c : Customer}
    (h : Closer group[i] group[j] c) : NoLower s group (group.set j c) := by
  have htwo : 2 ≤ group.length := by omega
  exact no_lower_of_parts htwo hfits List.length_set.symm
    (group_parts_closer hi hj hplace hne s.activeFields h)

end Group

/-! ## Values and names taken over -/

/-- A customer with the value that another one has in a field. -/
def withValueOf (source c : Customer) : CompareField → Customer
  | .gender => { c with gender := source.gender }
  | .address => { c with address := source.address }
  | .jobTitle => { c with jobTitle := source.jobTitle }
  | .maritalStatus => { c with maritalStatus := source.maritalStatus }
  | .proofNumber => { c with proofNumber := source.proofNumber }
  | .dbPrice => { c with dbPrice := source.dbPrice }
  | .headquarters => { c with headquarters := source.headquarters }
  | .insuranceName => { c with insuranceName := source.insuranceName }
  | .carJoinDate => { c with carJoinDate := source.carJoinDate }
  | .notes => { c with notes := source.notes }

/-- Only the value of this field is another. -/
theorem field_value_with_value_of (source c : Customer) (f g : CompareField) :
    fieldValue (withValueOf source c f) g =
      if g = f then fieldValue source f else fieldValue c g := by
  cases f <;> cases g <;> rfl

/-- Taking over a value moves closer: a value that agrees with anything agrees with itself. -/
theorem closer_with_value_of (reference c : Customer) (f : CompareField) :
    Closer reference c (withValueOf reference c f) where
  date := by cases f <;> rfl
  agrees g h := by
    rw [agreeOn, field_value_with_value_of]
    split
    · next hsame =>
      obtain ⟨v, hv, -⟩ := values_match_iff.mp h
      rw [hsame] at hv ⊢
      exact values_match_iff.mpr ⟨v, hv, hv⟩
    · exact h
  similar h := by
    have hname : (withValueOf reference c f).customerName = c.customerName := by cases f <;> rfl
    rwa [hname]

/-- Every name is similar to itself. -/
theorem names_similar_self (name : Option String) : namesSimilar name name = true := by
  rw [namesSimilar, Text.distance_self]
  rfl

/-- Taking over the name moves closer. -/
theorem closer_with_name_of (reference c : Customer) :
    Closer reference c { c with customerName := reference.customerName } where
  date := rfl
  agrees f h := by
    have hvalue : fieldValue { c with customerName := reference.customerName } f =
        fieldValue c f := by
      cases f <;> rfl
    rwa [agreeOn, hvalue]
  similar _ := names_similar_self _

/-- If a member other than the one that the group is compared with takes over a value of it, or its
name, the score is not lowered, neither in exact arithmetic nor as it is computed, as long as the
greatest possible agreement fits into 32 bits. -/
theorem more_agreement_never_lowers (s : Settings) {group : List Customer} {i j : Nat}
    (hi : i < group.length) (hj : j < group.length) (hplace : referencePlace? group = some i)
    (hne : j ≠ i) (hfits : totalWeight s.activeFields * (group.length - 1) < 2 ^ 32) :
    (∀ f, NoLower s group (group.set j (withValueOf group[i] group[j] f))) ∧
      NoLower s group (group.set j { group[j] with customerName := group[i].customerName }) :=
  ⟨fun f => no_lower_of_closer hi hj hplace hne s hfits (closer_with_value_of _ _ f),
    no_lower_of_closer hi hj hplace hne s hfits (closer_with_name_of _ _)⟩

/-- Of three customers the second was assigned last; the first takes over its value in one field, or
its name. -/
theorem scores_of_closer_first :
    let s := (Settings.default.setField .gender true 1).setField .notes true 1
    let row := Customer.assigned 1 (.midnight (.newYear 2024))
    let reference := { Customer.assigned 2 (.midnight (.newYear 2025)) with
      gender := some "F", notes := some "Prefers SMS", customerName := some "Kim Minsu" }
    let other := { row with notes := some "prefers sms", customerName := some "Park Jiho" }
    let apart := [{ other with gender := some "M" }, reference, other]
    let closer := [{ other with gender := some "F" }, reference, other]
    let named := [{ other with gender := some "M", customerName := some "Kim Minsu" }, reference,
      other]
    referencePlace? apart = some 1 ∧
      totalWeight s.activeFields * (apart.length - 1) < 2 ^ 32 ∧
      NoLower s apart closer ∧ NoLower s apart named ∧
      ∀ build, score32 build s apart = .ok 500 ∧ score32 build s closer = .ok 750 ∧
        score32 build s named = .ok 600 := by
  intro s row reference other apart closer named
  have hplace : referencePlace? apart = some 1 := by decide +kernel
  have hsecond : 1 < apart.length := by decide
  have hfirst : 0 < apart.length := by decide
  have hfits : totalWeight s.activeFields * (apart.length - 1) < 2 ^ 32 := by decide
  obtain ⟨hvalue, hname⟩ := more_agreement_never_lowers s hsecond hfirst hplace (by decide) hfits
  refine ⟨hplace, hfits, hvalue .gender, hname, fun build => ?_⟩
  cases build <;> decide +kernel

/-- With a weight that does not fit twice, one of three members that agrees with the last one
assigned makes the agreement full, and a second one that takes over its value makes it nothing.
Where a number that does not fit stops the program, neither group has a score. -/
theorem more_agreement_wraps :
    let s := Settings.default.setField .gender true (2 ^ 31)
    let reference := { Customer.assigned 1 (.midnight (.newYear 2025)) with
      gender := some "F", customerName := some "Kim Minsu" }
    let other := { Customer.assigned 2 (.midnight (.newYear 2024)) with
      gender := some "M", customerName := some "Park Jiho" }
    let same := { other with gender := some "F" }
    let group := [reference, same, other, other]
    referencePlace? group = some 0 ∧
      group.set 2 (withValueOf reference other .gender) = [reference, same, same, other] ∧
      score32 .wrapping s group = .ok 1000 ∧
      score32 .wrapping s [reference, same, same, other] = .ok 0 ∧
      score32 .checked s group = .error .multiplying ∧
      score32 .checked s [reference, same, same, other] = .error .adding := by
  intro s reference other same group
  exact ⟨by decide +kernel, rfl, by decide +kernel, by decide +kernel, by decide +kernel,
    by decide +kernel⟩

end CustomerDedupe.Duplicates
