import CustomerDedupe.Proofs.Duplicates.MergeTable
import CustomerDedupe.Proofs.Duplicates.NewestFirst

/-!
# Fields filled by a merge

A merge leaves every field that is known as it is and takes the others from the newest duplicate
for which they are known. `FilledFrom` states this rule for one field, whatever it holds. The main
result, `merge_fills_from_newest`, says that all fields but the notes are filled by this rule, that
nothing else is changed, and that the order of duplicates assigned at different times does not
matter.
-/

namespace CustomerDedupe.Duplicates

/-- A text is known unless it is blank, an amount or a date if there is one. -/
def FieldValue.isKnown : FieldValue → Bool
  | .text s => !Text.isMissing s
  | .amount d => d.isSome
  | .date d => d.isSome

/-- Whether a field of a customer is known. -/
def knows (f : CompareField) (c : Customer) : Bool :=
  (fieldValue c f).isKnown

/-- What a field is to hold when duplicates are folded into a customer. -/
inductive FilledFrom (primary : Customer) (duplicates : List Customer) (f : CompareField) :
    FieldValue → Prop where
  /-- A field that is known is kept. -/
  | kept (hknown : knows f primary = true) :
      FilledFrom primary duplicates f (fieldValue primary f)
  /-- Another is taken from the newest duplicate for which it is known. -/
  | taken {c : Customer} (hunknown : knows f primary = false)
      (hnewest : NewestOf (knows f) duplicates c) :
      FilledFrom primary duplicates f (fieldValue c f)
  /-- If it is known for none of them, it is kept as well. -/
  | unknown (hunknown : knows f primary = false)
      (hnone : ∀ c ∈ duplicates, knows f c = false) :
      FilledFrom primary duplicates f (fieldValue primary f)

variable {primary : Customer} {duplicates : List Customer} {f : CompareField}

/-- The rule leaves no choice. -/
theorem FilledFrom.unique {v w : FieldValue} (hv : FilledFrom primary duplicates f v)
    (hw : FilledFrom primary duplicates f w) : v = w := by
  have hpassing : ∀ {c : Customer}, NewestOf (knows f) duplicates c →
      ¬∀ d ∈ duplicates, knows f d = false := by
    intro c hnewest hnone
    obtain ⟨before, after, hsplit, -, -⟩ := hnewest.place
    have hpass := hnewest.passes
    rw [hnone c (hsplit ▸ by simp)] at hpass
    exact Bool.false_ne_true hpass
  cases hv with
  | kept hknown =>
      cases hw with
      | kept | unknown => rfl
      | taken hunknown => rw [hknown] at hunknown; cases hunknown
  | taken hunknown hnewest =>
      cases hw with
      | kept hknown => rw [hknown] at hunknown; cases hunknown
      | taken _ hnewest' => rw [hnewest.unique hnewest']
      | unknown _ hnone => exact absurd hnone (hpassing hnewest)
  | unknown hunknown hnone =>
      cases hw with
      | kept | unknown => rfl
      | taken _ hnewest => exact absurd hnone (hpassing hnewest)

/-- The value found by asking the customer first and then the duplicates from the newest on. -/
def soughtValue (primary : Customer) (duplicates : List Customer) (f : CompareField) :
    FieldValue :=
  if knows f primary then fieldValue primary f
  else
    match (newestFirst duplicates).find? (knows f) with
    | some c => fieldValue c f
    | none => fieldValue primary f

/-- Seeking a value from the newest duplicate on follows the rule. -/
theorem filled_from_sought :
    FilledFrom primary duplicates f (soughtValue primary duplicates f) := by
  unfold soughtValue
  split
  · next hknown => exact .kept hknown
  · next hunknown =>
    have hfalse : knows f primary = false := eq_false_of_ne_true hunknown
    split
    · next c hfind => exact .taken hfalse (newest_of_find hfind)
    · next hfind =>
      refine .unknown hfalse fun c hc => ?_
      exact eq_false_of_ne_true (find_newest_first_eq_none_iff.mp hfind c hc)

/-- A text is sought in the way in which texts are filled. -/
theorem sought_text {read : Customer → Option String}
    (hread : ∀ c, fieldValue c f = .text (read c)) :
    soughtValue primary duplicates f =
      .text (filledText (read primary) ((newestFirst duplicates).map read)) := by
  have hknows : knows f = (fun v => !Text.isMissing v) ∘ read := by
    funext c
    rw [knows, hread]
    rfl
  unfold soughtValue filledText
  rw [List.find?_map, hknows]
  cases hmissing : Text.isMissing (read primary) with
  | false => simp [hmissing, hread]
  | true =>
      cases hfind : (newestFirst duplicates).find? ((fun v => !Text.isMissing v) ∘ read) with
      | none => simp [hmissing, hread]
      | some c => simp [hmissing, hread]

/-- The first value in a list is that of the first customer who has one. -/
theorem find_some_map {α : Type} (read : Customer → Option α) (customers : List Customer) :
    (customers.map read).findSome? id =
      (customers.find? fun c => (read c).isSome).bind read := by
  induction customers with
  | nil => rfl
  | cons c rest ih =>
      cases hread : read c with
      | some a => simp [hread]
      | none => simpa [hread] using ih

/-- Another value is sought in the way in which values are filled. -/
theorem sought_value {α : Type} {wrap : Option α → FieldValue} {read : Customer → Option α}
    (hwrap : ∀ v, (wrap v).isKnown = v.isSome) (hread : ∀ c, fieldValue c f = wrap (read c)) :
    soughtValue primary duplicates f =
      wrap (filledValue (read primary) ((newestFirst duplicates).map read)) := by
  have hknows : knows f = fun c => (read c).isSome := by
    funext c
    rw [knows, hread, hwrap]
  unfold soughtValue filledValue
  rw [find_some_map, hknows]
  cases hpresent : read primary with
  | some a => simp [hpresent, hread]
  | none =>
      cases hfind : (newestFirst duplicates).find? fun c => (read c).isSome with
      | none => simp [hpresent, hread]
      | some c => simp [hpresent, hread]

/-- A merge seeks the value of every field but the notes. -/
theorem merged_value_eq (hf : f ≠ .notes) :
    fieldValue (mergeInto primary duplicates) f = soughtValue primary duplicates f := by
  by_cases hnone : duplicates = []
  · have hempty : newestFirst [] = [] := List.mergeSort_nil
    subst hnone
    unfold soughtValue
    rw [hempty]
    split <;> rfl
  · have hsome : ¬duplicates.isEmpty = true := by rwa [List.isEmpty_iff]
    unfold mergeInto
    rw [if_neg hsome]
    cases f with
    | gender => exact (sought_text fun _ => rfl).symm
    | address => exact (sought_text fun _ => rfl).symm
    | jobTitle => exact (sought_text fun _ => rfl).symm
    | maritalStatus => exact (sought_text fun _ => rfl).symm
    | proofNumber => exact (sought_text fun _ => rfl).symm
    | headquarters => exact (sought_text fun _ => rfl).symm
    | insuranceName => exact (sought_text fun _ => rfl).symm
    | dbPrice => exact (sought_value (fun _ => rfl) fun _ => rfl).symm
    | carJoinDate => exact (sought_value (fun _ => rfl) fun _ => rfl).symm
    | notes => exact absurd rfl hf

/-- Folding duplicates into a customer changes nothing but the fields that are compared. Each of
these but the notes is kept if it is known, and otherwise holds, unchanged, what it holds for the
newest duplicate for which it is known, if there is one. If the duplicates were assigned at
different times, these fields do not depend on the order of the duplicates. -/
theorem merge_fills_from_newest (primary : Customer) (duplicates : List Customer) :
    (∀ f, f ≠ CompareField.notes → ∀ v,
      fieldValue (mergeInto primary duplicates) f = v ↔ FilledFrom primary duplicates f v) ∧
      (mergeInto primary duplicates).withoutDetails = primary.withoutDetails ∧
      ∀ others, duplicates.Perm others → (duplicates.map Customer.assignedDate).Nodup →
        ∀ f, f ≠ CompareField.notes →
          fieldValue (mergeInto primary others) f =
            fieldValue (mergeInto primary duplicates) f := by
  refine ⟨?_, merge_into_without_details primary duplicates, ?_⟩
  · intro f hf v
    rw [merged_value_eq hf]
    constructor
    · rintro rfl
      exact filled_from_sought
    · intro hv
      exact filled_from_sought.unique hv
  · intro others hperm hdates f hf
    rw [merged_value_eq hf, merged_value_eq hf, soughtValue, soughtValue,
      newest_first_eq_of_perm hperm hdates]

end CustomerDedupe.Duplicates
