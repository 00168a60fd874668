import CustomerDedupe.Proofs.Duplicates.MergeTable
import CustomerDedupe.Proofs.Duplicates.Notes

/-!
# Merging again

A merge that stores the merged customer but cannot remove the duplicates may be asked for once
more. Then the duplicates are folded a second time into a customer that they have already been
folded into. That changes no field but the notes, and these exactly if the notes merged differ.
The main result, `retried_merge`, compares the table after such a retry with the table after one
merge that went through.
-/

namespace CustomerDedupe

/-- The table with requests of one kind refused, or with all of them served. -/
def MemoryStore.refusing (m : MemoryStore) (method : Option StoreMethod) : MemoryStore :=
  { m with failing := method }

namespace Duplicates

/-- Filling a text a second time changes nothing. -/
theorem filled_text_again (present : Option String) (candidates : List (Option String)) :
    filledText (filledText present candidates) candidates = filledText present candidates := by
  by_cases hmissing : Text.isMissing present = true
  · cases hfind : candidates.find? fun v => !Text.isMissing v with
    | none =>
        have hkeep : filledText present candidates = present := by
          rw [filledText, if_pos hmissing, hfind]
        rw [hkeep, hkeep]
    | some v =>
        have hfill : filledText present candidates = v := by
          rw [filledText, if_pos hmissing, hfind]
        have hpresent : ¬Text.isMissing v = true := by
          simpa using List.find?_some hfind
        rw [hfill, filledText, if_neg hpresent]
  · have hkeep : filledText present candidates = present := by
      rw [filledText, if_neg hmissing]
    rw [hkeep, hkeep]

/-- Filling a value a second time changes nothing. -/
theorem filled_value_again {α : Type} (present : Option α) (candidates : List (Option α)) :
    filledValue (filledValue present candidates) candidates = filledValue present candidates := by
  unfold filledValue
  rw [Option.or_assoc, Option.or_self]

/-- A customer to whose notes those of others are added. -/
def addNotesOf (others : List Customer) (c : Customer) : Customer :=
  { c with notes := mergedNotes c.notes (others.map Customer.notes) }

/-- Folding the same duplicates into a customer a second time changes only its notes. -/
theorem merge_into_again (primary : Customer) {duplicates : List Customer}
    (hsome : duplicates ≠ []) :
    mergeInto (mergeInto primary duplicates) duplicates =
      addNotesOf duplicates (mergeInto primary duplicates) := by
  have hne : ¬duplicates.isEmpty = true := by
    rwa [List.isEmpty_iff]
  unfold mergeInto addNotesOf
  simp only [if_neg hne, filled_text_again, filled_value_again]

/-- The notes of a customer after folding duplicates into it. -/
theorem merge_into_notes (primary : Customer) {duplicates : List Customer}
    (hsome : duplicates ≠ []) :
    (mergeInto primary duplicates).notes =
      mergedNotes primary.notes (duplicates.map Customer.notes) := by
  have hne : ¬duplicates.isEmpty = true := by
    rwa [List.isEmpty_iff]
  unfold mergeInto
  rw [if_neg hne]

/-- Folding the same duplicates into a customer a second time changes nothing exactly if there
are none or the notes agree. -/
theorem merge_into_again_iff (primary : Customer) (duplicates : List Customer) :
    mergeInto (mergeInto primary duplicates) duplicates = mergeInto primary duplicates ↔
      duplicates = [] ∨ NotesAgree (primary.notes :: duplicates.map Customer.notes) := by
  by_cases hnone : duplicates = []
  · rw [hnone]
    exact ⟨fun _ => .inl rfl, fun _ => rfl⟩
  · rw [merge_into_again primary hnone, or_iff_right hnone, ← merged_notes_again_iff,
      ← merge_into_notes primary hnone]
    constructor
    · intro hsame
      exact congrArg Customer.notes hsame
    · intro hsame
      rw [addNotesOf, hsame]

/-- Folding the same duplicates into a customer a second time changes nothing but the notes. -/
theorem merge_into_again_but_notes (primary : Customer) (duplicates : List Customer) :
    { mergeInto (mergeInto primary duplicates) duplicates with
      notes := (mergeInto primary duplicates).notes } = mergeInto primary duplicates := by
  by_cases hnone : duplicates = []
  · rw [hnone]
    rfl
  · rw [merge_into_again primary hnone]
    rfl

/-- The notes of a customer into which duplicates are folded twice, if the notes differ. -/
theorem merge_into_again_notes (primary : Customer) {duplicates : List Customer}
    (hsome : duplicates ≠ [])
    (hdiffer : ¬NotesAgree (primary.notes :: duplicates.map Customer.notes)) :
    (mergeInto (mergeInto primary duplicates) duplicates).notes =
      some (String.ofList
        (joinNotes (noteSegments (primary.notes :: duplicates.map Customer.notes)) ++
          noteSeparator ++ joinNotes (noteSegments (duplicates.map Customer.notes)))) := by
  rw [merge_into_notes _ hsome, merge_into_notes _ hsome]
  exact (merged_notes_again_of_not_agree hdiffer).2

section Stored

variable {primary : Int} {ids : List Int} {table : List Customer}
  (hids : (table.map Customer.id).Nodup) (hcontacts : (table.map Customer.contactId).Nodup)
  (hpos : 0 < primary) (hsome : duplicateRows primary ids table ≠ [])
  {c : Customer} (hc : c ∈ table) (hcontact : c.contactId = primary)

include hids hcontacts hpos hsome hc hcontact

/-- Once the merged customer is stored, the plan is to fold the same duplicates into it. -/
theorem merge_plan_again :
    mergePlan primary ids (Table.replace (mergeInto c (duplicateRows primary ids table)) table) =
      .fold (mergeInto (mergeInto c (duplicateRows primary ids table))
          (duplicateRows primary ids table))
        (duplicateRows primary ids table).length := by
  -- the replaced row is no duplicate, so the duplicates found are the same as before
  have hout : c.contactId ∉ duplicateIds primary ids :=
    hcontact ▸ primary_not_mem_duplicate_ids primary ids
  have hrows : duplicateRows primary ids
      (Table.replace (mergeInto c (duplicateRows primary ids table)) table) =
        duplicateRows primary ids table :=
    Table.filter_replace hids hcontacts hc (merge_into_id _ _) (merge_into_contact _ _) hout
  have hfind := Table.find_contact_replace hids hcontacts hc
    (merge_into_id c (duplicateRows primary ids table)) (merge_into_contact _ _)
  rw [hcontact] at hfind
  rw [merge_plan_fold hpos (hrows.symm ▸ hsome) hfind, hrows]

end Stored

/-- How a merge fares that stores the merged customer, cannot remove the duplicates and is then
asked for again, compared with one merge that goes through. -/
structure RetryOutcome (primary : Int) (c : Customer) (duplicates : List Customer)
    (before : List Customer) (first again once : Except Failure Unit × MemoryStore) : Prop where
  /-- The first merge fails. -/
  failed : first.1 = .error (.refused 500 "delete failed")
  /-- It has stored the merged customer, and all other rows are still there. -/
  stored : first.2.rows = before.map fun d =>
    if d.contactId = primary then mergeInto c duplicates else d
  /-- The retry ends in the table of one merge, but for the notes of the customer kept. -/
  only_notes : again.2.rows = once.2.rows.map fun d =>
    if d.contactId = primary then addNotesOf duplicates d else d
  /-- It ends in the same table exactly if the notes agree. -/
  same_iff : again.2.rows = once.2.rows ↔
    NotesAgree (c.notes :: duplicates.map Customer.notes)
  /-- Otherwise the notes of the duplicates stand there twice. -/
  repeated : ¬NotesAgree (c.notes :: duplicates.map Customer.notes) →
    ∀ d ∈ again.2.rows, d.contactId = primary →
      d.notes = some (String.ofList
        (joinNotes (noteSegments (c.notes :: duplicates.map Customer.notes)) ++
          noteSeparator ++ joinNotes (noteSegments (duplicates.map Customer.notes))))

/-- What the tables after a retry and after one merge look like settles how the retry fares. -/
theorem RetryOutcome.of_rows {primary : Int} {removed : List Int} {c : Customer}
    {duplicates before : List Customer} {first again once : Except Failure Unit × MemoryStore}
    (hc : c ∈ before) (hcontact : c.contactId = primary) (hkeep : primary ∉ removed)
    (hsome : duplicates ≠ [])
    (hfailed : first.1 = .error (.refused 500 "delete failed"))
    (hstored : first.2.rows = before.map fun d =>
      if d.contactId = primary then mergeInto c duplicates else d)
    (honce : once.2.rows = (before.filter fun d => d.contactId ∉ removed).map fun d =>
      if d.contactId = primary then mergeInto c duplicates else d)
    (hagain : again.2.rows = (before.filter fun d => d.contactId ∉ removed).map fun d =>
      if d.contactId = primary then mergeInto (mergeInto c duplicates) duplicates else d) :
    RetryOutcome primary c duplicates before first again once := by
  have hmem : c ∈ before.filter fun d => d.contactId ∉ removed := by
    rw [List.mem_filter, hcontact]
    exact ⟨hc, by simpa using hkeep⟩
  refine ⟨hfailed, hstored, ?_, ?_, ?_⟩
  · rw [hagain, honce, List.map_map]
    apply List.map_congr_left
    intro d _
    have hmerged : (mergeInto c duplicates).contactId = primary := by
      rw [merge_into_contact, hcontact]
    by_cases hd : d.contactId = primary
    · simp only [Function.comp_apply, if_pos hd, if_pos hmerged]
      exact merge_into_again c hsome
    · simp only [Function.comp_apply, if_neg hd]
  · have hiff := merge_into_again_iff c duplicates
    rw [or_iff_right hsome] at hiff
    rw [← hiff, hagain, honce]
    constructor
    · intro hsame
      have hrow := List.map_inj_left.mp hsame c hmem
      rwa [if_pos hcontact, if_pos hcontact] at hrow
    · intro hsame
      rw [hsame]
  · intro hdiffer d hd hd'
    rw [hagain] at hd
    obtain ⟨e, -, rfl⟩ := List.mem_map.mp hd
    by_cases he : e.contactId = primary
    · rw [if_pos he]
      exact merge_into_again_notes c hsome hdiffer
    · rw [if_neg he] at hd'
      exact absurd hd' he

/-- A merge that fails because its deletion is refused may be asked for again. Over a table of
distinct identifiers and contacts the retry returns no error. If the first merge stored no
merged customer, the retry ends in the table of one merge that goes through. Otherwise it ends
in that table but for the notes of the customer that is kept, and in exactly that table if and
only if the notes of the customer and its duplicates that are not blank differ only in case and
surrounding white space. The same holds of folding duplicates into a customer twice. -/
theorem retried_merge {m : MemoryStore} (hids : (m.rows.map Customer.id).Nodup)
    (hcontacts : (m.rows.map Customer.contactId).Nodup) (primary : Int) (ids : List Int) :
    let removed := (ids.filter fun id => 0 < id ∧ id ≠ primary).eraseDups
    let duplicates := m.rows.filter fun c => c.contactId ∈ removed
    let first := Action.runOn (merge MemoryStore.store primary ids) (m.refusing (some .delete))
    let again := Action.runOn (merge MemoryStore.store primary ids) (first.2.refusing none)
    let once := Action.runOn (merge MemoryStore.store primary ids) (m.refusing none)
    again.1 = .ok () ∧ once.1 = .ok () ∧
      ((primary ≤ 0 ∨ duplicates = [] ∨ ∀ c ∈ m.rows, c.contactId ≠ primary) →
        first.2.rows = m.rows ∧ again.2.rows = once.2.rows) ∧
      (0 < primary → duplicates ≠ [] → ∀ c ∈ m.rows, c.contactId = primary →
        RetryOutcome primary c duplicates m.rows first again once) ∧
      ∀ c others,
        { mergeInto (mergeInto c others) others with notes := (mergeInto c others).notes } =
          mergeInto c others ∧
        (mergeInto (mergeInto c others) others = mergeInto c others ↔
          others = [] ∨ NotesAgree (c.notes :: others.map Customer.notes)) := by
  intro removed duplicates first again once
  have hremoved : duplicateIds primary ids = removed := duplicate_ids_eq primary ids
  have hduplicates : duplicateRows primary ids m.rows = duplicates := by
    rw [duplicateRows, hremoved]
  obtain ⟨hfailed, hfirst⟩ :=
    merge_refused (m := m.refusing (some .delete)) primary ids rfl
  obtain ⟨hagain, hagainRows, -⟩ := merge_served (m := first.2.refusing none) primary ids rfl
  obtain ⟨honce, honceRows, -⟩ := merge_served (m := m.refusing none) primary ids rfl
  change first.2.rows = (mergePlan primary ids m.rows).rowsBeforeDelete m.rows at hfirst
  change again.2.rows = (mergePlan primary ids first.2.rows).rows _ first.2.rows at hagainRows
  change once.2.rows = (mergePlan primary ids m.rows).rows _ m.rows at honceRows
  refine ⟨hagain, honce, ?_, ?_,
    fun c others => ⟨merge_into_again_but_notes c others, merge_into_again_iff c others⟩⟩
  · intro hnone
    have hsame : first.2.rows = m.rows := by
      rw [hfirst]
      apply rows_before_delete_unstored
      rwa [hduplicates]
    refine ⟨hsame, ?_⟩
    rw [hagainRows, honceRows, hsame]
  · intro hpos hsome c hc hcontact
    have hkeep : primary ∉ removed := hremoved ▸ primary_not_mem_duplicate_ids primary ids
    have hsome' : duplicateRows primary ids m.rows ≠ [] := hduplicates ▸ hsome
    have hfind := Table.find_contact hcontacts hc
    rw [hcontact] at hfind
    have hplan := merge_plan_fold hpos hsome' hfind
    have hplan' := merge_plan_again hids hcontacts hpos hsome' hc hcontact
    rw [hduplicates] at hplan hplan'
    change mergePlan primary ids m.rows ≠ .nothing → _ at hfailed
    rw [hplan] at hfailed hfirst honceRows
    have hplan_ne : MergePlan.fold (mergeInto c duplicates) duplicates.length ≠ .nothing := by
      intro h
      cases h
    change first.2.rows = Table.replace (mergeInto c duplicates) m.rows at hfirst
    rw [hfirst, hplan', hremoved] at hagainRows
    rw [hremoved] at honceRows
    refine .of_rows hc hcontact hkeep hsome (hfailed hplan_ne) ?_ ?_ ?_
    · rw [hfirst, ← hcontact]
      exact Table.replace_contact hids hcontacts hc (merge_into_id c duplicates)
    · rw [honceRows, ← hcontact]
      exact Table.delete_replace hids hcontacts hc (merge_into_id c duplicates)
        (merge_into_contact c duplicates) removed
    · -- nothing is left of the first replacement after the second
      rw [hagainRows, ← hcontact, MergePlan.rows, Table.replace_replace (merge_into_id _ _).symm]
      refine Table.delete_replace hids hcontacts hc ?_ ?_ removed
      · rw [merge_into_id, merge_into_id]
      · rw [merge_into_contact, merge_into_contact]

theorem retried_merge_of_equal_notes :
    let m := MemoryStore.ofRows [numberedRow 1 (some "Called"), numberedRow 2 (some " called")]
    let first := Action.runOn (merge MemoryStore.store 1 [2]) (m.refusing (some .delete))
    let again := Action.runOn (merge MemoryStore.store 1 [2]) (first.2.refusing none)
    let once := Action.runOn (merge MemoryStore.store 1 [2]) (m.refusing none)
    (m.rows.map Customer.id).Nodup ∧ (m.rows.map Customer.contactId).Nodup ∧
      first.1 = .error (.refused 500 "delete failed") ∧ again.2.rows = once.2.rows := by
  intro m first again once
  have hids : (m.rows.map Customer.id).Nodup := by decide
  have hcontacts : (m.rows.map Customer.contactId).Nodup := by decide
  obtain ⟨-, -, -, hstored, -⟩ := retried_merge hids hcontacts 1 [2]
  have hdup : (m.rows.filter fun c => c.contactId ∈
      (([2] : List Int).filter fun id => 0 < id ∧ id ≠ 1).eraseDups) =
        [numberedRow 2 (some " called")] := by
    decide +kernel
  rw [hdup] at hstored
  have houtcome := hstored (by decide) (List.cons_ne_nil _ _) (numberedRow 1 (some "Called"))
    List.mem_cons_self rfl
  exact ⟨hids, hcontacts, houtcome.failed, houtcome.same_iff.mpr (by decide +kernel)⟩

/-- A merge of differing notes that is asked for again writes the note of the duplicate a second
time, and so does folding the duplicate into the merged customer. -/
theorem retry_repeats_note :
    let kept := numberedRow 1 (some "A")
    let copy := numberedRow 2 (some "B")
    let m := MemoryStore.ofRows [kept, copy]
    let first := Action.runOn (merge MemoryStore.store 1 [2]) (m.refusing (some .delete))
    let again := Action.runOn (merge MemoryStore.store 1 [2]) (first.2.refusing none)
    let once := Action.runOn (merge MemoryStore.store 1 [2]) (m.refusing none)
    (m.rows.map Customer.id).Nodup ∧ (m.rows.map Customer.contactId).Nodup ∧
      first.1 = .error (.refused 500 "delete failed") ∧ copy ∈ first.2.rows ∧
      again.1 = .ok () ∧ once.2.rows.map Customer.notes = [some "A | B"] ∧
      again.2.rows.map Customer.notes = [some "A | B | B"] ∧
      again.2.rows ≠ once.2.rows ∧
      mergeInto (mergeInto kept [copy]) [copy] ≠ mergeInto kept [copy] := by
  decide +kernel

end Duplicates

end CustomerDedupe
