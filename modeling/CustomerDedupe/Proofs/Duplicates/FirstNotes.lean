import Mathlib.Data.List.Nodup
import CustomerDedupe.Proofs.Duplicates.MergeAgain

/-!
# The order of merged notes

Of notes that differ only in case and in the white space around them, a merge keeps the one that
comes first, and those kept stand in the order of the notes. `NotesInOrder` says which segments
some notes have, and `NotesInOrder.unique` that there are no others. The main result,
`merged_notes_first_occurrences`, says that the notes of a merged customer are these segments put
together.
-/

namespace CustomerDedupe.Duplicates

/-- The note at a place has this text, it is not blank, and no note before it differs from it only
in case and surrounding white space. -/
structure FirstNote (notes : List (Option String)) (place : Nat) (text : List Char) : Prop where
  present : ∃ note, notes[place]? = some note ∧ noteText note = text
  not_blank : text ≠ []
  new : ∀ earlier ∈ notes.take place, noteText earlier ≠ [] → noteKey earlier ≠ Text.lowerChars text

/-- Segments that keep some notes, each with the text in which it occurs first and in the order of
these first occurrences. -/
structure NotesInOrder (notes : List (Option String)) (segments : List (List Char)) : Prop
    extends NotesKept notes segments where
  in_order : ∃ firsts : List (Nat × List Char), firsts.Pairwise (fun a b => a.1 < b.1) ∧
    (∀ first ∈ firsts, FirstNote notes first.1 first.2) ∧ segments = firsts.map Prod.snd

section First

variable {notes : List (Option String)} {i j : Nat} {s t : List Char}

/-- A place that holds a note is one of the list. -/
theorem FirstNote.lt_length (h : FirstNote notes i s) : i < notes.length := by
  obtain ⟨note, hnote, -⟩ := h.present
  exact (List.getElem?_eq_some_iff.mp hnote).1

/-- What a place holds determines the text. -/
theorem FirstNote.text_eq (h : FirstNote notes i s) (h' : FirstNote notes i t) : s = t := by
  obtain ⟨note, hnote, rfl⟩ := h.present
  obtain ⟨note', hnote', rfl⟩ := h'.present
  obtain rfl := Option.some.inj (hnote.symm.trans hnote')
  rfl

/-- A note cannot occur first behind another that differs from it only in case. -/
theorem FirstNote.place_le (h : FirstNote notes i s) (h' : FirstNote notes j t)
    (hsame : Text.lowerChars s = Text.lowerChars t) : j ≤ i := by
  refine Nat.le_of_not_lt fun hlt => ?_
  obtain ⟨note, hnote, rfl⟩ := h.present
  have hearlier : note ∈ notes.take j := by
    rw [List.mem_iff_getElem?]
    exact ⟨i, by rw [List.getElem?_take_of_lt hlt, hnote]⟩
  exact h'.new note hearlier h.not_blank hsame

/-- Notes that are added behind do not change what occurs first. -/
theorem FirstNote.append (h : FirstNote notes i s) (more : List (Option String)) :
    FirstNote (notes ++ more) i s := by
  obtain ⟨note, hnote, htext⟩ := h.present
  refine ⟨⟨note, ?_, htext⟩, h.not_blank, ?_⟩
  · rw [List.getElem?_append_left h.lt_length, hnote]
  · rw [List.take_append_of_le_length (Nat.le_of_lt h.lt_length)]
    exact h.new

end First

/-- Adding a note keeps the segments in order. -/
theorem NotesInOrder.add {notes : List (Option String)} {segments : List (List Char)}
    (h : NotesInOrder notes segments) (note : Option String) :
    NotesInOrder (notes ++ [note]) (addNote segments note) := by
  refine ⟨h.toNotesKept.add note, ?_⟩
  obtain ⟨firsts, hascending, hfirst, rfl⟩ := h.in_order
  rw [add_note_eq]
  split
  · exact ⟨firsts, hascending, fun first hmem => (hfirst first hmem).append [note], rfl⟩
  · next hadd =>
    obtain ⟨hne, hnew⟩ := not_or.mp hadd
    refine ⟨firsts ++ [(notes.length, noteText note)], ?_, ?_, by simp⟩
    · refine List.pairwise_append.mpr ⟨hascending, List.pairwise_singleton _ _, ?_⟩
      intro first hmem last hlast
      obtain rfl := List.mem_singleton.mp hlast
      exact (hfirst first hmem).lt_length
    · intro first hmem
      rcases List.mem_append.mp hmem with hmem | hmem
      · exact (hfirst first hmem).append [note]
      · obtain rfl := List.mem_singleton.mp hmem
        refine ⟨⟨note, List.getElem?_concat_length, rfl⟩, hne, ?_⟩
        intro earlier hearlier hearlier' heq
        rw [List.take_left] at hearlier
        have hcovered := h.covered earlier hearlier hearlier'
        rw [heq] at hcovered
        exact hnew hcovered

/-- The segments of some notes stand in order. -/
theorem notes_in_order (notes : List (Option String)) :
    NotesInOrder notes (noteSegments notes) := by
  -- as in `notes_kept`, notes are added at the end
  induction notes using List.reverseRecOn with
  | nil => exact ⟨notes_kept [], [], List.Pairwise.nil, nofun, rfl⟩
  | append_singleton notes note ih =>
      have hstep : noteSegments (notes ++ [note]) = addNote (noteSegments notes) note := by
        unfold noteSegments
        rw [List.foldl_append]
        rfl
      rw [hstep]
      exact ih.add note

/-- Whatever occurs first in some notes is among the first occurrences of every list of segments
in order. -/
theorem mem_firsts_of_first {notes : List (Option String)} {firsts : List (Nat × List Char)}
    (hcovered : ∀ note ∈ notes, noteText note ≠ [] →
      noteKey note ∈ (firsts.map Prod.snd).map Text.lowerChars)
    (hfirst : ∀ first ∈ firsts, FirstNote notes first.1 first.2) {i : Nat} {s : List Char}
    (h : FirstNote notes i s) : (i, s) ∈ firsts := by
  obtain ⟨note, hnote, htext⟩ := h.present
  have hmem : note ∈ notes := List.mem_of_getElem? hnote
  have hkey := hcovered note hmem (htext ▸ h.not_blank)
  rw [List.map_map] at hkey
  obtain ⟨⟨j, t⟩, hj, hsame⟩ := List.mem_map.mp hkey
  have hother := hfirst _ hj
  have hlower : Text.lowerChars t = Text.lowerChars s := by
    rw [← htext]
    exact hsame
  -- both are the first with the same key, so they are at the same place
  obtain rfl : i = j :=
    Nat.le_antisymm (hother.place_le h hlower) (h.place_le hother hlower.symm)
  obtain rfl := h.text_eq hother
  exact hj

/-- Some notes have only one list of segments in order. -/
theorem NotesInOrder.unique {notes : List (Option String)} {left right : List (List Char)}
    (hleft : NotesInOrder notes left) (hright : NotesInOrder notes right) : left = right := by
  obtain ⟨firsts, hascending, hfirst, rfl⟩ := hleft.in_order
  obtain ⟨firsts', hascending', hfirst', rfl⟩ := hright.in_order
  have hnodup : ∀ {l : List (Nat × List Char)}, l.Pairwise (fun a b => a.1 < b.1) → l.Nodup :=
    fun h => h.imp fun hlt heq => Nat.ne_of_lt hlt (congrArg Prod.fst heq)
  have hperm : firsts.Perm firsts' := by
    refine (List.perm_ext_iff_of_nodup (hnodup hascending) (hnodup hascending')).mpr ?_
    intro first
    exact ⟨fun h => mem_firsts_of_first hright.covered hfirst' (hfirst first h),
      fun h => mem_firsts_of_first hleft.covered hfirst (hfirst' first h)⟩
  have hsame : firsts = firsts' :=
    hperm.eq_of_pairwise (fun _ _ _ _ hab hba => absurd hba (Nat.lt_asymm hab)) hascending
      hascending'
  rw [hsame]

/-- Notes have segments exactly if one of them is not blank. -/
theorem note_segments_eq_nil_iff (notes : List (Option String)) :
    noteSegments notes = [] ↔ ∀ note ∈ notes, noteText note = [] := by
  have hkept := notes_kept notes
  constructor
  · intro hnil note hnote
    by_contra hne
    have hcovered := hkept.covered note hnote hne
    rw [hnil] at hcovered
    exact List.not_mem_nil hcovered
  · intro hblank
    refine List.eq_nil_iff_forall_not_mem.mpr fun s hs => ?_
    obtain ⟨hne, note, hnote, rfl⟩ := hkept.texts s hs
    exact hne (hblank note hnote)

/-- The notes of a customer into which duplicates are folded stay as they are if all notes are
blank. Otherwise they are put together, with the separator between them, from segments: the texts
of the notes that are not blank, without the white space around them, every one of which is there
up to case, and none twice up to case, in the order and with the spelling of their first occurrence,
the customer's own note before those of the duplicates. There is only one such list. -/
theorem merged_notes_first_occurrences (primary : Customer) {duplicates : List Customer}
    (hsome : duplicates ≠ []) :
    let notes := primary.notes :: duplicates.map Customer.notes
    ((∀ note ∈ notes, noteText note = []) →
      (mergeInto primary duplicates).notes = primary.notes) ∧
    ((∃ note ∈ notes, noteText note ≠ []) →
      ∃ segments, NotesInOrder notes segments ∧
        (mergeInto primary duplicates).notes =
          some (String.ofList (List.intercalate noteSeparator segments)) ∧
        ∀ others, NotesInOrder notes others → others = segments) := by
  intro notes
  have hmerged := (merge_into_notes primary hsome).trans (merged_notes_eq _ _)
  have hnil := note_segments_eq_nil_iff notes
  refine ⟨fun hblank => ?_, fun ⟨note, hnote, hne⟩ => ?_⟩
  · rw [hmerged, if_pos (hnil.mpr hblank)]
  · refine ⟨noteSegments notes, notes_in_order notes, ?_, fun _ h => h.unique (notes_in_order _)⟩
    rw [hmerged, if_neg fun hempty => hne (hnil.mp hempty note hnote)]
    rfl

theorem merged_notes_of_three :
    let kept := numberedRow 1 (some " Called twice")
    let copies := [numberedRow 2 none, numberedRow 3 (some "Prefers SMS"),
      numberedRow 4 (some "called TWICE "), numberedRow 5 (some "prefers sms")]
    copies ≠ [] ∧ (mergeInto kept copies).notes = some "Called twice | Prefers SMS" ∧
      ∀ segments, NotesInOrder (kept.notes :: copies.map Customer.notes) segments →
        segments = ["Called twice".toList, "Prefers SMS".toList] := by
  intro kept copies
  have hsome : copies ≠ [] := List.cons_ne_nil _ _
  obtain ⟨segments, -, -, hunique⟩ := (merged_notes_first_occurrences kept hsome).2
    ⟨some " Called twice", List.mem_cons_self, by decide +kernel⟩
  have hsegments : noteSegments (kept.notes :: copies.map Customer.notes) =
      ["Called twice".toList, "Prefers SMS".toList] := by
    decide +kernel
  refine ⟨hsome, by decide +kernel, fun others hothers => ?_⟩
  rw [hunique others hothers, ← hunique _ (notes_in_order _), hsegments]

end CustomerDedupe.Duplicates
