import Mathlib.Data.List.Induction
import Mathlib.Tactic.ByContra
import CustomerDedupe.Duplicates.Merge
import CustomerDedupe.Proofs.Text.Blank
import CustomerDedupe.Proofs.Text.Lowercase

/-!
# Merged notes

The segments that merging keeps of some notes: each is the trimmed text of a note, no two differ
only in case, and no note is lost. Merging the same notes once more reads the joined text as one
note. That text is longer than each of its parts, so if it has more than one part it equals none
of the notes, and the others are added to it again.
-/

namespace CustomerDedupe.Duplicates

/-- The text of a note without the white space around it. -/
def noteText (note : Option String) : List Char :=
  Text.trimChars (note.getD "").toList

/-- What notes are compared by. -/
def noteKey (note : Option String) : List Char :=
  Text.lowerChars (noteText note)

/-- Segments joined to one text. -/
def joinNotes (segments : List (List Char)) : List Char :=
  List.intercalate noteSeparator segments

/-- Notes of which those that are not blank differ only in case and surrounding white space. -/
def NotesAgree (notes : List (Option String)) : Prop :=
  ∀ a ∈ notes, ∀ b ∈ notes, noteText a ≠ [] → noteText b ≠ [] → noteKey a = noteKey b

instance (notes : List (Option String)) : Decidable (NotesAgree notes) :=
  inferInstanceAs (Decidable (∀ a ∈ notes, ∀ b ∈ notes, _ → _ → _))

/-- A note is added unless it is blank or a segment differs from it only in case. -/
theorem add_note_eq (segments : List (List Char)) (note : Option String) :
    addNote segments note =
      if noteText note = [] ∨ noteKey note ∈ segments.map Text.lowerChars then segments
      else segments ++ [noteText note] := by
  have hseen : (segments.any fun s => Text.lowerChars s == noteKey note) = true ↔
      noteKey note ∈ segments.map Text.lowerChars := by
    simp [List.any_eq_true, List.mem_map]
  show (if (noteText note).isEmpty then segments
    else if segments.any fun s => Text.lowerChars s == noteKey note then segments
    else segments ++ [noteText note]) = _
  by_cases hblank : noteText note = []
  · rw [if_pos (List.isEmpty_iff.mpr hblank), if_pos (.inl hblank)]
  · rw [if_neg (hblank ∘ List.isEmpty_iff.mp)]
    by_cases hmem : noteKey note ∈ segments.map Text.lowerChars
    · rw [if_pos (hseen.mpr hmem), if_pos (.inr hmem)]
    · rw [if_neg (hmem ∘ hseen.mp), if_neg (not_or.mpr ⟨hblank, hmem⟩)]

/-- What segments keep of some notes. -/
structure NotesKept (notes : List (Option String)) (segments : List (List Char)) : Prop where
  /-- Every segment is the text of a note. -/
  texts : ∀ s ∈ segments, s ≠ [] ∧ ∃ note ∈ notes, noteText note = s
  /-- No two segments differ only in case. -/
  distinct : (segments.map Text.lowerChars).Nodup
  /-- No note that is not blank is lost. -/
  covered : ∀ note ∈ notes, noteText note ≠ [] → noteKey note ∈ segments.map Text.lowerChars

/-- Adding a note keeps it beside those before. -/
theorem NotesKept.add {notes : List (Option String)} {segments : List (List Char)}
    (h : NotesKept notes segments) (note : Option String) :
    NotesKept (notes ++ [note]) (addNote segments note) := by
  have htexts : ∀ s ∈ segments, s ≠ [] ∧ ∃ n ∈ notes ++ [note], noteText n = s := by
    intro s hs
    obtain ⟨hne, n, hn, heq⟩ := h.texts s hs
    exact ⟨hne, n, List.mem_append_left _ hn, heq⟩
  rw [add_note_eq]
  split
  · next hskip =>
    refine ⟨htexts, h.distinct, ?_⟩
    intro n hn hne
    rcases List.mem_append.mp hn with hn | hn
    · exact h.covered n hn hne
    · obtain rfl := List.mem_singleton.mp hn
      exact hskip.resolve_left hne
  · next hadd =>
    obtain ⟨hne, hnew⟩ := not_or.mp hadd
    refine ⟨?_, ?_, ?_⟩
    · intro s hs
      rcases List.mem_append.mp hs with hs | hs
      · exact htexts s hs
      · obtain rfl := List.mem_singleton.mp hs
        exact ⟨hne, note, List.mem_append_right _ (List.mem_singleton_self _), rfl⟩
    · rw [List.map_append, List.nodup_append]
      refine ⟨h.distinct, List.nodup_cons.mpr ⟨List.not_mem_nil, List.nodup_nil⟩, ?_⟩
      rintro a ha b hb rfl
      obtain rfl := List.mem_singleton.mp hb
      exact hnew ha
    · intro n hn hne'
      rw [List.map_append, List.mem_append]
      rcases List.mem_append.mp hn with hn | hn
      · exact .inl (h.covered n hn hne')
      · obtain rfl := List.mem_singleton.mp hn
        exact .inr (List.mem_singleton_self _)

/-- The segments of some notes keep all of them. -/
theorem notes_kept (notes : List (Option String)) : NotesKept notes (noteSegments notes) := by
  -- notes are added at the end, so the induction is from there
  induction notes using List.reverseRecOn with
  | nil => exact ⟨nofun, List.nodup_nil, nofun⟩
  | append_singleton notes note ih =>
      have hstep : noteSegments (notes ++ [note]) = addNote (noteSegments notes) note := by
        unfold noteSegments
        rw [List.foldl_append]
        rfl
      rw [hstep]
      exact ih.add note

/-- Notes agree exactly if at most one segment is kept of them. -/
theorem notes_agree_iff (notes : List (Option String)) :
    NotesAgree notes ↔ (noteSegments notes).length ≤ 1 := by
  have hkept := notes_kept notes
  constructor
  · intro hagree
    match hsegments : noteSegments notes with
    | [] => exact Nat.zero_le 1
    | [_] => exact Nat.le_refl 1
    | s :: t :: rest =>
        exfalso
        rw [hsegments] at hkept
        obtain ⟨hs, a, ha, rfl⟩ := hkept.texts s List.mem_cons_self
        obtain ⟨ht, b, hb, rfl⟩ := hkept.texts t (List.mem_cons_of_mem _ List.mem_cons_self)
        have hsame : noteKey a = noteKey b := hagree a ha b hb hs ht
        exact (List.nodup_cons.mp hkept.distinct).1 (List.mem_cons.mpr (.inl hsame))
  · intro hle a ha b hb hane hbne
    have hka := hkept.covered a ha hane
    have hkb := hkept.covered b hb hbne
    match hsegments : noteSegments notes with
    | [] => simp [hsegments] at hka
    | [s] =>
        rw [hsegments] at hka hkb
        exact (List.mem_singleton.mp hka).trans (List.mem_singleton.mp hkb).symm
    | _ :: _ :: _ => simp [hsegments] at hle

section Join

/-- A segment before others is joined to them by the separator. -/
theorem join_notes_cons {rest : List (List Char)} (hrest : rest ≠ []) (s : List Char) :
    joinNotes (s :: rest) = s ++ noteSeparator ++ joinNotes rest := by
  unfold joinNotes
  rw [List.intercalate_cons_of_ne_nil hrest]

/-- Trimmed segments that are not empty are joined to a trimmed text that is not empty. -/
theorem trimmed_join_notes {segments : List (List Char)} (hsome : segments ≠ [])
    (h : ∀ s ∈ segments, Text.Trimmed s ∧ s ≠ []) :
    Text.Trimmed (joinNotes segments) ∧ joinNotes segments ≠ [] := by
  induction segments with
  | nil => exact absurd rfl hsome
  | cons s rest ih =>
      obtain ⟨hs, hs'⟩ := h s List.mem_cons_self
      by_cases hrest : rest = []
      · subst hrest
        have hone : joinNotes [s] = s := List.intercalate_singleton
        rw [hone]
        exact ⟨hs, hs'⟩
      · obtain ⟨hjoin, hjoin'⟩ := ih hrest fun t ht => h t (List.mem_cons_of_mem _ ht)
        rw [join_notes_cons hrest]
        refine ⟨hs.append hjoin hs' hjoin' noteSeparator, ?_⟩
        intro hnil
        exact hjoin' (List.append_eq_nil_iff.mp hnil).2

/-- How long the lowercase form of a segment before others is. -/
theorem length_lower_join_cons {rest : List (List Char)} (hrest : rest ≠ []) (s : List Char) :
    (Text.lowerChars s).length + (Text.lowerChars (joinNotes rest)).length <
      (Text.lowerChars (joinNotes (s :: rest))).length := by
  have hseparator : 0 < (Text.lowerChars noteSeparator).length :=
    Text.length_lower_chars_pos (List.cons_ne_nil _ _)
  rw [join_notes_cons hrest, Text.length_lower_chars_append, Text.length_lower_chars_append]
  omega

/-- The lowercase form of a segment is at most as long as that of the joined text. -/
theorem length_lower_le_join {segments : List (List Char)} {s : List Char}
    (hs : s ∈ segments) :
    (Text.lowerChars s).length ≤ (Text.lowerChars (joinNotes segments)).length := by
  induction segments with
  | nil => cases hs
  | cons t rest ih =>
      by_cases hrest : rest = []
      · subst hrest
        obtain rfl := List.mem_singleton.mp hs
        have hone : joinNotes [s] = s := List.intercalate_singleton
        rw [hone]
      · have hlong := length_lower_join_cons hrest t
        rcases List.mem_cons.mp hs with rfl | hs
        · omega
        · have hle := ih hs
          omega

/-- Of several segments none differs from the joined text only in case. -/
theorem lower_ne_lower_join {segments : List (List Char)} (htwo : 2 ≤ segments.length)
    {s : List Char} (hs : s ∈ segments) :
    Text.lowerChars s ≠ Text.lowerChars (joinNotes segments) := by
  match segments, htwo with
  | t :: u :: rest, _ =>
      -- the forms cannot be compared letter by letter, since a sigma may lose its final form
      have hlong := length_lower_join_cons (List.cons_ne_nil u rest) t
      intro heq
      have hlength := congrArg List.length heq
      rcases List.mem_cons.mp hs with rfl | hs
      · omega
      · have hle := length_lower_le_join hs
        omega

end Join

section Again

/-- Notes that segments already cover add nothing. -/
theorem fold_add_note_of_covered {segments : List (List Char)} {notes : List (Option String)}
    (h : ∀ note ∈ notes, noteText note ≠ [] → noteKey note ∈ segments.map Text.lowerChars) :
    notes.foldl addNote segments = segments := by
  induction notes with
  | nil => rfl
  | cons note rest ih =>
      have hskip : noteText note = [] ∨ noteKey note ∈ segments.map Text.lowerChars := by
        by_cases hblank : noteText note = []
        · exact .inl hblank
        · exact .inr (h note List.mem_cons_self hblank)
      rw [List.foldl_cons, add_note_eq, if_pos hskip]
      exact ih fun n hn => h n (List.mem_cons_of_mem _ hn)

/-- Notes that all differ from a segment are added as if it were not there. -/
theorem fold_add_note_cons {head : List Char} {notes : List (Option String)}
    (h : ∀ note ∈ notes, noteText note ≠ [] → noteKey note ≠ Text.lowerChars head)
    (segments : List (List Char)) :
    notes.foldl addNote (head :: segments) = head :: notes.foldl addNote segments := by
  induction notes generalizing segments with
  | nil => rfl
  | cons note rest ih =>
      have hrest := ih fun n hn => h n (List.mem_cons_of_mem _ hn)
      have hstep : addNote (head :: segments) note = head :: addNote segments note := by
        rw [add_note_eq, add_note_eq]
        by_cases hblank : noteText note = []
        · rw [if_pos (.inl hblank), if_pos (.inl hblank)]
        · have hne := h note List.mem_cons_self hblank
          by_cases hmem : noteKey note ∈ segments.map Text.lowerChars
          · rw [if_pos (.inr (List.mem_cons_of_mem _ hmem)), if_pos (.inr hmem)]
          · have hmem' : noteKey note ∉ (head :: segments).map Text.lowerChars :=
              fun hin => (List.mem_cons.mp hin).elim hne hmem
            rw [if_neg (not_or.mpr ⟨hblank, hmem'⟩), if_neg (not_or.mpr ⟨hblank, hmem⟩)]
            rfl
      rw [List.foldl_cons, List.foldl_cons, hstep]
      exact hrest _

/-- Merged notes are the joined segments, if there are any. -/
theorem merged_notes_eq (present : Option String) (others : List (Option String)) :
    mergedNotes present others =
      if noteSegments (present :: others) = [] then present
      else some (String.ofList (joinNotes (noteSegments (present :: others)))) := by
  unfold mergedNotes
  split
  · next hnil => rw [if_pos hnil]
  · next hsome => rw [if_neg hsome]; rfl

/-- The text of joined segments is the joined text. -/
theorem note_text_join {notes : List (Option String)} (hsome : noteSegments notes ≠ []) :
    noteText (some (String.ofList (joinNotes (noteSegments notes)))) =
        joinNotes (noteSegments notes) ∧
      joinNotes (noteSegments notes) ≠ [] := by
  have htrimmed : ∀ s ∈ noteSegments notes, Text.Trimmed s ∧ s ≠ [] := by
    intro s hs
    obtain ⟨hne, note, -, rfl⟩ := (notes_kept notes).texts s hs
    exact ⟨Text.trimmed_trim_chars _, hne⟩
  obtain ⟨hjoin, hjoin'⟩ := trimmed_join_notes hsome htrimmed
  refine ⟨?_, hjoin'⟩
  show Text.trimChars (String.ofList (joinNotes (noteSegments notes))).toList = _
  rw [String.toList_ofList, Text.trim_chars_eq_self hjoin]

/-- Merging again starts from the joined text. -/
theorem note_segments_again {notes : List (Option String)} (hsome : noteSegments notes ≠ [])
    (others : List (Option String)) :
    noteSegments (some (String.ofList (joinNotes (noteSegments notes))) :: others) =
      others.foldl addNote [joinNotes (noteSegments notes)] := by
  obtain ⟨htext, hne⟩ := note_text_join hsome
  have hfirst : addNote [] (some (String.ofList (joinNotes (noteSegments notes)))) =
      [joinNotes (noteSegments notes)] := by
    rw [add_note_eq, htext, List.map_nil, if_neg (not_or.mpr ⟨hne, List.not_mem_nil⟩),
      List.nil_append]
  unfold noteSegments at *
  rw [List.foldl_cons, hfirst]

variable {present : Option String} {others : List (Option String)}

/-- Notes that agree are merged once and for all. -/
theorem merged_notes_again_of_agree (hagree : NotesAgree (present :: others)) :
    mergedNotes (mergedNotes present others) others = mergedNotes present others := by
  have hle := (notes_agree_iff _).mp hagree
  have hkept := notes_kept (present :: others)
  match hsegments : noteSegments (present :: others) with
  | [] =>
      have hsame : mergedNotes present others = present := by
        rw [merged_notes_eq, if_pos hsegments]
      rw [hsame, hsame]
  | [s] =>
      have hsome : noteSegments (present :: others) ≠ [] := by
        rw [hsegments]
        exact List.cons_ne_nil _ _
      -- the joined text is the only segment, and it covers every note as it did before
      have hone : joinNotes [s] = s := List.intercalate_singleton
      have hagain := note_segments_again hsome others
      rw [hsegments] at hkept
      rw [hsegments, hone, fold_add_note_of_covered fun n hn => hkept.covered n
        (List.mem_cons_of_mem _ hn)] at hagain
      rw [merged_notes_eq present others, if_neg hsome, hsegments, hone, merged_notes_eq, hagain,
        if_neg (List.cons_ne_nil _ _), hone]
  | _ :: _ :: _ => simp [hsegments] at hle

/-- Notes that do not agree are added to the joined text once more. -/
theorem merged_notes_again_of_not_agree (hagree : ¬NotesAgree (present :: others)) :
    mergedNotes present others =
        some (String.ofList (joinNotes (noteSegments (present :: others)))) ∧
      mergedNotes (mergedNotes present others) others =
        some (String.ofList (joinNotes (noteSegments (present :: others)) ++ noteSeparator ++
          joinNotes (noteSegments others))) := by
  have hkept := notes_kept (present :: others)
  have htwo : 2 ≤ (noteSegments (present :: others)).length := by
    have hgt := mt (notes_agree_iff _).mpr hagree
    omega
  have hsome : noteSegments (present :: others) ≠ [] := by
    intro hnil
    rw [hnil] at htwo
    cases htwo
  have hfirst : mergedNotes present others =
      some (String.ofList (joinNotes (noteSegments (present :: others)))) := by
    rw [merged_notes_eq, if_neg hsome]
  have hdiffer : ∀ note ∈ others, noteText note ≠ [] →
      noteKey note ≠ Text.lowerChars (joinNotes (noteSegments (present :: others))) := by
    intro note hnote hne
    -- the note differs only in case from a segment, and every segment from the joined text in more
    obtain ⟨s, hs, heq⟩ := List.mem_map.mp (hkept.covered note (List.mem_cons_of_mem _ hnote) hne)
    rw [← heq]
    exact lower_ne_lower_join htwo hs
  have hagain : noteSegments (mergedNotes present others :: others) =
      joinNotes (noteSegments (present :: others)) :: noteSegments others := by
    rw [hfirst, note_segments_again hsome, fold_add_note_cons hdiffer]
    rfl
  have hothers : noteSegments others ≠ [] := by
    -- without notes among the others there would be one segment at most
    intro hnil
    apply hagree
    rw [notes_agree_iff]
    have hblank : ∀ note ∈ others, noteText note = [] := by
      intro note hnote
      by_contra hne
      have hcovered := (notes_kept others).covered note hnote hne
      rw [hnil] at hcovered
      exact List.not_mem_nil hcovered
    have hfold : noteSegments (present :: others) = addNote [] present :=
      fold_add_note_of_covered fun note hnote hne => absurd (hblank note hnote) hne
    rw [hfold, add_note_eq]
    split
    · exact Nat.zero_le 1
    · exact Nat.le_refl 1
  refine ⟨hfirst, ?_⟩
  rw [merged_notes_eq, hagain, if_neg (List.cons_ne_nil _ _), join_notes_cons hothers]

/-- Merging notes again changes nothing exactly if they agree. -/
theorem merged_notes_again_iff :
    mergedNotes (mergedNotes present others) others = mergedNotes present others ↔
      NotesAgree (present :: others) := by
  constructor
  · intro hsame
    by_contra hagree
    obtain ⟨hfirst, hagain⟩ := merged_notes_again_of_not_agree hagree
    rw [hagain, hfirst, Option.some.injEq] at hsame
    have hlength := congrArg (fun s => s.toList.length) hsame
    simp only [String.toList_ofList, List.length_append] at hlength
    have hseparator : noteSeparator.length = 3 := rfl
    omega
  · exact merged_notes_again_of_agree

end Again

end CustomerDedupe.Duplicates
