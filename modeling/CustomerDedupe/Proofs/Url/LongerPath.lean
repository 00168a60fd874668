import Mathlib.Data.List.DropRight
import Mathlib.Data.List.TakeWhile
import CustomerDedupe.Proofs.Text.Numeral
import CustomerDedupe.Url.Basic

/-!
# Addresses with a longer path

Whoever wants more path behind an address can put it behind the text of the address, without the
slashes at its end. That gives the same address with the longer path if the text is `Extensible`:
it has no query and no fragment, which would take the rest in, and no blank stands right behind
the host, where it would become part of the host (`Extensible.read_longer`).
-/

namespace CustomerDedupe.Url

/-! ## What counts in a text -/

/-- Blanks and controls, which reading passes over at the ends. -/
def isEdge (c : Char) : Bool :=
  c.toNat ≤ 0x20

/-- All but tabs and line ends, which reading passes over anywhere. -/
def isKept (c : Char) : Bool :=
  c != '\t' && c != '\n' && c != '\r'

theorem significant_eq (s : List Char) :
    significant s = ((s.dropWhile isEdge).rdropWhile isEdge).filter isKept := rfl

/-- The blanks and controls at the end of a text that count if something follows. -/
def trailing (s : List Char) : List Char :=
  ((s.dropWhile isEdge).rtakeWhile isEdge).filter isKept

/-- The characters of a text that count if something follows. -/
def opened (s : List Char) : List Char :=
  (s.dropWhile isEdge).filter isKept

theorem opened_eq (s : List Char) : opened s = significant s ++ trailing s := by
  rw [significant_eq, trailing, ← List.filter_append, List.rdropWhile_append_rtakeWhile, opened]

/-- A text that counts in full and does not end in a blank. -/
structure Solid (s : List Char) : Prop where
  kept : ∀ c ∈ s, isKept c = true
  closed : ∀ h : s ≠ [], isEdge (s.getLast h) = false

theorem opened_append {s t : List Char} (hs : significant s ≠ []) (ht : Solid t) :
    opened (s ++ t) = opened s ++ t := by
  have hne : s.dropWhile isEdge ≠ [] := by
    intro h
    rw [significant_eq, h] at hs
    exact hs rfl
  rw [opened, List.dropWhile_append, if_neg (by simpa using hne), List.filter_append,
    List.filter_eq_self.2 ht.kept, opened]

/-- Behind a text that is not blank, a solid one counts together with all before it. -/
theorem significant_append {s t : List Char} (hs : significant s ≠ []) (ht : Solid t)
    (hne : t ≠ []) : significant (s ++ t) = opened s ++ t := by
  have hlast : trailing (s ++ t) = [] := by
    rw [trailing, List.dropWhile_append]
    have hopen : s.dropWhile isEdge ≠ [] := by
      intro h
      rw [significant_eq, h] at hs
      exact hs rfl
    rw [if_neg (by simpa using hopen)]
    have hnil : (s.dropWhile isEdge ++ t).rtakeWhile isEdge = [] := by
      rw [List.rtakeWhile_eq_nil_iff]
      intro h
      rw [List.getLast_append_of_ne_nil _ hne, ht.closed hne]
      exact Bool.false_ne_true
    rw [hnil, List.filter_nil]
  have heq := opened_eq (s ++ t)
  rw [hlast, List.append_nil] at heq
  rw [← heq, opened_append hs ht]

theorem kept_of_not_edge {c : Char} (h : isEdge c = false) : isKept c = true := by
  rcases hkept : isKept c with _ | _
  · have hc : c = '\t' ∨ c = '\n' ∨ c = '\r' := by
      simp only [isKept, bne, Bool.and_eq_false_iff, Bool.not_eq_false', beq_iff_eq] at hkept
      rcases hkept with (h1 | h2) | h3
      · exact .inl h1
      · exact .inr (.inl h2)
      · exact .inr (.inr h3)
    rcases hc with rfl | rfl | rfl <;> exact absurd h (by decide)
  · rfl

theorem mem_significant {s : List Char} {c : Char} (hmem : c ∈ s) (hc : isEdge c = false) :
    c ∈ significant s := by
  have hnot : ∀ t : List Char, (∀ d ∈ t, isEdge d = true) → c ∉ t := by
    intro t ht h
    rw [ht c h] at hc
    exact Bool.noConfusion hc
  rw [significant_eq, List.mem_filter]
  refine ⟨?_, kept_of_not_edge hc⟩
  have hfront : c ∈ s.dropWhile isEdge := by
    rw [← List.takeWhile_append_dropWhile (p := isEdge) (l := s), List.mem_append] at hmem
    exact hmem.resolve_left (hnot _ fun _ => List.mem_takeWhile_imp)
  rw [← List.rdropWhile_append_rtakeWhile (p := isEdge) (l := s.dropWhile isEdge),
    List.mem_append] at hfront
  exact hfront.resolve_right (hnot _ fun _ => List.mem_rtakeWhile_imp)

theorem mem_of_mem_significant {s : List Char} {c : Char} (h : c ∈ significant s) : c ∈ s := by
  rw [significant_eq, List.mem_filter] at h
  exact (List.dropWhile_sublist _).mem ((List.rdropWhile_prefix _ _).subset h.1)

theorem mem_of_mem_trailing {s : List Char} {c : Char} (h : c ∈ trailing s) : c ∈ s := by
  rw [trailing, List.mem_filter] at h
  exact (List.dropWhile_sublist _).mem ((List.rtakeWhile_suffix _ _).subset h.1)

/-! ## Slashes at the end -/

/-- A text without the slashes at its end. -/
def withoutSlashes (s : List Char) : List Char :=
  s.rdropWhile (· == '/')

/-- What counts before the slashes at the end of a text. -/
theorem significant_without_slashes {s : List Char} (hs : ':' ∈ significant s) :
    ∃ k n, significant s = k ++ List.replicate n '/' ∧ (n = 0 ∨ trailing s = []) ∧
      ∀ t, Solid t → t ≠ [] → significant (withoutSlashes s ++ t) = k ++ trailing s ++ t := by
  have hsplit : withoutSlashes s ++ s.rtakeWhile (· == '/') = s :=
    List.rdropWhile_append_rtakeWhile
  have hslashes : ∀ c ∈ s.rtakeWhile (· == '/'), c = '/' := fun c hc =>
    eq_of_beq (List.mem_rtakeWhile_imp (p := (· == '/')) hc)
  rcases hnil : s.rtakeWhile (· == '/') with _ | ⟨c, more⟩
  · rw [hnil, List.append_nil] at hsplit
    refine ⟨significant s, 0, by simp, .inl rfl, fun t ht hne => ?_⟩
    rw [hsplit, significant_append (List.ne_nil_of_mem hs) ht hne, opened_eq]
  · have hne : s.rtakeWhile (· == '/') ≠ [] := by simp [hnil]
    have hcolon : ':' ∈ withoutSlashes s := by
      have hmem := mem_of_mem_significant hs
      rw [← hsplit, List.mem_append] at hmem
      exact hmem.resolve_right fun h => absurd (hslashes _ h) (by decide)
    have hopen : significant (withoutSlashes s) ≠ [] :=
      List.ne_nil_of_mem (mem_significant hcolon (by decide))
    have hsolid : Solid (s.rtakeWhile (· == '/')) :=
      ⟨fun c hc => by rw [hslashes c hc]; decide,
        fun h => by rw [hslashes _ (List.getLast_mem h)]; decide⟩
    have hsig : significant s = opened (withoutSlashes s) ++ s.rtakeWhile (· == '/') := by
      rw [← significant_append hopen hsolid hne, hsplit]
    have hopened : opened s = opened (withoutSlashes s) ++ s.rtakeWhile (· == '/') := by
      rw [← opened_append hopen hsolid, hsplit]
    have htrailing : trailing s = [] := by
      have heq := opened_eq s
      rw [hopened, ← hsig] at heq
      exact (List.append_right_eq_self.1 heq.symm)
    refine ⟨opened (withoutSlashes s), (s.rtakeWhile (· == '/')).length, ?_, .inr htrailing,
      fun t ht hne => ?_⟩
    · rw [hsig, List.eq_replicate_length.2 hslashes, List.length_replicate]
    · rw [significant_append hopen ht hne, htrailing, List.append_nil]

/-! ## Schemes -/

/-- A text cut at its scheme. -/
theorem split_scheme_eq_some_iff {s scheme rest : List Char} :
    splitScheme? s = some (scheme, rest) ↔
      ∃ c name, s = c :: name ++ ':' :: rest ∧ c.isAlpha = true ∧
        (∀ d ∈ c :: name, isSchemeChar d = true) ∧ scheme = (c :: name).map Char.toLower := by
  constructor
  · intro h
    have hall : ∀ d ∈ s.takeWhile isSchemeChar, isSchemeChar d = true := fun _ =>
      List.mem_takeWhile_imp
    have hdrop : s.takeWhile isSchemeChar ++ s.drop (s.takeWhile isSchemeChar).length = s :=
      List.prefix_iff_eq_append.1 (List.takeWhile_prefix _)
    unfold splitScheme? at h
    simp only at h
    split at h
    · rename_i c name more hname hmore
      split at h
      · rename_i halpha
        obtain ⟨rfl, rfl⟩ := Prod.mk.inj (Option.some.inj h)
        rw [hmore, hname] at hdrop
        rw [hname] at hall
        exact ⟨c, name, hdrop.symm, halpha, hall, by rw [hname]⟩
      · cases h
    · cases h
  · rintro ⟨c, name, rfl, halpha, hall, rfl⟩
    have hname : (c :: name ++ ':' :: rest).takeWhile isSchemeChar = c :: name := by
      rw [List.takeWhile_append_of_pos hall, List.takeWhile_cons_of_neg (by decide),
        List.append_nil]
    have hrest : (c :: name ++ ':' :: rest).drop (c :: name).length = ':' :: rest :=
      List.drop_left
    unfold splitScheme?
    simp only [hname, hrest, halpha, if_true]

/-- What stands behind the first colon does not matter to the scheme. -/
theorem split_scheme_append {s scheme rest : List Char}
    (h : splitScheme? s = some (scheme, rest)) (t : List Char) :
    splitScheme? (s ++ t) = some (scheme, rest ++ t) := by
  obtain ⟨c, name, rfl, halpha, hall, rfl⟩ := split_scheme_eq_some_iff.1 h
  exact split_scheme_eq_some_iff.2 ⟨c, name, by simp, halpha, hall, rfl⟩

theorem split_scheme_of_append {s t scheme rest : List Char} (ht : ':' ∉ t)
    (h : splitScheme? (s ++ t) = some (scheme, rest)) :
    ∃ more, splitScheme? s = some (scheme, more) ∧ rest = more ++ t := by
  obtain ⟨c, name, hst, halpha, hall, rfl⟩ := split_scheme_eq_some_iff.1 h
  rcases List.append_eq_append_iff.1 hst with ⟨d, hname, hd⟩ | ⟨d, hs, hd⟩
  · exact absurd (by rw [hd]; simp) ht
  · rcases d with _ | ⟨colon, more⟩
    · rw [List.nil_append] at hd
      exact absurd (by rw [← hd]; simp) ht
    · obtain ⟨rfl, rfl⟩ := List.cons.inj hd
      exact ⟨more, split_scheme_eq_some_iff.2 ⟨c, name, hs, halpha, hall, rfl⟩, rfl⟩

theorem colon_mem_of_split_scheme {s scheme rest : List Char}
    (h : splitScheme? s = some (scheme, rest)) : ':' ∈ s := by
  obtain ⟨c, name, rfl, -⟩ := split_scheme_eq_some_iff.1 h
  simp

/-! ## Hosts -/

/-- Whether a character stands for a slash in a web address. -/
def isSlash (c : Char) : Bool :=
  c == '/' || c == '\\'

section Hosts

variable [DomainNames]

/-- What follows the part of a web address before the path only matters to the path. -/
theorem read_authority_eq_ok {scheme s : List Char} {u : Url} (hweb : isWebScheme scheme = true)
    (h : readAuthority scheme s = .ok u) :
    ∃ user host port, ∀ t, (cutAt (endsAuthority true) t).1 = (cutAt (endsAuthority true) s).1 →
      readAuthority scheme t =
        .ok ⟨scheme, user, some host, port, readPath true (cutAt (endsAuthority true) t).2, none,
          none⟩ := by
  unfold readAuthority at h
  simp only [hweb, if_true, true_and] at h
  split at h
  · cases h
  rename_i huser
  split at h
  · cases h
  rename_i hempty
  rcases hhost : Host.readWeb (splitPort false (splitUser (cutAt (endsAuthority true) s).1).2).1
    with _ | host
  · rw [hhost] at h
    cases h
  rw [hhost] at h
  simp only [bind, Except.bind] at h
  split at h
  · cases h
  rename_i hport
  rcases hnum : readPort scheme
      ((splitPort false (splitUser (cutAt (endsAuthority true) s).1).2).2.getD []) with _ | port
  · rw [hnum] at h
    cases h
  refine ⟨(splitUser (cutAt (endsAuthority true) s).1).1.bind readUser, host, port,
    fun t hfront => ?_⟩
  unfold readAuthority
  simp only [hweb, hfront, if_true, true_and]
  rw [if_neg huser, if_neg hempty, hhost]
  simp only [bind, Except.bind]
  rw [if_neg hport, hnum]
  rfl

theorem read_authority_scheme {scheme s : List Char} {u : Url}
    (h : readAuthority scheme s = .ok u) : u.scheme = scheme := by
  unfold readAuthority at h
  simp only [bind, Except.bind, pure, Except.pure, throw, throwThe, MonadExceptOf.throw] at h
  repeat' split at h
  all_goals first
    | (cases h; done)
    | (obtain rfl := Except.ok.inj h; rfl)

theorem read_file_scheme {scheme s : List Char} {u : Url} (h : readFile scheme s = .ok u) :
    u.scheme = scheme := by
  unfold readFile at h
  simp only [bind, Except.bind, pure, Except.pure] at h
  repeat' split at h
  all_goals first
    | (cases h; done)
    | (obtain rfl := Except.ok.inj h; rfl)

theorem read_authority_nil {scheme : List Char} (hweb : isWebScheme scheme = true) :
    readAuthority scheme [] = .error .emptyHost := by
  unfold readAuthority
  rw [hweb]
  rfl

end Hosts

/-! ## Paths -/

/-- The parts of two texts with a separator between them. -/
theorem split_at_append (sep : Char) (s t : List Char) :
    Text.splitAt sep (s ++ sep :: t) = Text.splitAt sep s ++ Text.splitAt sep t := by
  induction s with
  | nil => exact Text.split_at_cons_sep sep t
  | cons c s ih =>
      rw [List.cons_append, Text.splitAt, Text.splitAt, ih]
      cases hs : Text.splitAt sep s with
      | nil => exact absurd hs (Text.split_at_ne_nil sep s)
      | cons part parts => cases c == sep <;> rfl

theorem resolve_dots_of_plain {parts : List (List Char)}
    (h : ∀ p ∈ parts, isDotDot p = false ∧ isDot p = false) (before : List (List Char)) :
    resolveDots before parts = before.reverse ++ parts := by
  induction parts generalizing before with
  | nil => exact (List.append_nil _).symm
  | cons p parts ih =>
      obtain ⟨hdd, hd⟩ := h p List.mem_cons_self
      rw [resolveDots, hdd, hd, if_neg Bool.false_ne_true, if_neg Bool.false_ne_true,
        ih fun q hq => h q (List.mem_cons_of_mem _ hq)]
      simp

/-- Dots before some segments do not reach them. -/
theorem resolve_dots_append {parts : List (List Char)}
    (h : ∀ p ∈ parts, isDotDot p = false ∧ isDot p = false) (before front : List (List Char)) :
    ∃ resolved, resolveDots before (front ++ parts) = resolved ++ parts := by
  induction front generalizing before with
  | nil => exact ⟨before.reverse, resolve_dots_of_plain h before⟩
  | cons p front ih =>
      rw [List.cons_append, resolveDots]
      split
      · exact ih _
      · split
        · exact ih _
        · exact ih _

/-- A segment that stands in a path as it is. -/
structure Plain (segment : List Char) : Prop where
  chars : ∀ c ∈ segment, pathSet c = false ∧ isSlash c = false
  dot : isDot segment = false
  dotDot : isDotDot segment = false

instance (segment : List Char) : Decidable (Plain segment) :=
  have : Decidable (∀ c ∈ segment, pathSet c = false ∧ isSlash c = false) :=
    List.decidableBAll (fun c => pathSet c = false ∧ isSlash c = false) segment
  decidable_of_iff
    ((∀ c ∈ segment, pathSet c = false ∧ isSlash c = false) ∧ isDot segment = false ∧
      isDotDot segment = false)
    ⟨fun ⟨hchars, hdot, hdd⟩ => ⟨hchars, hdot, hdd⟩, fun h => ⟨h.chars, h.dot, h.dotDot⟩⟩

/-- The text of a path of segments. -/
def segmentsText (parts : List (List Char)) : List Char :=
  pathChars (.segments parts)

theorem segments_text_cons (p : List Char) (parts : List (List Char)) :
    segmentsText (p :: parts) = '/' :: p ++ segmentsText parts := rfl

theorem segments_text_ne_nil {parts : List (List Char)} (h : parts ≠ []) :
    segmentsText parts ≠ [] := by
  obtain ⟨p, parts, rfl⟩ := List.exists_cons_of_ne_nil h
  simp [segments_text_cons]

theorem segments_text_append (front parts : List (List Char)) :
    segmentsText (front ++ parts) = segmentsText front ++ segmentsText parts :=
  List.flatMap_append

theorem percent_encode_of_plain {segment : List Char} (h : Plain segment) :
    percentEncode pathSet segment = segment := by
  rw [percentEncode]
  have hchars := h.chars
  clear h
  induction segment with
  | nil => rfl
  | cons c segment ih =>
      rw [List.flatMap_cons, (hchars c List.mem_cons_self).1, if_neg Bool.false_ne_true,
        ih fun d hd => hchars d (List.mem_cons_of_mem _ hd), List.singleton_append]

theorem split_segments_append (s t : List Char) :
    splitSegments true (s ++ '/' :: t) = splitSegments true s ++ splitSegments true t := by
  rw [splitSegments, List.map_append, List.map_cons]
  exact split_at_append '/' _ _

theorem split_segments_of_plain {segment : List Char} (h : Plain segment) :
    splitSegments true segment = [segment] := by
  have hmap : (segment.map fun c => if true && c == '\\' then '/' else c) = segment := by
    refine (List.map_congr_left fun c hc => ?_).trans (List.map_id segment)
    have hslash := (h.chars c hc).2
    rw [isSlash, Bool.or_eq_false_iff] at hslash
    rw [Bool.true_and, hslash.2, if_neg Bool.false_ne_true, id]
  have hmem : '/' ∉ segment := fun hc => absurd (h.chars '/' hc).2 (by decide)
  rw [splitSegments, hmap, Text.split_at_of_not_mem hmem]

/-- Segments behind a text are its last segments. -/
theorem split_segments_text (s : List Char) {parts : List (List Char)}
    (h : ∀ p ∈ parts, Plain p) :
    splitSegments true (s ++ segmentsText parts) = splitSegments true s ++ parts := by
  induction parts generalizing s with
  | nil => rw [segmentsText, pathChars, List.flatMap_nil, List.append_nil, List.append_nil]
  | cons p parts ih =>
      rw [segments_text_cons, List.cons_append, split_segments_append,
        ih p fun q hq => h q (List.mem_cons_of_mem _ hq),
        split_segments_of_plain (h p List.mem_cons_self), List.singleton_append]

/-- Segments behind the text of a path are its last segments. -/
theorem read_path_append {s : List Char} (hs : ∀ c, s.head? = some c → isSlash c = true)
    {parts : List (List Char)} (hne : parts ≠ []) (h : ∀ p ∈ parts, Plain p) :
    ∃ front, readPath true (s ++ segmentsText parts) = .segments (front ++ parts) := by
  have hdots : ∀ p ∈ parts, isDotDot p = false ∧ isDot p = false := fun p hp =>
    ⟨(h p hp).dotDot, (h p hp).dot⟩
  have hencoded : parts.map (percentEncode pathSet) = parts := by
    refine (List.map_congr_left fun p hp => ?_).trans (List.map_id parts)
    exact percent_encode_of_plain (h p hp)
  rcases s with _ | ⟨c, s⟩
  · rcases parts with _ | ⟨p, parts⟩
    · exact absurd rfl hne
    · refine ⟨[], ?_⟩
      have hsplit : splitSegments true (p ++ segmentsText parts) = p :: parts := by
        rw [split_segments_text p fun q hq => h q (List.mem_cons_of_mem _ hq),
          split_segments_of_plain (h p List.mem_cons_self), List.singleton_append]
      rw [List.nil_append, segments_text_cons, List.cons_append, readPath]
      simp only [BEq.rfl, Bool.true_or, if_true]
      rw [hsplit, hencoded, resolve_dots_of_plain hdots, List.reverse_nil, List.nil_append]
  · have hc : (c == '/' || (true && c == '\\')) = true := by
      rw [Bool.true_and]
      exact hs c rfl
    obtain ⟨front, hfront⟩ :=
      resolve_dots_append hdots [] ((splitSegments true s).map (percentEncode pathSet))
    refine ⟨front, ?_⟩
    rw [List.cons_append, readPath]
    simp only [hc, if_true]
    rw [split_segments_text s h, List.map_append, hencoded, hfront]

/-! ## Texts behind which a path can be put -/

/-- Whether the text of a web address goes on behind its host. -/
def hasPath (s : List Char) : Bool :=
  match splitScheme? (significant s) with
  | some (_, rest) => (rest.dropWhile isSlash).any isSlash
  | none => false

/-- A text of a web address without query and fragment, behind whose host no blank stands. -/
structure Extensible (s : List Char) : Prop where
  noQuery : '?' ∉ s
  noFragment : '#' ∉ s
  closed : trailing s = [] ∨ hasPath s = true

instance (s : List Char) : Decidable (Extensible s) :=
  decidable_of_iff ('?' ∉ s ∧ '#' ∉ s ∧ (trailing s = [] ∨ hasPath s = true))
    ⟨fun ⟨hquery, hfragment, hclosed⟩ => ⟨hquery, hfragment, hclosed⟩,
      fun h => ⟨h.noQuery, h.noFragment, h.closed⟩⟩

theorem cut_at_of_none {stop : Char → Bool} {s : List Char} (h : ∀ c ∈ s, stop c = false) :
    cutAt stop s = (s, []) := by
  have hkeep : ∀ c ∈ s, (!stop c) = true := fun c hc => by rw [h c hc, Bool.not_false]
  rw [cutAt, List.takeWhile_eq_self_iff.2 hkeep, List.dropWhile_eq_nil_iff.2 hkeep]

/-- More text behind a cut, or more text that begins with one, does not move it. -/
theorem cut_at_append {stop : Char → Bool} {s t : List Char}
    (h : (cutAt stop s).2 = [] → ∀ c, t.head? = some c → stop c = true) :
    cutAt stop (s ++ t) = ((cutAt stop s).1, (cutAt stop s).2 ++ t) := by
  simp only [cutAt] at h ⊢
  rcases hdrop : s.dropWhile (fun c => !stop c) with _ | ⟨d, more⟩
  · have hall := List.dropWhile_eq_nil_iff.1 hdrop
    rw [List.takeWhile_append_of_pos hall, List.dropWhile_append_of_pos hall,
      List.takeWhile_eq_self_iff.2 hall]
    rcases t with _ | ⟨c, t⟩
    · simp
    · have hc : ¬(!stop c) = true := by
        rw [h hdrop c rfl]
        exact Bool.false_ne_true
      rw [List.takeWhile_cons_of_neg (p := fun a => !stop a) hc,
        List.dropWhile_cons_of_neg (p := fun a => !stop a) hc, List.append_nil, List.nil_append]
  · have hlen : (s.takeWhile fun c => !stop c).length ≠ s.length := by
      intro hlen
      have hsplit := List.takeWhile_append_dropWhile (p := fun c => !stop c) (l := s)
      have := congrArg List.length hsplit
      rw [List.length_append, hdrop, List.length_cons] at this
      omega
    rw [List.takeWhile_append, if_neg hlen, List.dropWhile_append, hdrop]
    rfl

/-- Query and fragment are added to what is read before them. -/
theorem scheme_of_bind_eq_ok {x : Except Problem Url} {query fragment : Option (List Char)}
    {scheme : List Char} {u : Url} (hx : ∀ v, x = .ok v → v.scheme = scheme)
    (h : (do let v ← x; pure { v with query := query, fragment := fragment }) = Except.ok u) :
    u.scheme = scheme := by
  rcases x with e | v
  · cases h
  · obtain rfl := Except.ok.inj h
    exact hx v rfl

theorem mem_of_split_scheme {s scheme rest : List Char} {c : Char}
    (h : splitScheme? (significant s) = some (scheme, rest)) (hc : c ∈ rest) : c ∈ s := by
  obtain ⟨d, name, hs, -⟩ := split_scheme_eq_some_iff.1 h
  refine mem_of_mem_significant ?_
  rw [hs]
  exact List.mem_append_right _ (List.mem_cons_of_mem _ hc)

theorem path_set_of_edge {c : Char} (h : isEdge c = true) : pathSet c = true := by
  have hle : c.toNat ≤ 0x20 := of_decide_eq_true h
  rcases Nat.lt_or_eq_of_le hle with hlt | heq
  · simp [pathSet, fragmentSet, controlSet, hlt]
  · have hc : c = ' ' := by rw [← Char.ofNat_toNat c, heq]
    subst hc
    decide

theorem path_set_of_mem_segments_text {parts : List (List Char)} (h : ∀ p ∈ parts, Plain p)
    {c : Char} (hc : c ∈ segmentsText parts) : pathSet c = false := by
  obtain ⟨p, hp, hcp⟩ := List.mem_flatMap.1 hc
  rcases List.mem_cons.1 hcp with rfl | hcp
  · decide
  · exact ((h p hp).chars c hcp).1

theorem solid_segments_text {parts : List (List Char)} (h : ∀ p ∈ parts, Plain p) :
    Solid (segmentsText parts) := by
  have hedge : ∀ c ∈ segmentsText parts, isEdge c = false := by
    intro c hc
    rcases hedge : isEdge c with _ | _
    · rfl
    · have hset := path_set_of_mem_segments_text h hc
      rw [path_set_of_edge hedge] at hset
      exact Bool.noConfusion hset
  exact ⟨fun c hc => kept_of_not_edge (hedge c hc), fun hne => hedge _ (List.getLast_mem hne)⟩

theorem stop_of_cut_at {stop : Char → Bool} {s : List Char} {c : Char}
    (h : (cutAt stop s).2.head? = some c) : stop c = true := by
  have hhead := List.head?_dropWhile_not (fun c => !stop c) s
  rw [show s.dropWhile (fun c => !stop c) = (cutAt stop s).2 from rfl, h] at hhead
  simpa using hhead

/-- A text that begins with what ends a host, if it stands right behind one. -/
def EndsHost (a t : List Char) : Prop :=
  (cutAt (endsAuthority true) a).2 = [] → ∀ c, t.head? = some c → endsAuthority true c = true

/-- An extensible text goes on behind its host, or nothing stands there. -/
theorem Extensible.trailing_eq_nil {s : List Char} (hs : Extensible s)
    {scheme rest : List Char} (hscheme : splitScheme? (significant s) = some (scheme, rest))
    (hend : (cutAt (endsAuthority true) (rest.dropWhile isSlash)).2 = []) : trailing s = [] := by
  refine hs.closed.resolve_right fun hpath => ?_
  simp only [hasPath, hscheme, List.any_eq_true] at hpath
  obtain ⟨c, hc, hslash⟩ := hpath
  have hstop := List.dropWhile_eq_nil_iff.1 hend c hc
  rw [isSlash, Bool.or_eq_true] at hslash
  rcases hslash with h | h <;> simp [endsAuthority, h] at hstop

section Reading

variable [DomainNames]

/-- An address of a web scheme without query and fragment is read from its host on. -/
theorem read_of_plain {s : String} {scheme rest : List Char}
    (hscheme : splitScheme? (significant s.toList) = some (scheme, rest))
    (hweb : isWebScheme scheme = true) (hquery : '?' ∉ rest) (hfragment : '#' ∉ rest) :
    read s = (do
      let u ← readAuthority scheme (rest.dropWhile isSlash)
      pure { u with query := none, fragment := none }) := by
  have hbody : ∀ c ∈ rest, (c == '?') = false := fun c hc =>
    beq_false_of_ne fun h => hquery (h ▸ hc)
  have hbefore : ∀ c ∈ rest, (c == '#') = false := fun c hc =>
    beq_false_of_ne fun h => hfragment (h ▸ hc)
  unfold read
  simp only [hscheme, cut_at_of_none hbefore, cut_at_of_none hbody, hweb, if_true]
  rfl

theorem split_scheme_of_read {s : String} {u : Url} (h : read s = .ok u) :
    ∃ rest, splitScheme? (significant s.toList) = some (u.scheme, rest) := by
  unfold read at h
  rcases hscheme : splitScheme? (significant s.toList) with _ | ⟨scheme, rest⟩
  · simp only [hscheme] at h
    cases h
  suffices hsame : u.scheme = scheme from ⟨rest, by rw [hsame]⟩
  simp only [hscheme] at h
  split at h
  · exact scheme_of_bind_eq_ok (fun v hv => read_authority_scheme hv) h
  · split at h
    · exact scheme_of_bind_eq_ok (fun v hv => read_file_scheme hv) h
    · split at h
      · exact scheme_of_bind_eq_ok (fun v hv => read_authority_scheme hv) h
      · exact scheme_of_bind_eq_ok (fun v hv => by rw [← Except.ok.inj hv]) h
      · exact scheme_of_bind_eq_ok (fun v hv => by rw [← Except.ok.inj hv]) h

/-- What is put behind a web address goes to its path if it does not prolong the host. -/
theorem read_authority_append {scheme a s t : List Char} {u : Url}
    (hweb : isWebScheme scheme = true) (h : readAuthority scheme (a ++ s) = .ok u)
    (hs : EndsHost a s) (ht : EndsHost a t) :
    readAuthority scheme (a ++ t) =
      .ok { u with path := readPath true ((cutAt (endsAuthority true) a).2 ++ t) } := by
  obtain ⟨user, host, port, hfront⟩ := read_authority_eq_ok hweb h
  have hu := hfront (a ++ s) rfl
  rw [h] at hu
  obtain rfl := Except.ok.inj hu
  rw [hfront (a ++ t) (by rw [cut_at_append hs, cut_at_append ht]), cut_at_append ht]

/-- What is read of a host and what follows it has neither query nor fragment. -/
theorem bare_of_read_authority {scheme s : List Char} {u : Url} (hweb : isWebScheme scheme = true)
    (h : readAuthority scheme s = .ok u) :
    u.host.isSome = true ∧ u.query = none ∧ u.fragment = none := by
  obtain ⟨user, host, port, hfront⟩ := read_authority_eq_ok hweb h
  have hu := hfront s rfl
  rw [h] at hu
  obtain rfl := Except.ok.inj hu
  exact ⟨rfl, rfl, rfl⟩

/-- Reading an extensible text, and reading what stands before the slashes at its end with more
behind it, come down to reading the same host with what follows it. -/
theorem Extensible.read_from_host {s : String} (hs : Extensible s.toList) {u : Url}
    (hread : read s = .ok u) (hweb : isWebScheme u.scheme = true) :
    ∃ a n, (∀ c ∈ a, c ∈ s.toList) ∧
      ((cutAt (endsAuthority true) a).2 = [] → trailing s.toList = []) ∧
      readAuthority u.scheme (a ++ List.replicate n '/') = .ok u ∧
      ∀ t, Solid t → t ≠ [] → '?' ∉ t → '#' ∉ t →
        read (String.ofList (withoutSlashes s.toList ++ t)) =
          (do
            let v ← readAuthority u.scheme (a ++ (trailing s.toList ++ t))
            pure { v with query := none, fragment := none }) := by
  obtain ⟨rest, hscheme⟩ := split_scheme_of_read hread
  have hmem : ∀ c ∈ rest, c ∈ s.toList := fun c hc => mem_of_split_scheme hscheme hc
  rw [read_of_plain hscheme hweb (fun h => hs.noQuery (hmem _ h))
    fun h => hs.noFragment (hmem _ h)] at hread
  obtain ⟨k, n, hsig, htrailing, hlonger⟩ :=
    significant_without_slashes (colon_mem_of_split_scheme hscheme)
  obtain ⟨more, hmore, rfl⟩ := split_scheme_of_append (t := List.replicate n '/')
    (fun h => absurd (List.eq_of_mem_replicate h) (by decide)) (hsig ▸ hscheme)
  -- the host begins before the slashes at the end, or there would be none
  have hopen : more.dropWhile isSlash ≠ [] := by
    intro hnil
    have hslashes : ∀ c ∈ List.replicate n '/', isSlash c = true := fun c hc => by
      rw [List.eq_of_mem_replicate hc]
      rfl
    rw [List.dropWhile_append_of_pos (List.dropWhile_eq_nil_iff.1 hnil),
      List.dropWhile_eq_nil_iff.2 hslashes, read_authority_nil hweb] at hread
    cases hread
  have hdrop : ∀ t, (more ++ t).dropWhile isSlash = more.dropWhile isSlash ++ t := by
    intro t
    rw [List.dropWhile_append, if_neg (by simpa using hopen)]
  refine ⟨more.dropWhile isSlash, n, ?_, ?_, ?_, ?_⟩
  · intro c hc
    exact hmem c (List.mem_append_left _ ((List.dropWhile_sublist _).mem hc))
  · intro hend
    rcases htrailing with rfl | htrailing
    · rw [List.replicate_zero, List.append_nil] at hscheme
      exact hs.trailing_eq_nil hscheme hend
    · exact htrailing
  · rw [hdrop] at hread
    rcases hauthority : readAuthority u.scheme (more.dropWhile isSlash ++ List.replicate n '/')
      with e | v
    · rw [hauthority] at hread
      cases hread
    · obtain ⟨-, hquery, hfragment⟩ := bare_of_read_authority hweb hauthority
      rw [hauthority] at hread
      rw [← Except.ok.inj hread]
      cases v
      cases hquery
      cases hfragment
      rfl
  · intro t ht hne hquery hfragment
    have hscheme' : splitScheme? (significant
        (String.ofList (withoutSlashes s.toList ++ t)).toList) =
        some (u.scheme, more ++ (trailing s.toList ++ t)) := by
      rw [String.toList_ofList, hlonger t ht hne, List.append_assoc, split_scheme_append hmore]
    have hnew : ∀ c, c ∉ s.toList → c ∉ t → c ∉ more ++ (trailing s.toList ++ t) := by
      intro c hc hct hmore
      rcases List.mem_append.1 hmore with hmore | hmore
      · exact hc (hmem c (List.mem_append_left _ hmore))
      · exact (List.mem_append.1 hmore).elim (fun h => hc (mem_of_mem_trailing h)) hct
    rw [read_of_plain hscheme' hweb (hnew '?' hs.noQuery hquery)
      (hnew '#' hs.noFragment hfragment), hdrop]

/-- The address of an extensible text has a host, and neither query nor fragment. -/
theorem Extensible.bare {s : String} (hs : Extensible s.toList) {u : Url}
    (hread : read s = .ok u) (hweb : isWebScheme u.scheme = true) :
    u.host.isSome = true ∧ u.query = none ∧ u.fragment = none := by
  obtain ⟨a, n, -, -, hauthority, -⟩ := hs.read_from_host hread hweb
  exact bare_of_read_authority hweb hauthority

/-- Put behind an extensible text, without the slashes at its end, segments end up at the end of
the path, and all else is as before. -/
theorem Extensible.read_longer {s : String} (hs : Extensible s.toList) {u : Url}
    (hread : read s = .ok u) (hweb : isWebScheme u.scheme = true) {parts : List (List Char)}
    (hne : parts ≠ []) (hparts : ∀ p ∈ parts, Plain p) :
    ∃ front, read (String.ofList (withoutSlashes s.toList ++ segmentsText parts)) =
      .ok { u with path := .segments (front ++ parts) } := by
  obtain ⟨a, n, hmem, hclosed, hauthority, hlonger⟩ := hs.read_from_host hread hweb
  have hslashes : EndsHost a (List.replicate n '/') := fun _ c hc => by
    rw [List.eq_of_mem_replicate (List.mem_of_head? hc)]
    rfl
  -- where the host ends the text, the new segments stand right behind it
  have hsegments : EndsHost a (trailing s.toList ++ segmentsText parts) := fun hend c hc => by
    rw [hclosed hend, List.nil_append] at hc
    obtain ⟨p, parts, rfl⟩ := List.exists_cons_of_ne_nil hne
    rw [segments_text_cons] at hc
    rw [← Option.some.inj hc]
    rfl
  have hhead : ∀ c, ((cutAt (endsAuthority true) a).2 ++ trailing s.toList).head? = some c →
      isSlash c = true := by
    intro c hc
    rcases hcut : (cutAt (endsAuthority true) a).2 with _ | ⟨d, path⟩
    · rw [hcut, hclosed hcut] at hc
      cases hc
    · rw [hcut] at hc
      obtain rfl := Option.some.inj hc
      have hstop : endsAuthority true d = true := stop_of_cut_at (s := a) (by rw [hcut]; rfl)
      have hda : d ∈ s.toList :=
        hmem d ((List.dropWhile_sublist _).mem (show d ∈ (cutAt _ a).2 by rw [hcut]; simp))
      have hquery : d ≠ '?' := fun h => hs.noQuery (h ▸ hda)
      have hfragment : d ≠ '#' := fun h => hs.noFragment (h ▸ hda)
      simpa [endsAuthority, isSlash, hquery, hfragment] using hstop
  obtain ⟨front, hpath⟩ := read_path_append hhead hne hparts
  have hset : ∀ c, pathSet c = true → c ∉ segmentsText parts := fun c hc h => by
    rw [path_set_of_mem_segments_text hparts h] at hc
    exact Bool.noConfusion hc
  obtain ⟨-, hquery, hfragment⟩ := hs.bare hread hweb
  refine ⟨front, ?_⟩
  rw [hlonger _ (solid_segments_text hparts) (segments_text_ne_nil hne) (hset '?' (by decide))
    (hset '#' (by decide)), read_authority_append hweb hauthority hslashes hsegments,
    ← List.append_assoc, hpath, hquery, hfragment]
  rfl

end Reading

end CustomerDedupe.Url
