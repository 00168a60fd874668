import Mathlib.Data.List.Basic
import Mathlib.Data.List.TakeWhile
import CustomerDedupe.Config.Environment

/-!
# One pass from left to right

A text is cut, from left to right, into references to variables and single characters: what
begins with a reference is cut behind it, and everything else behind its first character (`Scan`).
There is exactly one way to do so, whatever the variables are. Substitution puts the value of each
variable in the place of its reference and looks at nothing twice, which `substitution_one_pass`
says together with what it means for variables that are not set and for references that are not
complete.
-/

namespace CustomerDedupe.Environment

/-- What stands between the braces of a reference: something, and no closing brace. -/
def IsName (name : List Char) : Prop :=
  name ≠ [] ∧ '\x7d' ∉ name

/-- Begins with a reference to a variable. -/
def Refers (s : List Char) : Prop :=
  ∃ name, IsName name ∧ reference name <+: s

/-- A reference to a variable, or a character outside of references. -/
inductive Piece where
  | plain (c : Char)
  | reference (name : List Char)
  deriving DecidableEq

/-- A piece as it stands in the text. -/
def Piece.chars : Piece → List Char
  | .plain c => [c]
  | .reference name => Environment.reference name

/-- What a piece is replaced by. The value of a variable is taken as it is. -/
def Piece.value (env : Environment) : Piece → List Char
  | .plain c => [c]
  | .reference name =>
    match env (String.ofList name) with
    | some value => value.toList
    | none => Environment.reference name

/-- Cuts a text into pieces from left to right. -/
inductive Scan : List Char → List Piece → Prop
  | done : Scan [] []
  | refer {name rest : List Char} {ps : List Piece} (hname : IsName name) (hrest : Scan rest ps) :
      Scan (reference name ++ rest) (.reference name :: ps)
  | copy {c : Char} {rest : List Char} {ps : List Piece} (hnone : ¬Refers (c :: rest))
      (hrest : Scan rest ps) : Scan (c :: rest) (.plain c :: ps)

/-! ## References -/

theorem reference_append (name rest : List Char) :
    reference name ++ rest = '$' :: '\x7b' :: (name ++ '\x7d' :: rest) := by
  simp [reference]

theorem length_reference (name : List Char) : (reference name).length = name.length + 3 := by
  simp [reference]

/-- A name reaches to the first closing brace. -/
theorem take_while_name {name : List Char} (h : '\x7d' ∉ name) (rest : List Char) :
    (name ++ '\x7d' :: rest).takeWhile (· != '\x7d') = name := by
  have hall : ∀ c ∈ name, (c != '\x7d') = true := by
    intro c hc
    have hne : c ≠ '\x7d' := fun heq => h (heq ▸ hc)
    simpa using hne
  rw [List.takeWhile_append_of_pos hall, List.takeWhile_cons_of_neg (by decide), List.append_nil]

/-- A reference at the beginning of a text is found. -/
theorem reference_found {name : List Char} (h : IsName name) (rest : List Char) :
    reference? (reference name ++ rest) = some name := by
  have hname : name.isEmpty = false := by
    rw [List.isEmpty_eq_false_iff]
    exact h.1
  simp only [reference_append, reference?, take_while_name h.2, hname, List.drop_left,
    List.isEmpty_cons, Bool.or_self, Bool.false_eq_true, if_false]

/-- What is found at the beginning of a text is a reference. -/
theorem reference_of_found {s name : List Char} (h : reference? s = some name) :
    IsName name ∧ ∃ rest, s = reference name ++ rest := by
  unfold reference? at h
  split at h
  next rest =>
    dsimp only at h
    split at h
    · cases h
    next hcomplete =>
      obtain rfl := Option.some.inj h
      rw [Bool.or_eq_true, List.isEmpty_iff, List.isEmpty_iff, not_or] at hcomplete
      have hclose : '\x7d' ∉ rest.takeWhile (· != '\x7d') := fun hmem => by
        simpa using List.mem_takeWhile_imp hmem
      -- what follows the name begins with the closing brace
      have hdrop : rest.drop (rest.takeWhile (· != '\x7d')).length =
          rest.dropWhile (· != '\x7d') := by
        have hcut := @List.drop_left _ (rest.takeWhile (· != '\x7d')) (rest.dropWhile (· != '\x7d'))
        rwa [List.takeWhile_append_dropWhile] at hcut
      rw [hdrop] at hcomplete
      obtain ⟨c, after, hafter⟩ := List.exists_cons_of_ne_nil hcomplete.2
      have hbrace : c = '\x7d' := by
        have hhead := List.head?_dropWhile_not (· != '\x7d') rest
        rw [hafter] at hhead
        simpa using hhead
      refine ⟨⟨hcomplete.1, hclose⟩, after, ?_⟩
      rw [hbrace] at hafter
      rw [reference_append, ← hafter, List.takeWhile_append_dropWhile]
  next => cases h

theorem reference_none {s : List Char} (h : ¬Refers s) : reference? s = none := by
  cases hfound : reference? s with
  | none => rfl
  | some name =>
      obtain ⟨hname, rest, rfl⟩ := reference_of_found hfound
      exact absurd ⟨name, hname, List.prefix_append _ _⟩ h

/-- A text begins with at most one reference. -/
theorem reference_unique {name name' rest rest' : List Char} (h : IsName name) (h' : IsName name')
    (heq : reference name ++ rest = reference name' ++ rest') : name = name' ∧ rest = rest' := by
  have hname : some name = some name' := by
    rw [← reference_found h rest, heq, reference_found h' rest']
  obtain rfl := Option.some.inj hname
  exact ⟨rfl, List.append_cancel_left heq⟩

/-! ## The scan -/

/-- Every text can be cut into pieces. -/
theorem Scan.total (s : List Char) : ∃ ps, Scan s ps := by
  induction hlength : s.length using Nat.strong_induction_on generalizing s with
  | _ n ih =>
      cases s with
      | nil => exact ⟨[], .done⟩
      | cons c rest =>
          by_cases href : Refers (c :: rest)
          · obtain ⟨name, hname, after, heq⟩ := href
            have hshorter : after.length < n := by
              rw [← hlength, ← heq, List.length_append, length_reference]
              omega
            obtain ⟨ps, hps⟩ := ih after.length hshorter after rfl
            rw [← heq]
            exact ⟨_, .refer hname hps⟩
          · have hshorter : rest.length < n := by
              rw [← hlength, List.length_cons]
              omega
            obtain ⟨ps, hps⟩ := ih rest.length hshorter rest rfl
            exact ⟨_, .copy href hps⟩

/-- There is only one way to cut a text into pieces. -/
theorem Scan.unique {s : List Char} {ps qs : List Piece} (hp : Scan s ps) (hq : Scan s qs) :
    ps = qs := by
  induction hp generalizing qs with
  | done => cases hq; rfl
  | @refer name rest ps hname _ ih =>
      generalize hs : reference name ++ rest = s at hq
      cases hq with
      | done => simp [reference] at hs
      | @refer name' rest' qs hname' hq =>
          obtain ⟨rfl, rfl⟩ := reference_unique hname hname' hs
          rw [ih hq]
      | copy hnone _ => exact absurd ⟨name, hname, rest, hs⟩ hnone
  | @copy c rest ps hnone _ ih =>
      generalize hs : c :: rest = s at hq
      cases hq with
      | done => cases hs
      | @refer name' rest' _ hname' _ =>
          rw [hs] at hnone
          exact absurd ⟨name', hname', rest', rfl⟩ hnone
      | copy _ hq =>
          obtain ⟨rfl, rfl⟩ := List.cons.inj hs
          rw [ih hq]

/-- The pieces of a text are the text. -/
theorem Scan.chars {s : List Char} {ps : List Piece} (h : Scan s ps) :
    ps.flatMap Piece.chars = s := by
  induction h with
  | done => rfl
  | refer _ _ ih => rw [List.flatMap_cons, ih, Piece.chars]
  | copy _ _ ih => rw [List.flatMap_cons, ih, Piece.chars, List.singleton_append]

/-- Characters that are passed over do not matter. -/
theorem substitute_from_skip (env : Environment) (n : Nat) (s : List Char) :
    env.substituteFrom n s = env.substituteFrom 0 (s.drop n) := by
  induction s generalizing n with
  | nil => simp [substituteFrom]
  | cons c s ih =>
      cases n with
      | zero => rfl
      | succ n => rw [substituteFrom, ih, List.drop_succ_cons]

/-- A reference gives way to what stands for it. -/
theorem substitute_from_reference (env : Environment) {name : List Char} (h : IsName name)
    (rest : List Char) :
    env.substituteFrom 0 (reference name ++ rest) =
      env.resolve name ++ env.substituteFrom 0 rest := by
  have hfound := reference_found h rest
  rw [reference_append] at hfound ⊢
  have hskip : ('\x7b' :: (name ++ '\x7d' :: rest)).drop (name.length + 2) = rest := by
    simp [← List.drop_drop]
  rw [substituteFrom, hfound]
  dsimp only
  rw [substitute_from_skip, hskip]

/-- What is no reference stays for its first character. -/
theorem substitute_from_copy (env : Environment) {c : Char} {rest : List Char}
    (h : ¬Refers (c :: rest)) :
    env.substituteFrom 0 (c :: rest) = c :: env.substituteFrom 0 rest := by
  simp only [substituteFrom, reference_none h]

/-- Substitution replaces each piece. -/
theorem Scan.substitute {s : List Char} {ps : List Piece} (h : Scan s ps) (env : Environment) :
    env.substituteFrom 0 s = ps.flatMap (Piece.value env) := by
  induction h with
  | done => rfl
  | refer hname _ ih => rw [substitute_from_reference env hname, ih, List.flatMap_cons]; rfl
  | copy hnone _ ih => rw [substitute_from_copy env hnone, ih, List.flatMap_cons]; rfl

/-- Without dollar signs, every character stands for itself. -/
theorem Scan.copies {before rest : List Char} {ps : List Piece} (h : '$' ∉ before)
    (hrest : Scan rest ps) : Scan (before ++ rest) (before.map .plain ++ ps) := by
  induction before with
  | nil => exact hrest
  | cons c before ih =>
      refine .copy ?_ (ih fun hmem => h (List.mem_cons_of_mem _ hmem))
      rintro ⟨name, -, after, hafter⟩
      rw [reference_append] at hafter
      exact h ((List.cons.inj hafter).1 ▸ List.mem_cons_self)

theorem flat_map_plain (env : Environment) (s : List Char) :
    (s.map Piece.plain).flatMap (Piece.value env) = s := by
  induction s with
  | nil => rfl
  | cons c s ih => rw [List.map_cons, List.flatMap_cons, ih, Piece.value, List.singleton_append]

/-! ## What stays as it is -/

/-- A piece without a value stays as it is. -/
theorem Piece.value_eq_chars {env : Environment} {p : Piece}
    (h : ∀ name, p = .reference name → env (String.ofList name) = none) :
    p.value env = p.chars := by
  cases p with
  | plain c => rfl
  | reference name => simp only [Piece.value, h name rfl, Piece.chars]

/-- A text stays as it is if none of its variables is set. -/
theorem Scan.substitute_unset {s : List Char} {ps : List Piece} (h : Scan s ps)
    {env : Environment} (hunset : ∀ name, .reference name ∈ ps → env (String.ofList name) = none) :
    env.substituteFrom 0 s = s := by
  have hvalues : ps.flatMap (Piece.value env) = ps.flatMap Piece.chars :=
    List.flatMap_congr fun p hp =>
      Piece.value_eq_chars fun name hname => hunset name (hname ▸ hp)
  rw [h.substitute env, hvalues, h.chars]

/-- A text without closing braces does not begin with a reference. -/
theorem not_refers_of_not_mem {s : List Char} (h : '\x7d' ∉ s) : ¬Refers s := by
  rintro ⟨name, -, rest, rfl⟩
  exact h (by simp [reference])

/-- A text without closing braces completes no reference. -/
theorem refers_of_refers_append {s after : List Char} (h : '\x7d' ∉ after)
    (hrefers : Refers (s ++ after)) : Refers s := by
  obtain ⟨name, hname, hprefix⟩ := hrefers
  refine ⟨name, hname, ?_⟩
  rcases List.prefix_or_prefix_of_prefix hprefix (List.prefix_append s after) with
    hfits | ⟨beyond, hbeyond⟩
  · exact hfits
  -- otherwise the reference ends in the text that follows, with a closing brace
  obtain ⟨more, hmore⟩ := hprefix
  have hafter : beyond ++ more = after := by
    rw [← hbeyond, List.append_assoc] at hmore
    exact List.append_cancel_left hmore
  cases hlast : beyond.getLast? with
  | none =>
      rw [List.getLast?_eq_none_iff.mp hlast, List.append_nil] at hbeyond
      exact hbeyond ▸ List.prefix_rfl
  | some d =>
      have hend := congrArg List.getLast? hbeyond
      rw [List.getLast?_append, hlast, reference, List.getLast?_concat] at hend
      obtain rfl : d = '\x7d' := Option.some.inj hend
      refine absurd ?_ h
      rw [← hafter]
      exact List.mem_append_left _ (List.mem_of_getLast? hlast)

/-- What follows the last closing brace stays as it is. -/
theorem substitute_from_append (env : Environment) (before : List Char) {after : List Char}
    (h : '\x7d' ∉ after) :
    env.substituteFrom 0 (before ++ after) = env.substituteFrom 0 before ++ after := by
  obtain ⟨ps, hscan⟩ := Scan.total before
  induction hscan with
  | done =>
      rw [List.nil_append, substituteFrom, List.nil_append]
      induction after with
      | nil => rfl
      | cons c after ih =>
          rw [substitute_from_copy env (not_refers_of_not_mem h),
            ih fun hmem => h (List.mem_cons_of_mem _ hmem)]
  | refer hname _ ih =>
      rw [List.append_assoc, substitute_from_reference env hname, ih,
        substitute_from_reference env hname, List.append_assoc]
  | @copy c rest _ hnone _ ih =>
      have hnone' : ¬Refers (c :: (rest ++ after)) := fun hrefers =>
        hnone (refers_of_refers_append h hrefers)
      rw [List.cons_append, substitute_from_copy env hnone', ih, substitute_from_copy env hnone,
        List.cons_append]

/-- A reference without a name stays as it is. -/
theorem substitute_from_nameless (env : Environment) (rest : List Char) :
    env.substituteFrom 0 ('$' :: '\x7b' :: '\x7d' :: rest) =
      '$' :: '\x7b' :: '\x7d' :: env.substituteFrom 0 rest := by
  have hnameless : reference? ('$' :: '\x7b' :: '\x7d' :: rest) = none := by
    simp [reference?]
  rw [substituteFrom, hnameless]
  rfl

/-! ## One pass -/

/-- Substitution is one pass from left to right. Every text is cut into references and single
characters in exactly one way, whatever the variables are, and substitution puts the value of each
variable that is set in the place of its reference. So a text stays as it is if none of the
variables in it is set, and references without a name and those that nothing closes stay as they
are. -/
theorem substitution_one_pass :
    (∀ text : String, ∃ ps, Scan text.toList ps ∧ (∀ qs, Scan text.toList qs → qs = ps) ∧
      ∀ env : Environment,
        (env.substitute text).toList = ps.flatMap (Piece.value env) ∧
        ((∀ name, .reference name ∈ ps → env (String.ofList name) = none) →
          env.substitute text = text)) ∧
    (∀ (env : Environment) (rest : String),
      env.substitute ("$\x7b\x7d" ++ rest) = "$\x7b\x7d" ++ env.substitute rest) ∧
    (∀ (env : Environment) (before after : String), '\x7d' ∉ after.toList →
      env.substitute (before ++ "$\x7b" ++ after) =
        env.substitute before ++ "$\x7b" ++ after) := by
  refine ⟨fun text => ?_, fun env rest => ?_, fun env before after h => ?_⟩
  · obtain ⟨ps, hscan⟩ := Scan.total text.toList
    refine ⟨ps, hscan, fun qs hqs => hqs.unique hscan, fun env => ⟨?_, fun hunset => ?_⟩⟩
    · rw [substitute, String.toList_ofList, hscan.substitute env]
    · rw [substitute, hscan.substitute_unset hunset, String.ofList_toList]
  · rw [← String.toList_inj]
    simp only [substitute, String.toList_append, String.toList_ofList]
    exact substitute_from_nameless env rest.toList
  · have hopen : '\x7d' ∉ "$\x7b".toList ++ after.toList := by
      rw [List.mem_append, not_or]
      exact ⟨by decide, h⟩
    rw [← String.toList_inj]
    simp only [substitute, String.toList_append, String.toList_ofList, List.append_assoc]
    rw [substitute_from_append env before.toList hopen]

/-- The value of a variable is not looked at again, though it refers to another one, and neither
the reference that is left open nor the one to a variable that is not set is replaced. -/
theorem value_not_looked_at :
    let env : Environment := .ofEntries [("X", "$\x7bY\x7d"), ("Y", "no")]
    '\x7d' ∉ "Y".toList ∧
      env.substitute ("$\x7bX\x7d" ++ "$\x7b" ++ "Y") = "$\x7bY\x7d$\x7bY" ∧
      Scan "a$\x7bU\x7d".toList [.plain 'a', .reference ['U']] ∧
      (∀ name, .reference name ∈ [Piece.plain 'a', .reference ['U']] →
        env (String.ofList name) = none) ∧
      env.substitute "a$\x7bU\x7d" = "a$\x7bU\x7d" := by
  intro env
  obtain ⟨hscans, -, hopen⟩ := substitution_one_pass
  have hclosed : '\x7d' ∉ "Y".toList := by decide
  have hname : IsName ['U'] := ⟨by decide, by decide⟩
  have hscan : Scan "a$\x7bU\x7d".toList [.plain 'a', .reference ['U']] := by
    refine .copy ?_ (@Scan.refer _ [] _ hname .done)
    rintro ⟨name, -, rest, hrest⟩
    cases hrest
  have hunset : ∀ name, .reference name ∈ [Piece.plain 'a', .reference ['U']] →
      env (String.ofList name) = none := by
    intro name hmem
    simp only [List.mem_cons, reduceCtorEq, Piece.reference.injEq, List.not_mem_nil, or_false,
      false_or] at hmem
    rw [hmem]
    decide
  obtain ⟨ps, -, honly, hsubstitute⟩ := hscans "a$\x7bU\x7d"
  rw [← honly _ hscan] at hsubstitute
  refine ⟨hclosed, ?_, hscan, hunset, (hsubstitute env).2 hunset⟩
  rw [hopen env "$\x7bX\x7d" "Y" hclosed]
  decide

end CustomerDedupe.Environment
