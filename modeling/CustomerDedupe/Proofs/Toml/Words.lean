import CustomerDedupe.Proofs.Toml.Reads

/-!
# What the readers of words look at

Strings in their four spellings, keys, and values without brackets are read without a look behind
the next double quote (`reads_string`, `reads_key`, `reads_word`).
-/

namespace CustomerDedupe.Toml.Reader

variable {α : Type}

/-- A reader that is allowed as many steps as there are characters is allowed enough. -/
theorem Reads.sized {l m : Nat} {f : Nat → Reader α} {g : Nat → Nat} (hg : ∀ n, n ≤ g n)
    (h : ∀ n m, Reads l m (f n) (f m)) :
    Reads l m (do f (g (← get).length)) (do f (g (← get).length)) where
  takes {s a rest} hr := (h (g s.length) 0).takes hr
  follows {c s t a} halike _ hr := by
    rcases halike with rfl | ⟨w, x, y, rfl, rfl⟩
    · exact hr
    · refine (h (g (c ++ (w ++ '"' :: x)).length) (g (c ++ (w ++ '"' :: y)).length)).follows
        (.inr ⟨w, x, y, rfl, rfl⟩) ?_ hr
      have hle := hg (c ++ (w ++ '"' :: y)).length
      simp only [List.length_append, List.length_cons] at hle ⊢
      omega

theorem Reads.of_takes {l m : Nat} {r r' q : Reader α} (h : Reads l m r r') :
    Reads l 0 r q where
  takes := h.takes
  follows _ hlt := absurd hlt (Nat.not_lt_zero _)

/-- Readers that take the first character and go by it. -/
theorem Reads.of_cons {l m : Nat} {r r' : Reader α} {f f' : Char → Reader α}
    (h : ∀ c, Reads l m (f c) (f' c)) (hr : ∀ c rest, r.run (c :: rest) = (f c).run rest)
    (hr' : ∀ c rest, r'.run (c :: rest) = (f' c).run rest) (hnil : r.run [] = none) :
    Reads (l + 1) (m + 1) r r' := by
  refine .of_head fun o => ?_
  cases o with
  | none =>
      refine ⟨Alternative.failure, r', .failure, fun s hs => ?_, fun s _ => rfl⟩
      rw [List.head?_eq_none_iff.1 hs]
      exact hnil
  | some c =>
      refine ⟨char c >>= fun _ => f c, char c >>= fun _ => f' c, ?_, fun s hs => ?_,
        fun s hs => ?_⟩
      · rw [Nat.add_comm]
        exact (reads_char c).bind fun _ => h c
      all_goals
        obtain ⟨rest, rfl⟩ := List.head?_eq_some_iff.1 hs
        rw [StateT.run_bind, run_char]
      · exact hr c rest
      · exact hr' c rest

/-! ## Strings within double quotes -/

/-- Reads the digits of a character's number. -/
def charNumber (count : Nat) : Reader Char := do
  let s ← get
  let c ← charOf? (s.take count) count
  set (s.drop count)
  pure c

theorem run_char_number (count : Nat) (s : List Char) :
    (charNumber count).run s =
      (charOf? (s.take count) count).map fun c => (c, s.drop count) := by
  simp only [charNumber, StateT.run_bind, StateT.run_get, pure_bind]
  rcases charOf? (s.take count) count with _ | c <;> rfl

theorem reads_char_number (count : Nat) {m : Nat} :
    Reads 0 m (charNumber count) (charNumber count) := by
  -- a number that is read has all its digits
  have hlength : ∀ {s : List Char} {c : Char}, charOf? (s.take count) count = some c →
      count ≤ s.length := by
    intro s c h
    unfold charOf? at h
    split at h
    · cases h
    · rename_i hlen
      rw [List.length_take] at hlen
      omega
  have hinv : ∀ {s : List Char} {a : Char} {rest : List Char},
      (charNumber count).run s = some (a, rest) →
      ∃ ds, s = ds ++ rest ∧ ds.length = count ∧ charOf? ds count = some a := by
    intro s a rest h
    rw [run_char_number, Option.map_eq_some_iff] at h
    obtain ⟨c, hc, heq⟩ := h
    obtain ⟨rfl, rfl⟩ := Prod.mk.inj heq
    exact ⟨s.take count, (List.take_append_drop count s).symm,
      List.length_take_of_le (hlength hc), hc⟩
  exact {
    takes := fun h => by
      obtain ⟨ds, hs, -⟩ := hinv h
      exact ⟨ds, hs, Nat.zero_le _⟩
    follows := fun {c s t a} _ _ h => by
      obtain ⟨ds, hs, hlen, hds⟩ := hinv h
      obtain rfl := List.append_cancel_right hs
      rw [run_char_number, List.take_left' hlen, List.drop_left' hlen, hds]
      rfl }

/-- What stands for a character behind a backslash. -/
def escaped : Char → Reader Char
  | 'b' => pure '\x08'
  | 't' => pure '\t'
  | 'n' => pure '\n'
  | 'f' => pure '\x0c'
  | 'r' => pure '\r'
  | 'e' => pure '\x1b'
  | '"' => pure '"'
  | '\\' => pure '\\'
  | 'x' => charNumber 2
  | 'u' => charNumber 4
  | 'U' => charNumber 8
  | _ => failure

theorem run_escape_cons (c : Char) (rest : List Char) :
    escape.run (c :: rest) = (escaped c).run rest := by
  unfold escaped
  split
  case h_12 =>
    simp only [escape, StateT.run_bind, StateT.run_get, pure_bind]
    split
    case h_12 => rfl
    all_goals exact absurd (List.cons.inj (by assumption)).1 (by assumption)
  case h_9 | h_10 | h_11 =>
    rw [run_char_number]
    simp only [escape, StateT.run_bind, StateT.run_get, pure_bind]
    rcases charOf? _ _ with _ | c <;> rfl
  all_goals rfl

theorem reads_escape {m : Nat} : Reads 1 m escape escape := by
  refine (Reads.of_cons (m := m) (fun c => ?_) run_escape_cons run_escape_cons rfl).weaken
    (Nat.le_refl _) (Nat.le_succ _)
  unfold escaped
  split
  case h_9 | h_10 | h_11 => exact reads_char_number _
  case h_12 => exact .failure
  all_goals exact .pure _

/-- Goes on in a string within double quotes after a character. -/
def basicNext (next : List Char → Reader String) (done : List Char) (c : Char) : Reader String :=
  if c = '"' then pure (String.ofList done.reverse)
  else if c = '\\' then do next ((← escape) :: done)
  else if isControl c then Alternative.failure
  else next (c :: done)

theorem run_basic_body_cons (n : Nat) (done : List Char) (c : Char) (rest : List Char) :
    (basicBody (n + 1) done).run (c :: rest) = (basicNext (basicBody n) done c).run rest := by
  unfold basicNext
  split
  · rename_i hquote
    subst hquote
    rfl
  split
  · rename_i hslash
    subst hslash
    rfl
  rename_i hquote hslash
  simp only [basicBody, StateT.run_bind, StateT.run_get, pure_bind]
  split <;> rfl

theorem reads_basic_body (n m : Nat) (done : List Char) :
    Reads 1 m (basicBody n done) (basicBody m done) := by
  induction n generalizing m done with
  | zero => exact .failure
  | succ n ih =>
      have hnext : ∀ k, Reads 1 (k + 1) (basicBody (n + 1) done) (basicBody (k + 1) done) := by
        intro k
        refine Reads.of_cons (fun c => ?_) (run_basic_body_cons n done)
          (run_basic_body_cons k done) rfl
        unfold basicNext
        split
        · exact .pure _
        split
        · exact (reads_escape.bind fun e => (ih k _).weaken (Nat.le_refl _) (Nat.sub_le _ _)).weaken
            (Nat.zero_le _) (Nat.le_refl _)
        split
        · exact .failure
        · exact (ih _ _).weaken (Nat.zero_le _) (Nat.le_refl _)
      cases m with
      | zero => exact (hnext 0).of_takes
      | succ m => exact hnext m

/-! ## Strings within single quotes -/

theorem literal_body_eq : literalBody = (do
    let body ← taking (· != '\'')
    if body.any isControl then Alternative.failure
    else do
      char '\''
      pure (String.ofList body)) := by
  funext s
  show literalBody.run s = StateT.run (taking (· != '\'') >>= _) s
  rw [StateT.run_bind, run_taking]
  simp only [literalBody, StateT.run_bind, StateT.run_get, pure_bind, drop_take_while]
  show StateT.run (if _ then _ else _) s = StateT.run (if _ then _ else _) _
  split <;> rfl

theorem reads_literal_body {m : Nat} : Reads 1 m literalBody literalBody := by
  rw [literal_body_eq]
  refine (reads_taking _).bind (k := 1) fun body => ?_
  split
  · exact .failure
  · exact (reads_char _).bind fun _ => .pure _

/-- Goes on in a string on one line after its opening quote. -/
def shortNext (c : Char) : Reader String :=
  if c = '"' then do basicBody ((← get).length + 1) []
  else if c = '\'' then literalBody
  else Alternative.failure

theorem run_short_string_cons (c : Char) (rest : List Char) :
    shortString.run (c :: rest) = (shortNext c).run rest := by
  unfold shortNext
  split
  · rename_i hquote
    subst hquote
    rfl
  split
  · rename_i hquote
    subst hquote
    rfl
  simp only [shortString, StateT.run_bind, StateT.run_get, pure_bind]
  split
  · exact absurd (List.cons.inj (by assumption)).1 (by assumption)
  · exact absurd (List.cons.inj (by assumption)).1 (by assumption)
  · rfl

theorem reads_short_string {m : Nat} : Reads 2 m shortString shortString := by
  refine (Reads.of_cons (m := m) (fun c => ?_) run_short_string_cons run_short_string_cons
    rfl).weaken (Nat.le_refl _) (Nat.le_succ _)
  unfold shortNext
  split
  · exact .sized (fun n => Nat.le_succ n) fun n m => reads_basic_body n m []
  split
  · exact reads_literal_body
  · exact .failure

/-! ## Strings within three quotes -/

/-- Blanks and characters of line ends. -/
def isWhite (c : Char) : Bool :=
  Text.isSpaceOrTab c || c == '\n' || c == '\r'

theorem continued_eq (s : List Char) : continued s =
    if (newlineOf (s.dropWhile Text.isSpaceOrTab)).isSome then
      some ((s.dropWhile Text.isSpaceOrTab).dropWhile isWhite)
    else none := by
  unfold continued
  simp only
  split
  · rename_i heq
    rw [heq, newline_of_lf]
    rfl
  · rename_i heq
    rw [heq, newline_of_cr_lf]
    rfl
  · rename_i hlf hcr
    rcases hline : newlineOf (s.dropWhile Text.isSpaceOrTab) with _ | p
    · rfl
    · obtain ⟨rest, heq, rfl | rfl⟩ := newline_of_eq_some hline
      · exact absurd heq (hlf rest)
      · exact absurd heq (hcr rest)

/-- Goes on behind white space that holds a line end, or else otherwise. -/
def continuedOr (next other : Reader α) : Reader α := do
  match continued (← get) with
  | some rest => set rest; next
  | none => other

theorem reads_continued_or {l m : Nat} {next next' other other' : Reader α}
    (hnext : Reads l m next next') (hother : Reads l m other other') :
    Reads l m (continuedOr next other) (continuedOr next' other') := by
  have hview : ∀ {s t : List Char}, Alike s t →
      (newlineOf (s.dropWhile Text.isSpaceOrTab)).isSome =
        (newlineOf (t.dropWhile Text.isSpaceOrTab)).isSome := fun h => by
    rw [newline_of_alike (h.drop_while (by decide))]
  have hwhite : ∀ {m : Nat}, Reads 0 m (do set ((← get).dropWhile isWhite) : Reader Unit)
      (do set ((← get).dropWhile isWhite)) := reads_passing isWhite fun _ => rfl
  refine .of_view _ hview fun g => ?_
  cases g with
  | true =>
      have hrun : ∀ (r o : Reader α) (s : List Char),
          (newlineOf (s.dropWhile Text.isSpaceOrTab)).isSome = true →
          (continuedOr r o).run s =
            (do blanks; set ((← get).dropWhile isWhite); r : Reader α).run s := by
        intro r o s hs
        simp only [continuedOr, StateT.run_bind, StateT.run_get, pure_bind, continued_eq, hs,
          if_true]
        rfl
      refine ⟨_, _, ?_, hrun next other, hrun next' other'⟩
      refine (reads_blanks.bind (k := l) fun _ => ?_).weaken (Nat.le_add_left _ _) (Nat.le_refl _)
      exact (hwhite.bind (k := l) fun _ => hnext).weaken (Nat.le_add_left _ _) (Nat.le_refl _)
  | false =>
      have hrun : ∀ (r o : Reader α) (s : List Char),
          (newlineOf (s.dropWhile Text.isSpaceOrTab)).isSome = false →
          (continuedOr r o).run s = o.run s := by
        intro r o s hs
        simp only [continuedOr, StateT.run_bind, StateT.run_get, pure_bind, continued_eq, hs]
        rfl
      exact ⟨_, _, hother, hrun next other, hrun next' other'⟩

/-- Goes on in a string within three quotes after a character that ends no line. -/
def longChar (quote : Char) (next : List Char → Reader String) (done : List Char) (c : Char) :
    Reader String :=
  if isControl c then Alternative.failure
  else if c = '\\' ∧ quote = '"' then
    continuedOr (next done) (do next ((← escape) :: done))
  else next (c :: done)

/-- Goes on in a string within three quotes where no closing quotes stand. -/
def longNext (quote : Char) (next : List Char → Reader String) (done : List Char) :
    Reader String := do
  match ← get with
  | '\n' :: rest => set rest; next ('\n' :: done)
  | '\r' :: '\n' :: rest => set rest; next ('\n' :: '\r' :: done)
  | c :: rest => set rest; longChar quote next done c
  | [] => Alternative.failure

/-- Reads a character. -/
def anyChar : Reader Char := do
  match ← get with
  | c :: rest => set rest; pure c
  | [] => Alternative.failure

theorem reads_long_char (quote : Char) {l m : Nat} {next next' : List Char → Reader String}
    (h : ∀ done, Reads l m (next done) (next' done)) (done : List Char) (c : Char) :
    Reads l m (longChar quote next done c) (longChar quote next' done c) := by
  unfold longChar
  split
  · exact .failure
  split
  · refine reads_continued_or (h done) ?_
    exact (reads_escape.bind fun e => (h _).weaken (Nat.le_refl _) (Nat.sub_le _ _)).weaken
      (Nat.le_add_left _ _) (Nat.le_refl _)
  · exact h _

theorem run_long_next_of_none {quote : Char} {next : List Char → Reader String}
    {done s : List Char} (h : newlineOf s = none) :
    (longNext quote next done).run s = (anyChar >>= longChar quote next done).run s := by
  simp only [longNext, anyChar, StateT.run_bind, StateT.run_get, pure_bind]
  split
  · exact absurd h (by rw [newline_of_lf]; simp)
  · exact absurd h (by rw [newline_of_cr_lf]; simp)
  · rfl
  · rfl

theorem reads_long_next (quote : Char) {l m : Nat} {next next' : List Char → Reader String}
    (h : ∀ done, Reads l m (next done) (next' done)) (done : List Char) :
    Reads l (m + 1) (longNext quote next done) (longNext quote next' done) := by
  refine .of_newline (fun p => next (p.reverse ++ done)) (fun p => next' (p.reverse ++ done))
    (anyChar >>= longChar quote next done) (anyChar >>= longChar quote next' done)
    (fun p hp => ?_) ?_ ?_ fun s hs => ⟨run_long_next_of_none hs, run_long_next_of_none hs⟩
  · refine ((reads_chars p).bind (k := l) fun _ => (h _).weaken (Nat.le_refl _) ?_).weaken
      (Nat.le_add_left _ _) (Nat.le_refl _)
    omega
  · exact (Reads.of_cons (fun c => reads_long_char quote h done c) (fun _ _ => rfl)
      (fun _ _ => rfl) rfl).weaken (Nat.le_succ _) (Nat.le_refl _)
  · rintro p rest (rfl | rfl) <;> exact ⟨rfl, rfl⟩

theorem run_long_body (quote : Char) (n : Nat) (done s : List Char) :
    (longBody quote (n + 1) done).run s =
      match closingQuotes quote s with
      | some (kept, rest) =>
        some (String.ofList (done.reverse ++ List.replicate kept quote), rest)
      | none => (longNext quote (longBody quote n) done).run s := by
  simp only [longBody, StateT.run_bind, StateT.run_get, pure_bind]
  rcases closingQuotes quote s with _ | ⟨kept, rest⟩
  · simp only [longNext, longChar, continuedOr, StateT.run_bind, StateT.run_get, pure_bind]
    split
    · rfl
    · rfl
    · simp only [StateT.run_bind, StateT.run_set, pure_bind]
      split
      · rfl
      split
      · simp only [StateT.run_bind, StateT.run_get, pure_bind]
        rfl
      · rfl
    · rfl
  · rfl

/-- How many of some quotes a text begins with. -/
def quoteRun (quote : Char) (s : List Char) : Nat :=
  (s.takeWhile (· == quote)).length

theorem closing_quotes_eq_some_iff {quote : Char} {s rest : List Char} {kept : Nat} :
    closingQuotes quote s = some (kept, rest) ↔
      3 ≤ quoteRun quote s ∧ kept = min (quoteRun quote s) 5 - 3 ∧
        rest = s.drop (min (quoteRun quote s) 5) := by
  unfold closingQuotes quoteRun
  simp only
  split
  · simp only [reduceCtorEq, false_iff]
    omega
  · simp only [Option.some.injEq, Prod.mk.injEq]
    constructor
    · rintro ⟨rfl, rfl⟩
      exact ⟨by omega, rfl, rfl⟩
    · rintro ⟨-, rfl, rfl⟩
      exact ⟨rfl, rfl⟩

theorem closing_quotes_eq_none_iff {quote : Char} {s : List Char} :
    closingQuotes quote s = none ↔ quoteRun quote s < 3 := by
  unfold closingQuotes quoteRun
  simp only
  split <;> simp_all

/-- A run that is as long as the text goes on in the next one. -/
theorem quote_run_append (quote : Char) (c s : List Char) :
    quoteRun quote (c ++ s) =
      if quoteRun quote c = c.length then c.length + quoteRun quote s else quoteRun quote c := by
  unfold quoteRun
  rw [List.takeWhile_append]
  split <;> simp

theorem quote_run_le (quote : Char) (s : List Char) : quoteRun quote s ≤ s.length :=
  (List.takeWhile_prefix _).length_le

theorem quote_run_eq_zero_iff {quote : Char} {s : List Char} :
    quoteRun quote s = 0 ↔ s.head? ≠ some quote := by
  rcases s with _ | ⟨c, s⟩
  · simp [quoteRun]
  · by_cases hc : c = quote <;> simp [quoteRun, hc]

/-- Closing quotes before a text are closing quotes before an alike one. -/
theorem closing_quotes_follows {quote : Char} {c s t : List Char} {kept : Nat}
    (halike : Alike s t) (h : closingQuotes quote (c ++ s) = some (kept, s)) :
    closingQuotes quote (c ++ t) = some (kept, t) := by
  obtain ⟨hthree, rfl, hrest⟩ := closing_quotes_eq_some_iff.1 h
  have hle := quote_run_le quote (c ++ s)
  have hused : min (quoteRun quote (c ++ s)) 5 = c.length := by
    have hlength := congrArg List.length hrest
    rw [List.length_drop] at hlength
    rw [List.length_append] at hlength hle
    omega
  have hall : quoteRun quote c = c.length := by
    have hc := quote_run_le quote c
    rw [quote_run_append] at hused
    split at hused <;> omega
  rw [quote_run_append, if_pos hall] at hused hthree
  -- either the run ends here, and so it does before the other text, or there are five already
  have hused' : min (c.length + quoteRun quote t) 5 = c.length := by
    rcases Nat.lt_or_ge c.length 5 with hlt | hge
    · have hs : quoteRun quote s = 0 := by omega
      have ht : quoteRun quote t = 0 := by
        rw [quote_run_eq_zero_iff] at hs ⊢
        rwa [← halike.head]
      omega
    · omega
  refine closing_quotes_eq_some_iff.2 ?_
  rw [quote_run_append, quote_run_append, if_pos hall, if_pos hall, hused, hused', List.drop_left]
  exact ⟨by omega, rfl, rfl⟩

/-- Where no closing quotes stand, none do if the text goes on otherwise after three
characters. -/
theorem no_closing_quotes_follows {quote : Char} {c s : List Char} (t : List Char)
    (hc : 3 ≤ c.length) (h : closingQuotes quote (c ++ s) = none) :
    closingQuotes quote (c ++ t) = none := by
  rw [closing_quotes_eq_none_iff, quote_run_append] at h ⊢
  split at h
  · omega
  · rename_i hshort
    rw [if_neg hshort]
    exact h

theorem reads_long_body (quote : Char) (n m : Nat) (done : List Char) :
    Reads 3 m (longBody quote n done) (longBody quote m done) := by
  induction n generalizing m done with
  | zero => exact .failure
  | succ n ih =>
      have hnext : ∀ k, Reads 3 (k + 1) (longBody quote (n + 1) done)
          (longBody quote (k + 1) done) := by
        intro k
        have hlong := reads_long_next quote (fun d => ih k d) done
        have htakes : ∀ {s a rest}, (longBody quote (n + 1) done).run s = some (a, rest) →
            ∃ c, s = c ++ rest ∧ 3 ≤ c.length := by
          intro s a rest h
          rw [run_long_body] at h
          split at h
          · rename_i kept after hclose
            obtain ⟨hthree, -, rfl⟩ := closing_quotes_eq_some_iff.1 hclose
            obtain ⟨-, rfl⟩ := Prod.mk.inj (Option.some.inj h)
            refine ⟨s.take (min (quoteRun quote s) 5), (List.take_append_drop _ _).symm, ?_⟩
            have hle := quote_run_le quote s
            rw [List.length_take]
            omega
          · exact hlong.takes h
        refine ⟨htakes, fun {c s t a} halike hlt h => ?_⟩
        obtain ⟨c', hc', hthree⟩ := htakes h
        obtain rfl := List.append_cancel_right hc'
        rw [run_long_body] at h ⊢
        split at h
        · rename_i kept rest hclose
          obtain ⟨hkept, rfl⟩ := Prod.mk.inj (Option.some.inj h)
          rw [closing_quotes_follows halike hclose, ← hkept]
        · rename_i hnone
          rw [no_closing_quotes_follows t hthree hnone]
          exact hlong.follows halike hlt h
      cases m with
      | zero => exact (hnext 0).of_takes
      | succ m => exact hnext m

/-! ## Strings -/

/-- Reads what follows three opening quotes. -/
def longRest (quote : Char) (n : Nat) : Reader String := do
  firstNewline
  longBody quote n []

/-- Reads a string within three quotes of a kind. -/
def longString (quote : Char) : Reader String := do
  chars [quote, quote, quote]
  longRest quote ((← get).length + 1)

theorem reads_long_string (quote : Char) {m : Nat} :
    Reads 6 m (longString quote) (longString quote) := by
  refine (reads_chars [quote, quote, quote]).bind (k := 3) fun _ => ?_
  exact Reads.sized (f := longRest quote) (g := fun n => n + 1) Nat.le_succ fun n m =>
    (reads_first_newline.bind fun _ => reads_long_body quote n m []).weaken (Nat.le_refl _)
      (Nat.le_refl _)

theorem run_string (s : List Char) : string.run s =
    if ['"', '"', '"'].isPrefixOf s then (longString '"').run s
    else if ['\'', '\'', '\''].isPrefixOf s then (longString '\'').run s
    else shortString.run s := by
  simp only [string, StateT.run_bind, StateT.run_get, pure_bind]
  split
  · rfl
  · rfl
  · rename_i hdouble hsingle
    have hnot : ∀ q : Char, (∀ rest, s ≠ q :: q :: q :: rest) →
        [q, q, q].isPrefixOf s = false := by
      intro q hq
      rw [Bool.eq_false_iff]
      intro hpre
      obtain ⟨rest, rfl⟩ := List.isPrefixOf_iff_prefix.1 hpre
      exact hq rest rfl
    rw [hnot '"' fun rest h => hdouble rest h, hnot '\'' fun rest h => hsingle rest h]
    rfl

/-- Behind two characters, alike texts go on with the same quote. -/
theorem three_quotes_follow {c s t : List Char} (halike : Alike s t) (hc : 2 ≤ c.length)
    (quote : Char) :
    [quote, quote, quote].isPrefixOf (c ++ s) = [quote, quote, quote].isPrefixOf (c ++ t) := by
  obtain ⟨x, y, c, rfl⟩ : ∃ x y more, c = x :: y :: more := by
    rcases c with _ | ⟨x, _ | ⟨y, more⟩⟩
    · simp at hc
    · simp at hc
    · exact ⟨x, y, more, rfl⟩
  have hhead : ∀ u : List Char, [quote].isPrefixOf u = (u.head? == some quote) := by
    intro u
    rcases u with _ | ⟨z, u⟩
    · rfl
    · by_cases hz : quote = z
      · simp [List.isPrefixOf, hz]
      · simp [List.isPrefixOf, hz, Ne.symm hz]
  simp only [List.cons_append, List.isPrefixOf]
  rw [hhead, hhead, (halike.append c).head]

theorem reads_string {m : Nat} : Reads 2 m string string := by
  have htakes : ∀ {s a rest}, string.run s = some (a, rest) →
      ∃ c, s = c ++ rest ∧ 2 ≤ c.length := by
    intro s a rest h
    rw [run_string] at h
    split at h
    · obtain ⟨c, hc, hle⟩ := (reads_long_string '"' (m := 0)).takes h
      exact ⟨c, hc, by omega⟩
    split at h
    · obtain ⟨c, hc, hle⟩ := (reads_long_string '\'' (m := 0)).takes h
      exact ⟨c, hc, by omega⟩
    · exact (reads_short_string (m := 0)).takes h
  refine ⟨htakes, fun {c s t a} halike hlt h => ?_⟩
  obtain ⟨c', hc', htwo⟩ := htakes h
  obtain rfl := List.append_cancel_right hc'
  rw [run_string] at h ⊢
  rw [← three_quotes_follow halike htwo, ← three_quotes_follow halike htwo]
  split
  · rename_i hdouble
    rw [if_pos hdouble] at h
    exact (reads_long_string '"').follows halike hlt h
  rename_i hdouble
  rw [if_neg hdouble] at h
  split
  · rename_i hsingle
    rw [if_pos hsingle] at h
    exact (reads_long_string '\'').follows halike hlt h
  · rename_i hsingle
    rw [if_neg hsingle] at h
    exact reads_short_string.follows halike hlt h

/-! ## Keys -/

/-- Reads a part of a key without quotes. -/
def bareKey : Reader String := do
  let bare ← taking isKeyChar
  if bare.isEmpty then Alternative.failure else pure (String.ofList bare)

theorem run_key_part (s : List Char) : keyPart.run s =
    if s.head? = some '"' ∨ s.head? = some '\'' then shortString.run s else bareKey.run s := by
  simp only [keyPart, StateT.run_bind, StateT.run_get, pure_bind]
  split
  · rfl
  · rfl
  · rename_i hdouble hsingle
    have hnot : ∀ q : Char, (∀ rest, s ≠ q :: rest) → s.head? ≠ some q := by
      rintro q hq hs
      obtain ⟨rest, rfl⟩ := List.head?_eq_some_iff.1 hs
      exact hq rest rfl
    rw [if_neg (not_or.2 ⟨hnot '"' fun rest h => hdouble rest h,
      hnot '\'' fun rest h => hsingle rest h⟩)]
    rw [bareKey, StateT.run_bind, run_taking, drop_take_while]
    simp only [Option.bind_eq_bind, Option.bind_some]
    split <;> rfl

theorem reads_key_part {m : Nat} : Reads 0 m keyPart keyPart := by
  refine .of_head fun o => ?_
  by_cases ho : o = some '"' ∨ o = some '\''
  · have hrun : ∀ s, s.head? = o → keyPart.run s = shortString.run s := by
      rintro s rfl
      rw [run_key_part, if_pos ho]
    exact ⟨_, _, reads_short_string.weaken (Nat.zero_le _) (Nat.le_refl _), hrun, hrun⟩
  · have hrun : ∀ s, s.head? = o → keyPart.run s = bareKey.run s := by
      rintro s rfl
      rw [run_key_part, if_neg ho]
    refine ⟨_, _, (reads_taking isKeyChar).bind (k := 0) fun bare => ?_, hrun, hrun⟩
    split
    · exact .failure
    · exact .pure _

theorem reads_key (n m : Nat) : Reads 0 m (key n) (key m) := by
  induction n generalizing m with
  | zero => exact .failure
  | succ n ih =>
      have hnext : ∀ k, Reads 0 (k + 1) (key (n + 1)) (key (k + 1)) := by
        intro k
        refine reads_blanks.bind (k := 0) fun _ => reads_key_part.bind (k := 0) fun part =>
          reads_blanks.bind (k := 0) fun _ => (reads_at_char '.').bind (k := 0) fun dot => ?_
        cases dot with
        | true =>
            refine ((reads_char '.').bind (k := 0) fun _ => ?_).weaken (Nat.zero_le _)
              (Nat.le_refl _)
            exact ((ih k).bind (k := 0) fun more => .pure _).weaken (Nat.le_refl _)
              (Nat.le_refl _)
        | false => exact .pure _
      cases m with
      | zero => exact (hnext 0).of_takes
      | succ m => exact hnext m

/-- Reads a key. -/
def wholeKey : Reader (List String) := do
  key (← get).length

theorem reads_whole_key {m : Nat} : Reads 0 m wholeKey wholeKey :=
  .sized (fun n => Nat.le_refl n) reads_key

/-! ## Values without brackets -/

/-- Whether a character belongs to a word. -/
def isWordChar (c : Char) : Bool :=
  !endsWord c

/-- Whether a date is followed by a space and the digit of a time of day. -/
def startsTime (first rest : List Char) : Bool :=
  match rest with
  | ' ' :: c :: _ => (date? first == some []) && c.isDigit
  | _ => false

/-- What belongs to a word behind a space: the time of day behind a date. -/
def timeText (first rest : List Char) : List Char :=
  if startsTime first rest then ' ' :: (rest.drop 1).takeWhile isWordChar else []

/-- The characters of a word, which may be a date with a time of day. -/
def wordText (s : List Char) : List Char :=
  s.takeWhile isWordChar ++ timeText (s.takeWhile isWordChar) (s.dropWhile isWordChar)

/-- The value of a word. -/
def wordValue? (word : List Char) : Option Value :=
  if word = "true".toList then some (.bool true)
  else if word = "false".toList then some (.bool false)
  else
    match integer? word with
    | some n => some (.int n)
    | none =>
      if isFloat word then some (.float (String.ofList word))
      else if isTime word then some (.time (String.ofList word))
      else none

theorem starts_time_eq_true_iff {first rest : List Char} :
    startsTime first rest = true ↔
      ∃ c more, rest = ' ' :: c :: more ∧ date? first = some [] ∧ c.isDigit = true := by
  unfold startsTime
  split
  · rename_i c more
    rw [Bool.and_eq_true, beq_iff_eq]
    constructor
    · exact fun ⟨hdate, hc⟩ => ⟨c, more, rfl, hdate, hc⟩
    · rintro ⟨d, after, heq, hdate, hd⟩
      obtain ⟨rfl, rfl⟩ := List.cons.inj (List.cons.inj heq).2
      exact ⟨hdate, hd⟩
  · rename_i hno
    simp only [Bool.false_eq_true, false_iff]
    rintro ⟨c, more, rfl, -⟩
    exact hno c more rfl

theorem starts_time_of_alike (first : List Char) {s t : List Char} (h : Alike s t) :
    startsTime first s = startsTime first t := by
  rcases h with rfl | ⟨w, x, y, rfl, rfl⟩
  · rfl
  rcases w with _ | ⟨a, _ | ⟨c, w⟩⟩
  · rfl
  · by_cases ha : a = ' '
    · subst ha
      simp [startsTime]
    · rw [Bool.eq_iff_iff, starts_time_eq_true_iff, starts_time_eq_true_iff]
      simp [ha]
  · rw [Bool.eq_iff_iff, starts_time_eq_true_iff, starts_time_eq_true_iff]
    simp

/-- Digits belong to words. -/
theorem is_word_char_of_digit {c : Char} (h : c.isDigit = true) : isWordChar c = true := by
  rcases hends : endsWord c with _ | _
  · rw [isWordChar, hends, Bool.not_false]
  · have hnone : ([' ', '\t', ',', ']', '\x7d', '#', '\n', '\r', '='].all
        fun d => !d.isDigit) = true := by decide
    have hdigit := List.all_eq_true.1 hnone c (List.contains_iff_mem.1 hends)
    rw [h] at hdigit
    cases hdigit

/-- Reads a word whose characters are known. -/
def wordOf (joined s : List Char) : Reader Value := do
  set (s.drop joined.length)
  let text := String.ofList joined
  if joined = "true".toList then pure (.bool true)
  else if joined = "false".toList then pure (.bool false)
  else
    match integer? joined with
    | some n => pure (.int n)
    | none =>
      if isFloat joined then pure (.float text)
      else if isTime joined then pure (.time text)
      else failure

theorem run_word_of (joined s : List Char) :
    (wordOf joined s).run s = (wordValue? joined).map fun v => (v, s.drop joined.length) := by
  show StateT.run (if _ then _ else _) _ = _
  unfold wordValue?
  repeat' split
  all_goals rfl

theorem run_word (s : List Char) :
    word.run s = (wordValue? (wordText s)).map fun v => (v, s.drop (wordText s).length) := by
  have hword : ∀ joined, joined = wordText s → (wordOf joined s).run s =
      (wordValue? (wordText s)).map fun v => (v, s.drop (wordText s).length) := by
    rintro _ rfl
    exact run_word_of _ s
  refine hword _ ?_
  rw [show (s.takeWhile fun c => !endsWord c) = s.takeWhile isWordChar from rfl, drop_take_while]
  unfold wordText timeText
  split
  · rename_i hrest
    simp only [hrest, startsTime, List.drop_succ_cons, List.drop_zero]
    split
    · rfl
    · exact (List.append_nil _).symm
  · rename_i hno
    rw [if_neg]
    · exact (List.append_nil _).symm
    · intro htime
      obtain ⟨c, more, hrest, -⟩ := starts_time_eq_true_iff.1 htime
      exact hno c more hrest

theorem word_text_prefix (s : List Char) : ∃ rest, s = wordText s ++ rest := by
  unfold wordText timeText
  split
  · rename_i htime
    obtain ⟨c, more, hrest, -⟩ := starts_time_eq_true_iff.1 htime
    refine ⟨(c :: more).dropWhile isWordChar, ?_⟩
    rw [hrest, List.append_assoc, List.drop_succ_cons, List.drop_zero, List.cons_append,
      List.takeWhile_append_dropWhile, ← hrest, List.takeWhile_append_dropWhile]
  · exact ⟨s.dropWhile isWordChar, by rw [List.append_nil, List.takeWhile_append_dropWhile]⟩

/-- A run of characters of words that ends before some text ends before an alike one. -/
theorem word_run_follows {c s t : List Char} (halike : Alike s t)
    (h : (c ++ s).takeWhile isWordChar = c) :
    (c ++ t).takeWhile isWordChar = c ∧ (c ++ t).dropWhile isWordChar = t ∧
      (c ++ s).dropWhile isWordChar = s := by
  have hdrop : (c ++ s).dropWhile isWordChar = s := by
    have hcut := List.takeWhile_append_dropWhile (p := isWordChar) (l := c ++ s)
    rw [h] at hcut
    exact List.append_cancel_left hcut
  obtain ⟨-, htake, hdrop'⟩ := run_ends halike hdrop
  exact ⟨htake, hdrop', hdrop⟩

/-- A word that ends before some text ends before an alike one. -/
theorem word_text_follows {c s t : List Char} (halike : Alike s t) (h : wordText (c ++ s) = c) :
    wordText (c ++ t) = c := by
  rcases htime : startsTime ((c ++ s).takeWhile isWordChar) ((c ++ s).dropWhile isWordChar) with
    _ | _
  · have htake : (c ++ s).takeWhile isWordChar = c := by
      rw [wordText, timeText, htime, if_neg Bool.false_ne_true, List.append_nil] at h
      exact h
    obtain ⟨htake', hdrop', hdrop⟩ := word_run_follows halike htake
    rw [htake, hdrop, starts_time_of_alike c halike] at htime
    rw [wordText, timeText, htake', hdrop', htime, if_neg Bool.false_ne_true, List.append_nil]
  · obtain ⟨d, more, hrest, hdate, hd⟩ := starts_time_eq_true_iff.1 htime
    have hsplit := List.takeWhile_append_dropWhile (p := isWordChar) (l := c ++ s)
    have hall : ∀ e ∈ (c ++ s).takeWhile isWordChar, isWordChar e = true := fun _ =>
      List.mem_takeWhile_imp
    rw [wordText, timeText, htime, if_pos rfl, hrest, List.drop_succ_cons, List.drop_zero] at h
    generalize (c ++ s).takeWhile isWordChar = first at h hdate hsplit hall
    rw [hrest, ← h, List.append_assoc, List.append_cancel_left_eq, List.cons_append] at hsplit
    have hmore := (List.cons.inj hsplit).2
    obtain ⟨htake', -, -⟩ := word_run_follows (c := (d :: more).takeWhile isWordChar) halike
      (by rw [← hmore])
    have hfirst : (c ++ t).takeWhile isWordChar = first ∧ (c ++ t).dropWhile isWordChar =
        ' ' :: ((d :: more).takeWhile isWordChar ++ t) := by
      rw [← h, List.append_assoc, List.takeWhile_append_of_pos hall,
        List.dropWhile_append_of_pos hall, List.cons_append]
      exact ⟨List.append_nil first, rfl⟩
    have htime' : startsTime first (' ' :: ((d :: more).takeWhile isWordChar ++ t)) = true := by
      rw [List.takeWhile_cons_of_pos (is_word_char_of_digit hd)]
      exact starts_time_eq_true_iff.2 ⟨d, _, rfl, hdate, hd⟩
    rw [wordText, timeText, hfirst.1, hfirst.2, htime', if_pos rfl, List.drop_succ_cons,
      List.drop_zero, htake', h]

theorem reads_word {m : Nat} : Reads 0 m word word := by
  have hinv : ∀ {s rest v}, word.run s = some (v, rest) →
      s = wordText s ++ rest ∧ wordValue? (wordText s) = some v := by
    intro s rest v h
    rw [run_word, Option.map_eq_some_iff] at h
    obtain ⟨w, hw, heq⟩ := h
    obtain ⟨rfl, rfl⟩ := Prod.mk.inj heq
    obtain ⟨more, hmore⟩ := word_text_prefix s
    refine ⟨?_, hw⟩
    have hdrop := congrArg (List.drop (wordText s).length) hmore
    rw [List.drop_left] at hdrop
    rw [hdrop]
    exact hmore
  refine ⟨fun {s v rest} h => ⟨wordText s, (hinv h).1, Nat.zero_le _⟩,
    fun {c s t v} halike _ h => ?_⟩
  obtain ⟨hc, hv⟩ := hinv h
  have hword := List.append_cancel_right hc
  rw [run_word, word_text_follows halike hword.symm, List.drop_left, hword, hv]
  rfl

end CustomerDedupe.Toml.Reader
