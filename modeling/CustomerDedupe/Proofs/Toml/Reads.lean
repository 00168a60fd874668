import Mathlib.Data.List.TakeWhile
import CustomerDedupe.Toml.Reader

/-!
# What a reader looks at

A reader takes characters from the front of a text. What it takes, and what it makes of them,
depends on what it takes alone, except that it looks at what follows to see that a word or a run
of blanks has ended. A double quote always ends these, so what stands behind the next double quote
does not matter (`Alike`). `Reads` says so of two readers at once, which may differ in how many
steps they are allowed as long as that is more than what is taken.
-/

namespace CustomerDedupe.Toml

/-- Texts that are the same up to a double quote, or throughout. -/
def Alike (s t : List Char) : Prop :=
  s = t ∨ ∃ w x y, s = w ++ '"' :: x ∧ t = w ++ '"' :: y

namespace Alike

theorem refl (s : List Char) : Alike s s :=
  .inl rfl

theorem quote (x y : List Char) : Alike ('"' :: x) ('"' :: y) :=
  .inr ⟨[], x, y, rfl, rfl⟩

theorem append {s t : List Char} (h : Alike s t) (c : List Char) : Alike (c ++ s) (c ++ t) := by
  rcases h with rfl | ⟨w, x, y, rfl, rfl⟩
  · exact .refl _
  · exact .inr ⟨c ++ w, x, y, by simp, by simp⟩

theorem head {s t : List Char} (h : Alike s t) : s.head? = t.head? := by
  rcases h with rfl | ⟨w, x, y, rfl, rfl⟩
  · rfl
  · cases w <;> rfl

/-- Alike texts begin with the same characters other than double quotes. -/
theorem is_prefix {s t p : List Char} (h : Alike s t) (hp : '"' ∉ p) :
    p.isPrefixOf s = p.isPrefixOf t := by
  rcases h with rfl | ⟨w, x, y, rfl, rfl⟩
  · rfl
  induction w generalizing p with
  | nil =>
      rcases p with _ | ⟨c, p⟩
      · rfl
      · have hc : (c == '"') = false := beq_false_of_ne fun h => hp (h ▸ List.mem_cons_self)
        simp [List.isPrefixOf, hc]
  | cons d w ih =>
      rcases p with _ | ⟨c, p⟩
      · rfl
      · simp only [List.cons_append, List.isPrefixOf]
        rw [ih fun h => hp (List.mem_cons_of_mem _ h)]

/-- Texts that stay alike without the characters in front that pass a test which double quotes
fail. -/
theorem drop_while {s t : List Char} {p : Char → Bool} (h : Alike s t) (hp : p '"' = false) :
    Alike (s.dropWhile p) (t.dropWhile p) := by
  rcases h with rfl | ⟨w, x, y, rfl, rfl⟩
  · exact .refl _
  induction w with
  | nil =>
      rw [List.nil_append, List.nil_append, List.dropWhile_cons_of_neg (by simp [hp]),
        List.dropWhile_cons_of_neg (by simp [hp])]
      exact .quote x y
  | cons c w ih =>
      rw [List.cons_append, List.cons_append]
      by_cases hc : p c = true
      · rw [List.dropWhile_cons_of_pos hc, List.dropWhile_cons_of_pos hc]
        exact ih
      · rw [List.dropWhile_cons_of_neg hc, List.dropWhile_cons_of_neg hc]
        exact .inr ⟨c :: w, x, y, rfl, rfl⟩

end Alike

namespace Reader

variable {α β : Type}

theorem run_bind_eq_some {r : Reader α} {f : α → Reader β} {s rest : List Char} {b : β} :
    (r >>= f).run s = some (b, rest) ↔
      ∃ a mid, r.run s = some (a, mid) ∧ (f a).run mid = some (b, rest) := by
  rw [StateT.run_bind]
  rcases r.run s with _ | ⟨a, mid⟩
  · simp
  · constructor
    · intro h
      exact ⟨a, mid, rfl, h⟩
    · rintro ⟨_, _, hr, hf⟩
      obtain ⟨rfl, rfl⟩ := Prod.mk.inj (Option.some.inj hr)
      exact hf

theorem run_lift_eq_some {o : Option α} {s : List Char} {a : α} {rest : List Char} :
    (liftM o : Reader α).run s = some (a, rest) ↔ o = some a ∧ s = rest := by
  cases o with
  | none => exact ⟨nofun, nofun⟩
  | some b =>
      show some (b, s) = some (a, rest) ↔ _
      simp

theorem run_pure_eq_some {s rest : List Char} {a b : α} :
    (pure b : Reader α).run s = some (a, rest) ↔ b = a ∧ s = rest := by
  show some (b, s) = some (a, rest) ↔ _
  simp

/-- The first reader takes at least `least` characters, and where it takes fewer than `most`, the
second one takes the same of texts that are alike. -/
structure Reads (least most : Nat) (r r' : Reader α) : Prop where
  takes : ∀ {s a rest}, r.run s = some (a, rest) → ∃ c, s = c ++ rest ∧ least ≤ c.length
  follows : ∀ {c s t a}, Alike s t → c.length < most → r.run (c ++ s) = some (a, s) →
    r'.run (c ++ t) = some (a, t)

namespace Reads

variable {l m : Nat} {r r' : Reader α}

theorem weaken {l' m' : Nat} (h : Reads l m r r') (hleast : l' ≤ l)
    (hmost : m' ≤ m) : Reads l' m' r r' where
  takes hr := by
    obtain ⟨c, hc, hle⟩ := h.takes hr
    exact ⟨c, hc, Nat.le_trans hleast hle⟩
  follows halike hlt hr := h.follows halike (Nat.lt_of_lt_of_le hlt hmost) hr

theorem pure (a : α) : Reads 0 m (Pure.pure a : Reader α) (Pure.pure a) where
  takes {s b rest} hr := by
    obtain ⟨-, rfl⟩ := Prod.mk.inj (Option.some.inj hr)
    exact ⟨[], rfl, Nat.le_refl 0⟩
  follows {c s t b} _ _ hr := by
    obtain ⟨rfl, hc⟩ := Prod.mk.inj (Option.some.inj hr)
    obtain rfl := List.append_left_eq_self.1 hc
    rfl

theorem failure : Reads l m (Alternative.failure : Reader α) r' where
  takes hr := by cases hr
  follows _ _ hr := by cases hr

/-- One reader after another. What the one takes, the other does not. -/
theorem bind {j k : Nat} {f f' : α → Reader β} (hr : Reads j (m - k) r r')
    (hf : ∀ a, Reads k (m - j) (f a) (f' a)) :
    Reads (j + k) m (r >>= f) (r' >>= f') where
  takes {s b rest} h := by
    obtain ⟨a, mid, hra, hfa⟩ := run_bind_eq_some.1 h
    obtain ⟨c₁, rfl, hle₁⟩ := hr.takes hra
    obtain ⟨c₂, rfl, hle₂⟩ := (hf a).takes hfa
    refine ⟨c₁ ++ c₂, (List.append_assoc _ _ _).symm, ?_⟩
    rw [List.length_append]
    omega
  follows {c s t b} halike hlt h := by
    obtain ⟨a, mid, hra, hfa⟩ := run_bind_eq_some.1 h
    obtain ⟨c₁, hc₁, hle₁⟩ := hr.takes hra
    obtain ⟨c₂, rfl, hle₂⟩ := (hf a).takes hfa
    rw [← List.append_assoc, List.append_cancel_right_eq] at hc₁
    subst hc₁
    rw [List.length_append] at hlt
    rw [List.append_assoc] at hra ⊢
    exact run_bind_eq_some.2 ⟨a, c₂ ++ t,
      hr.follows (halike.append c₂) (by omega) hra,
      (hf a).follows halike (by omega) hfa⟩

theorem congr {q q' : Reader α} (h : Reads l m q q') (hr : ∀ s, r.run s = q.run s)
    (hr' : ∀ s, r'.run s = q'.run s) : Reads l m r r' where
  takes h' := h.takes ((hr _).symm.trans h')
  follows halike hlt h' := (hr' _).trans (h.follows halike hlt ((hr _).symm.trans h'))

/-- Readers that go by something in which texts that are alike agree. -/
theorem of_view {γ : Type} (view : List Char → γ) (hview : ∀ {s t}, Alike s t → view s = view t)
    (h : ∀ g, ∃ q q', Reads l m q q' ∧ (∀ s, view s = g → r.run s = q.run s) ∧
      ∀ s, view s = g → r'.run s = q'.run s) : Reads l m r r' where
  takes {s a rest} hr := by
    obtain ⟨q, q', hq, hrun, -⟩ := h (view s)
    exact hq.takes ((hrun s rfl).symm.trans hr)
  follows {c s t a} halike hlt hr := by
    obtain ⟨q, q', hq, hrun, hrun'⟩ := h (view (c ++ s))
    rw [hrun' _ (hview (halike.append c)).symm]
    exact hq.follows halike hlt ((hrun _ rfl).symm.trans hr)

/-- Readers that go by the first character. -/
theorem of_head (h : ∀ o, ∃ q q', Reads l m q q' ∧ (∀ s, s.head? = o → r.run s = q.run s) ∧
    ∀ s, s.head? = o → r'.run s = q'.run s) : Reads l m r r' :=
  of_view List.head? Alike.head h

/-- A reader that comes to a text comes to an alike one. -/
theorem comes (h : Reads l m r r') {p q t t' : List Char} {a : α} (halike : Alike t t')
    (hlt : p.length < m + q.length)
    (hr : r.run (p ++ t) = some (a, q ++ t)) :
    r'.run (p ++ t') = some (a, q ++ t') ∧ q.length + l ≤ p.length := by
  obtain ⟨c, hc, hle⟩ := h.takes hr
  rw [← List.append_assoc, List.append_cancel_right_eq] at hc
  subst hc
  rw [List.append_assoc] at hr ⊢
  rw [List.length_append] at hlt ⊢
  exact ⟨h.follows (halike.append q) (by omega) hr, by omega⟩

theorem comes_on (h : ∀ m, Reads l m r r') {p q t t' : List Char} {a : α} (halike : Alike t t')
    (hr : r.run (p ++ t) = some (a, q ++ t)) :
    r'.run (p ++ t') = some (a, q ++ t') ∧ q.length + l ≤ p.length :=
  (h _).comes halike (Nat.lt_add_right q.length (Nat.lt_succ_self p.length)) hr

/-- Readers that may take different numbers of steps agree where both read something. -/
theorem agree {f : Nat → Reader α} (h : ∀ n m, Reads l m (f n) (f m)) {n m : Nat} {s : List Char}
    {a b : α × List Char} (ha : (f n).run s = some a) (hb : (f m).run s = some b) : a = b := by
  have hlarge : ∀ {n a}, (f n).run s = some a → (f (s.length + 1)).run s = some a := by
    rintro n ⟨a, rest⟩ ha
    obtain ⟨c, rfl, -⟩ := (h n 0).takes ha
    refine (h n _).follows (.refl rest) ?_ ha
    rw [List.length_append]
    omega
  exact Option.some.inj ((hlarge ha).symm.trans (hlarge hb))

end Reads

/-! ## Characters -/

theorem run_char (c : Char) (rest : List Char) : (char c).run (c :: rest) = some ((), rest) := by
  simp [char, StateT.run_bind]

theorem run_char_eq_some {c : Char} {s rest : List Char} {u : Unit} :
    (char c).run s = some (u, rest) ↔ s = c :: rest := by
  constructor
  · intro h
    rcases s with _ | ⟨d, s⟩
    · cases h
    · by_cases hd : d = c
      · subst hd
        rw [run_char] at h
        obtain ⟨-, rfl⟩ := Prod.mk.inj (Option.some.inj h)
        rfl
      · have hfail : (char c).run (d :: s) = none := by
          show StateT.run (if d = c then set s else Alternative.failure : Reader Unit)
            (d :: s) = none
          rw [if_neg hd]
          rfl
        rw [hfail] at h
        cases h
  · rintro rfl
    exact run_char c rest

theorem reads_char (c : Char) {m : Nat} : Reads 1 m (char c) (char c) where
  takes {s a rest} h := ⟨[c], run_char_eq_some.1 h, Nat.le_refl 1⟩
  follows {d s t a} _ _ h := by
    have hd : d = [c] := by
      have := run_char_eq_some.1 h
      exact List.append_cancel_right (show d ++ s = [c] ++ s from this)
    rw [hd]
    exact run_char c t

/-- Whether a text is at its end. -/
def atEnd : Reader Bool := do
  return (← get).isEmpty

/-- A reader that tells something in which alike texts agree, and takes nothing. -/
theorem reads_peek {γ : Type} (view : List Char → γ)
    (hview : ∀ {s t}, Alike s t → view s = view t) {m : Nat} {r : Reader γ}
    (h : ∀ s, r.run s = some (view s, s)) : Reads 0 m r r where
  takes {s a rest} hr := by
    rw [h] at hr
    obtain ⟨-, rfl⟩ := Prod.mk.inj (Option.some.inj hr)
    exact ⟨[], rfl, Nat.le_refl 0⟩
  follows {c s t a} halike _ hr := by
    rw [h] at hr
    obtain ⟨hview', hc⟩ := Prod.mk.inj (Option.some.inj hr)
    obtain rfl := List.append_left_eq_self.1 hc
    rw [List.nil_append] at hview' ⊢
    rw [h, ← hview', hview halike]

theorem reads_at_char (c : Char) {m : Nat} : Reads 0 m (atChar c) (atChar c) :=
  reads_peek (fun s => s.head? == some c) (fun h => by rw [h.head]) fun _ => rfl

theorem reads_at_end {m : Nat} : Reads 0 m atEnd atEnd :=
  reads_peek List.isEmpty
    (fun {s t} h => by
      have hhead := h.head
      cases s <;> cases t <;> first | rfl | cases hhead)
    fun _ => rfl

/-- Going on behind a mark, if it stands there, or else otherwise. -/
theorem run_mark_eq_some {c : Char} {q r : Reader α} {s : List Char} {x : α × List Char} :
    (do
      if ← atChar c then
        char c
        q
      else r : Reader α).run s = some x ↔
      (∃ next, s = c :: next ∧ q.run next = some x) ∨ s.head? ≠ some c ∧ r.run s = some x := by
  rw [StateT.run_bind]
  show StateT.run (if s.head? == some c then char c >>= fun _ => q else r) s = some x ↔ _
  by_cases h : s.head? = some c
  · obtain ⟨next, rfl⟩ := List.head?_eq_some_iff.1 h
    rw [if_pos (beq_iff_eq.2 h), StateT.run_bind, run_char]
    simp
  · rw [if_neg (by simpa using h)]
    constructor
    · exact fun hr => .inr ⟨h, hr⟩
    · rintro (⟨next, rfl, -⟩ | ⟨-, hr⟩)
      · exact absurd rfl h
      · exact hr

theorem run_at_end_eq_some {q r : Reader α} {s : List Char} {x : α × List Char} :
    (do if ← atEnd then q else r : Reader α).run s = some x ↔
      s = [] ∧ q.run [] = some x ∨ s ≠ [] ∧ r.run s = some x := by
  rw [StateT.run_bind]
  show StateT.run (if s.isEmpty then q else r) s = some x ↔ _
  cases s <;> simp

theorem run_chars (cs s : List Char) :
    (chars cs).run s = if cs.isPrefixOf s then some ((), s.drop cs.length) else none := by
  show ((if cs.isPrefixOf s then set (s.drop cs.length) else Alternative.failure) :
    Reader Unit).run s = _
  split <;> rfl

theorem run_chars_append (cs rest : List Char) :
    (chars cs).run (cs ++ rest) = some ((), rest) := by
  rw [run_chars, if_pos (List.isPrefixOf_iff_prefix.2 (List.prefix_append cs rest)),
    List.drop_left]

theorem reads_chars (cs : List Char) {m : Nat} : Reads cs.length m (chars cs) (chars cs) := by
  have hinv : ∀ {s rest u}, (chars cs).run s = some (u, rest) → s = cs ++ rest := by
    intro s rest u h
    rw [run_chars] at h
    split at h
    · rename_i hpre
      obtain ⟨more, rfl⟩ := List.isPrefixOf_iff_prefix.1 hpre
      rw [List.drop_left] at h
      rw [(Prod.mk.inj (Option.some.inj h)).2]
    · cases h
  exact {
    takes := fun h => ⟨cs, hinv h, Nat.le_refl _⟩
    follows := fun {c s t a} _ _ h => by
      rw [List.append_cancel_right (hinv h)]
      exact run_chars_append cs t }

/-! ## Runs of characters -/

theorem drop_take_while (p : Char → Bool) (s : List Char) :
    s.drop (s.takeWhile p).length = s.dropWhile p := by
  have hcut := @List.drop_left _ (s.takeWhile p) (s.dropWhile p)
  rwa [List.takeWhile_append_dropWhile] at hcut

/-- Reads the longest run of characters that pass a test. -/
def taking (p : Char → Bool) : Reader (List Char) := do
  let s ← get
  set (s.dropWhile p)
  return s.takeWhile p

theorem run_taking (p : Char → Bool) (s : List Char) :
    (taking p).run s = some (s.takeWhile p, s.dropWhile p) := rfl

/-- Where a run of characters ends before some text, it ends before an alike one. -/
theorem run_ends {p : Char → Bool} {c s t : List Char} (halike : Alike s t)
    (h : (c ++ s).dropWhile p = s) :
    (c ++ s).takeWhile p = c ∧ (c ++ t).takeWhile p = c ∧ (c ++ t).dropWhile p = t := by
  have hall : ∀ d ∈ c, p d = true := by
    by_cases hnil : c.dropWhile p = []
    · exact List.dropWhile_eq_nil_iff.1 hnil
    · rw [List.dropWhile_append, if_neg (by simpa using hnil)] at h
      exact absurd (List.append_left_eq_self.1 h) hnil
  rw [List.dropWhile_append_of_pos hall] at h
  have hs : s.takeWhile p = [] := by
    have hcut := List.takeWhile_append_dropWhile (p := p) (l := s)
    rw [h] at hcut
    exact List.append_left_eq_self.1 hcut
  have ht : t.takeWhile p = [] := by
    rcases t with _ | ⟨a, t⟩
    · rfl
    obtain ⟨s, rfl⟩ := List.head?_eq_some_iff.1 halike.head
    by_cases ha : p a = true
    · rw [List.takeWhile_cons_of_pos ha] at hs
      cases hs
    · exact List.takeWhile_cons_of_neg ha
  have ht' : t.dropWhile p = t := by
    have hcut := List.takeWhile_append_dropWhile (p := p) (l := t)
    rwa [ht, List.nil_append] at hcut
  rw [List.takeWhile_append_of_pos hall, List.takeWhile_append_of_pos hall,
    List.dropWhile_append_of_pos hall, hs, ht, ht', List.append_nil]
  exact ⟨rfl, rfl, rfl⟩

theorem reads_taking (p : Char → Bool) {m : Nat} : Reads 0 m (taking p) (taking p) where
  takes {s a rest} h := by
    rw [run_taking] at h
    obtain ⟨-, rfl⟩ := Prod.mk.inj (Option.some.inj h)
    exact ⟨s.takeWhile p, List.takeWhile_append_dropWhile.symm, Nat.zero_le _⟩
  follows {c s t a} halike _ h := by
    rw [run_taking] at h ⊢
    obtain ⟨ha, hs⟩ := Prod.mk.inj (Option.some.inj h)
    obtain ⟨htake, htake', hdrop'⟩ := run_ends halike hs
    rw [htake', hdrop', ← ha, htake]

/-- Passes over the longest run of characters that pass a test. -/
theorem reads_passing (p : Char → Bool) {m : Nat} {r : Reader Unit}
    (h : ∀ s, r.run s = some ((), s.dropWhile p)) : Reads 0 m r r where
  takes {s a rest} hr := by
    rw [h] at hr
    obtain ⟨-, rfl⟩ := Prod.mk.inj (Option.some.inj hr)
    exact ⟨s.takeWhile p, List.takeWhile_append_dropWhile.symm, Nat.zero_le _⟩
  follows {c s t a} halike _ hr := by
    rw [h] at hr ⊢
    rw [(run_ends halike (Prod.mk.inj (Option.some.inj hr)).2).2.2]

theorem reads_blanks {m : Nat} : Reads 0 m blanks blanks :=
  reads_passing Text.isSpaceOrTab fun _ => rfl

/-! ## Ends of lines -/

/-- How a text begins if it begins with a line end. -/
def newlineOf (s : List Char) : Option (List Char) :=
  [['\n'], ['\r', '\n']].find? fun p => p.isPrefixOf s

theorem newline_of_alike {s t : List Char} (h : Alike s t) : newlineOf s = newlineOf t := by
  simp only [newlineOf, List.find?, h.is_prefix (p := ['\n']) (by decide),
    h.is_prefix (p := ['\r', '\n']) (by decide)]

theorem newline_of_lf (rest : List Char) : newlineOf ('\n' :: rest) = some ['\n'] := rfl

theorem newline_of_cr_lf (rest : List Char) :
    newlineOf ('\r' :: '\n' :: rest) = some ['\r', '\n'] := rfl

theorem newline_of_eq_some {s p : List Char} (h : newlineOf s = some p) :
    ∃ rest, s = p ++ rest ∧ (p = ['\n'] ∨ p = ['\r', '\n']) := by
  have hmem := List.mem_of_find?_eq_some h
  have hpre := List.find?_some h
  obtain ⟨rest, rfl⟩ := List.isPrefixOf_iff_prefix.1 hpre
  simp only [List.mem_cons, List.not_mem_nil, or_false] at hmem
  exact ⟨rest, rfl, hmem⟩

/-- Readers that go by whether there is a line end. -/
theorem Reads.of_newline {l m : Nat} {r r' : Reader α} (f f' : List Char → Reader α)
    (q q' : Reader α)
    (hline : ∀ p, 0 < p.length →
      Reads l m (chars p >>= fun _ => f p) (chars p >>= fun _ => f' p))
    (hnone : Reads l m q q')
    (hr : ∀ p rest, p = ['\n'] ∨ p = ['\r', '\n'] →
      r.run (p ++ rest) = (f p).run rest ∧ r'.run (p ++ rest) = (f' p).run rest)
    (hq : ∀ s, newlineOf s = none → r.run s = q.run s ∧ r'.run s = q'.run s) :
    Reads l m r r' := by
  refine .of_view newlineOf newline_of_alike fun g => ?_
  rcases g with _ | p
  · exact ⟨q, q', hnone, fun s h => (hq s h).1, fun s h => (hq s h).2⟩
  · by_cases hp : p = ['\n'] ∨ p = ['\r', '\n']
    · have hpos : 0 < p.length := by rcases hp with rfl | rfl <;> decide
      refine ⟨_, _, hline p hpos, fun s h => ?_, fun s h => ?_⟩
      all_goals
        obtain ⟨rest, rfl, -⟩ := newline_of_eq_some h
        rw [StateT.run_bind, run_chars_append]
      · exact (hr p rest hp).1
      · exact (hr p rest hp).2
    · refine ⟨q, q', hnone, fun s h => ?_, fun s h => ?_⟩
      all_goals exact absurd (newline_of_eq_some h).choose_spec.2 hp

theorem reads_newline {m : Nat} : Reads 1 m newline newline := by
  refine .of_newline (fun _ => pure ()) (fun _ => pure ()) Alternative.failure Alternative.failure
    (fun p hp => ?_) .failure ?_ ?_
  · exact ((reads_chars p).bind fun _ => .pure ()).weaken hp (Nat.le_refl _)
  · rintro p rest (rfl | rfl) <;> exact ⟨rfl, rfl⟩
  · intro s hs
    have hrun : newline.run s = none := by
      simp only [newline, StateT.run_bind, StateT.run_get, pure_bind]
      split
      · exact absurd hs (by rw [newline_of_lf]; simp)
      · exact absurd hs (by rw [newline_of_cr_lf]; simp)
      · rfl
    exact ⟨hrun, hrun⟩

theorem reads_first_newline {m : Nat} : Reads 0 m firstNewline firstNewline := by
  refine .of_newline (fun _ => pure ()) (fun _ => pure ()) (pure ()) (pure ()) (fun p _ => ?_)
    (.pure ()) ?_ ?_
  · exact ((reads_chars p).bind fun _ => .pure ()).weaken (Nat.zero_le _) (Nat.le_refl _)
  · rintro p rest (rfl | rfl) <;> exact ⟨rfl, rfl⟩
  · intro s hs
    have hrun : firstNewline.run s = (pure () : Reader Unit).run s := by
      simp only [firstNewline, StateT.run_bind, StateT.run_get, pure_bind]
      split
      · exact absurd hs (by rw [newline_of_lf]; simp)
      · exact absurd hs (by rw [newline_of_cr_lf]; simp)
      · rfl
    exact ⟨hrun, hrun⟩

/-- Reads a comment. -/
def commentText : Reader Unit := do
  char '#'
  let body ← taking fun c => c != '\n' && c != '\r'
  if body.any isControl then Alternative.failure else pure ()

theorem reads_comment_text {m : Nat} : Reads 1 m commentText commentText := by
  refine (reads_char '#').bind (k := 0) fun _ => (reads_taking _).bind (k := 0) fun b => ?_
  split
  · exact .failure
  · exact .pure ()

theorem run_comment (rest : List Char) :
    comment.run ('#' :: rest) = commentText.run ('#' :: rest) := by
  rw [commentText, StateT.run_bind, run_char]
  simp only [comment, StateT.run_bind, StateT.run_get, pure_bind, drop_take_while, run_taking,
    Option.bind_eq_bind, Option.bind_some]
  split <;> rfl

theorem run_no_comment {s : List Char} (h : ∀ rest, s ≠ '#' :: rest) :
    comment.run s = some ((), s) := by
  simp only [comment, StateT.run_bind, StateT.run_get, pure_bind]
  rfl

theorem reads_comment {m : Nat} : Reads 0 m comment comment := by
  refine .of_head fun o => ?_
  by_cases ho : o = some '#'
  · have hrun : ∀ s, s.head? = o → comment.run s = commentText.run s := by
      intro s hs
      obtain ⟨rest, rfl⟩ := List.head?_eq_some_iff.1 (hs.trans ho)
      exact run_comment rest
    exact ⟨_, _, reads_comment_text.weaken (Nat.zero_le _) (Nat.le_refl _), hrun, hrun⟩
  · have hrun : ∀ s, s.head? = o → comment.run s = (pure () : Reader Unit).run s := by
      rintro s rfl
      exact run_no_comment fun rest hs => ho (by rw [hs]; rfl)
    exact ⟨_, _, .pure (), hrun, hrun⟩

theorem line_end_eq : lineEnd = (do
    blanks
    comment
    let e ← atEnd
    if e then pure () else newline) := rfl

theorem reads_line_end {m : Nat} : Reads 0 m lineEnd lineEnd := by
  rw [line_end_eq]
  refine reads_blanks.bind (k := 0) fun _ => reads_comment.bind (k := 0) fun _ =>
    reads_at_end.bind (k := 0) fun e => ?_
  cases e
  · exact reads_newline.weaken (Nat.zero_le _) (Nat.le_refl _)
  · exact .pure ()

/-! ## Gaps -/

/-- Skips blanks, comments and line ends. -/
def skip : Reader Unit := do
  gap (← get).length

/-- Goes on behind a line end, if there is one. -/
def afterNewline (r : Reader Unit) : Reader Unit := do
  match ← get with
  | '\n' :: rest => set rest; r
  | '\r' :: '\n' :: rest => set rest; r
  | _ => pure ()

theorem run_after_newline {r : Reader Unit} {p rest : List Char}
    (hp : p = ['\n'] ∨ p = ['\r', '\n']) :
    (afterNewline r).run (p ++ rest) = r.run rest := by
  rcases hp with rfl | rfl <;> rfl

theorem run_no_newline {r : Reader Unit} {s : List Char} (h : newlineOf s = none) :
    (afterNewline r).run s = some ((), s) := by
  simp only [afterNewline, StateT.run_bind, StateT.run_get, pure_bind]
  split
  · exact absurd h (by rw [newline_of_lf]; simp)
  · exact absurd h (by rw [newline_of_cr_lf]; simp)
  · rfl

theorem reads_after_newline {m : Nat} {r r' : Reader Unit} (h : Reads 0 m r r') :
    Reads 0 (m + 1) (afterNewline r) (afterNewline r') := by
  refine .of_newline (fun _ => r) (fun _ => r') (pure ()) (pure ()) (fun p hp => ?_) (.pure ())
    ?_ ?_
  · refine ((reads_chars p).bind (k := 0) fun _ => h.weaken (Nat.le_refl _) ?_).weaken
      (Nat.zero_le _) (Nat.le_refl _)
    omega
  · exact fun p rest hp => ⟨run_after_newline hp, run_after_newline hp⟩
  · exact fun s hs => ⟨run_no_newline hs, run_no_newline hs⟩

/-- A line's rest and what follows it, if there is more. -/
def restAndMore (r : Reader Unit) : Reader Unit := do
  blanks
  comment
  afterNewline r

theorem gap_succ (n : Nat) : gap (n + 1) = restAndMore (gap n) := rfl

theorem reads_rest_and_more {m : Nat} {r r' : Reader Unit} (h : Reads 0 m r r') :
    Reads 0 (m + 1) (restAndMore r) (restAndMore r') :=
  reads_blanks.bind (k := 0) fun _ => reads_comment.bind (k := 0) fun _ =>
    reads_after_newline h

/-- What follows is shorter than the text. -/
theorem rest_and_more_congr {r r' : Reader Unit} {s : List Char}
    (h : ∀ rest, rest.length < s.length → r.run rest = r'.run rest) :
    (restAndMore r).run s = (restAndMore r').run s := by
  simp only [restAndMore, StateT.run_bind]
  refine Option.bind_congr fun ⟨_, s₁⟩ hs₁ => Option.bind_congr fun ⟨_, s₂⟩ hs₂ => ?_
  obtain ⟨c₁, rfl, -⟩ := (reads_blanks (m := 0)).takes hs₁
  obtain ⟨c₂, rfl, -⟩ := (reads_comment (m := 0)).takes hs₂
  rcases hline : newlineOf s₂ with _ | p
  · rw [run_no_newline hline, run_no_newline hline]
  · obtain ⟨rest, rfl, hp⟩ := newline_of_eq_some hline
    rw [run_after_newline hp, run_after_newline hp]
    refine h rest ?_
    have hpos : 0 < p.length := by rcases hp with rfl | rfl <;> decide
    simp only [List.length_append]
    omega

/-- As many steps as there are characters are enough for a gap. -/
theorem run_gap {n m : Nat} {s : List Char} (hn : s.length ≤ n) (hm : s.length ≤ m) :
    (gap n).run s = (gap m).run s := by
  have hnil : ∀ k, (gap k).run [] = some ((), []) := by
    intro k
    cases k <;> rfl
  induction n generalizing m s with
  | zero =>
      obtain rfl := List.eq_nil_of_length_eq_zero (Nat.le_zero.1 hn)
      rw [hnil, hnil]
  | succ n ih =>
      cases m with
      | zero =>
          obtain rfl := List.eq_nil_of_length_eq_zero (Nat.le_zero.1 hm)
          rw [hnil, hnil]
      | succ m =>
          rw [gap_succ, gap_succ]
          exact rest_and_more_congr fun rest hrest => ih (by omega) (by omega)

theorem run_skip (s : List Char) : skip.run s = (restAndMore skip).run s := by
  have hskip : ∀ t : List Char, skip.run t = (gap t.length).run t := fun _ => rfl
  rw [hskip, run_gap (Nat.le_refl _) (Nat.le_succ _), gap_succ]
  exact rest_and_more_congr fun rest hrest => run_gap (Nat.le_of_lt hrest) (Nat.le_refl _)

theorem reads_gap (n : Nat) : Reads 0 0 (gap n) (gap n) := by
  induction n with
  | zero => exact .pure ()
  | succ n ih => exact (reads_rest_and_more ih).weaken (Nat.le_refl _) (Nat.zero_le _)

theorem reads_skip {m : Nat} : Reads 0 m skip skip := by
  induction m with
  | zero => exact ⟨fun {s a rest} h => (reads_gap s.length).takes h, fun _ h => nomatch h⟩
  | succ m ih => exact (reads_rest_and_more ih).congr run_skip run_skip

end Reader

end CustomerDedupe.Toml
