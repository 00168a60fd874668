import Mathlib.Data.List.TakeWhile
import CustomerDedupe.Proofs.Calendar.Spelling

/-!
# Years that are written with a sign

An instant outside the years 0 to 9999 is written with a sign before its year. The reader of full
timestamps wants a digit there, and none of the other readers of a timestamp column gets past the
mark of universal time at the end (`KeepsMark`). Such an instant is therefore not read at all: what
is read of a written instant is the instant itself (`read_column_chars_eq`).
-/

namespace CustomerDedupe.Calendar

namespace Reader

variable {α β : Type} {s rest : List Char}

/-- A text goes on with the rest after some characters without the mark of universal time. -/
def Unmarked (s rest : List Char) : Prop :=
  ∃ taken, s = taken ++ rest ∧ 'Z' ∉ taken

theorem Unmarked.refl (s : List Char) : Unmarked s s :=
  ⟨[], rfl, List.not_mem_nil⟩

theorem Unmarked.trans {last : List Char} (h : Unmarked s rest) (h' : Unmarked rest last) :
    Unmarked s last := by
  obtain ⟨taken, rfl, htaken⟩ := h
  obtain ⟨more, rfl, hmore⟩ := h'
  exact ⟨taken ++ more, (List.append_assoc _ _ _).symm,
    fun hmem => (List.mem_append.mp hmem).elim htaken hmore⟩

theorem Unmarked.cons {c : Char} (hc : c ≠ 'Z') (s : List Char) : Unmarked (c :: s) s :=
  ⟨[c], rfl, fun hmem => hc (List.mem_singleton.mp hmem).symm⟩

/-- Characters that are not the mark of universal time are dropped. -/
theorem Unmarked.drop_while {p : Char → Bool} (hp : p 'Z' = false) (s : List Char) :
    Unmarked s (s.dropWhile p) := by
  refine ⟨s.takeWhile p, List.takeWhile_append_dropWhile.symm, fun hmem => ?_⟩
  rw [List.mem_takeWhile_imp hmem] at hp
  cases hp

/-- Whatever a reader takes, it leaves the mark of universal time. -/
def KeepsMark (r : Reader α) : Prop :=
  ∀ s a rest, r s = .ok (a, rest) → Unmarked s rest

/-- A reader that goes on with what another has left. -/
theorem bind_inv {r : Reader α} {f : α → Reader β} {b : β} (h : (r >>= f) s = .ok (b, rest)) :
    ∃ a mid, r s = .ok (a, mid) ∧ f a mid = .ok (b, rest) := by
  have h : Except.bind (r s) (fun x => f x.1 x.2) = .ok (b, rest) := h
  cases hr : r s with
  | error e =>
      rw [hr] at h
      cases h
  | ok x =>
      rw [hr] at h
      exact ⟨x.1, x.2, rfl, h⟩

theorem KeepsMark.pure (a : α) : KeepsMark (pure a : Reader α) := by
  rintro s b rest ⟨⟩
  exact .refl s

theorem KeepsMark.bind {r : Reader α} {f : α → Reader β} (hr : KeepsMark r)
    (hf : ∀ a, KeepsMark (f a)) : KeepsMark (r >>= f) := by
  intro s b rest h
  obtain ⟨a, mid, ha, hb⟩ := bind_inv h
  exact (hr s a mid ha).trans (hf a mid b rest hb)

/-- A reader that looks at the text first. -/
theorem KeepsMark.look {f : List Char → Reader α}
    (h : ∀ s a rest, f s s = .ok (a, rest) → Unmarked s rest) : KeepsMark (get >>= f) := by
  intro s a rest hrun
  rw [bind_ok (get_ok s)] at hrun
  exact h s a rest hrun

/-- A reader that goes on with a text from which only unmarked characters are gone. -/
theorem set_keeps {f : PUnit → Reader α} {a : α} {t : List Char} (hf : KeepsMark (f ⟨⟩))
    (ht : Unmarked s t) (h : (set t >>= f) s = .ok (a, rest)) : Unmarked s rest := by
  rw [bind_ok (set_ok s t)] at h
  exact ht.trans (hf t a rest h)

/-- The digits at the front of a text are unmarked. -/
theorem unmarked_digits (most : Nat) (s : List Char) :
    Unmarked s (s.drop ((s.take most).takeWhile Char.isDigit).length) := by
  have hfront : (s.take most).takeWhile Char.isDigit <+: s :=
    (List.takeWhile_prefix _).trans (List.take_prefix most s)
  refine ⟨_, (List.prefix_iff_eq_append.mp hfront).symm, fun hmem => ?_⟩
  cases List.mem_takeWhile_imp hmem

theorem number_keeps_mark (least most : Nat) : KeepsMark (number least most) := by
  refine .look fun s n rest h => ?_
  simp only at h
  split at h
  next => cases h
  next =>
    split at h
    next => cases h
    next =>
      split at h
      next => cases h
      next =>
        refine set_keeps ?_ (unmarked_digits most s) h
        exact .pure _

theorem char_keeps_mark {c : Char} (hc : c ≠ 'Z') : KeepsMark (char c) := by
  refine .look fun s n rest h => ?_
  cases s with
  | nil => cases h
  | cons d s =>
      simp only at h
      split at h
      next heq =>
        obtain ⟨-, rfl⟩ := Prod.mk.inj (Except.ok.inj h)
        exact .cons (heq ▸ hc) s
      next => cases h

theorem blanks_keep_mark : KeepsMark blanks := by
  refine .look fun s n rest h => ?_
  obtain ⟨-, rfl⟩ := Prod.mk.inj (Except.ok.inj h)
  exact .drop_while (by decide) s

theorem bounded_keeps_mark {low high : Nat} {r : Reader Nat} (h : KeepsMark r) :
    KeepsMark (bounded low high r) := by
  refine h.bind fun n s m rest hrun => ?_
  split at hrun
  next => cases hrun
  next => exact KeepsMark.pure n s m rest hrun

theorem fraction_keeps_mark : KeepsMark fraction := by
  refine .look fun s n rest h => ?_
  split at h
  next more =>
    refine set_keeps ((number_keeps_mark 1 9).bind fun n => ?_) (.cons (by decide) more) h
    refine .look fun mid m last hrun => ?_
    refine KeepsMark.look (fun t k end' hset => ?_) mid m last hrun
    refine set_keeps ?_ (.drop_while ?_ t) hset
    · exact .pure _
    · decide
  next => exact KeepsMark.pure 0 s n rest h

/-- A reader that fails on some condition and otherwise takes nothing. -/
theorem guarded_keeps_mark {c : Prop} [Decidable c] (e : ReadProblem) (a : α) :
    KeepsMark (if c then throw e >>= fun _ : PUnit => pure a else pure a) := by
  intro s b rest h
  split at h
  next => cases h
  next => exact KeepsMark.pure a s b rest h

theorem signed_year_keeps_mark : KeepsMark signedYear := by
  have hyear (least most : Nat) (sign : Nat → Int) : KeepsMark (do
      let year ← pure (sign (← number least most))
      if year < -2147483648 ∨ 2147483647 < year then throw .outOfRange
      pure year) :=
    (number_keeps_mark least most).bind fun _ =>
      (KeepsMark.pure _).bind fun _ => guarded_keeps_mark _ _
  refine blanks_keep_mark.bind fun _ => .look fun s n rest h => ?_
  split at h
  next more => exact set_keeps (hyear 1 more.length fun n => -n) (.cons (by decide) more) h
  next more => exact set_keeps (hyear 1 more.length fun n => n) (.cons (by decide) more) h
  next => exact hyear 1 4 (fun n => n) s n rest h

theorem loose_keeps_mark (low high : Nat) : KeepsMark (loose low high) :=
  blanks_keep_mark.bind fun _ => bounded_keeps_mark (number_keeps_mark 1 2)

theorem loose_date_keeps_mark : KeepsMark looseDate :=
  signed_year_keeps_mark.bind fun _ =>
    (char_keeps_mark (by decide)).bind fun _ =>
    (loose_keeps_mark 1 12).bind fun _ =>
    (char_keeps_mark (by decide)).bind fun _ =>
    (loose_keeps_mark 1 31).bind fun _ => .pure _

theorem loose_clock_keeps_mark : KeepsMark looseClock :=
  (loose_keeps_mark 0 23).bind fun _ =>
    (char_keeps_mark (by decide)).bind fun _ =>
    (loose_keeps_mark 0 59).bind fun _ =>
    (char_keeps_mark (by decide)).bind fun _ =>
    (loose_keeps_mark 0 60).bind fun _ =>
    fraction_keeps_mark.bind fun _ => .pure _

/-- A reader that takes a whole text leaves nothing. -/
theorem whole_ok {r : Reader α} {a : α} (h : r.whole s = .ok a) : r s = .ok (a, []) := by
  unfold whole at h
  split at h
  next => cases h
  next b hrun => exact Except.ok.inj h ▸ hrun
  next => cases h

/-- What leaves the mark of universal time does not read a text with it. -/
theorem KeepsMark.whole {r : Reader α} (h : KeepsMark r) (hmark : 'Z' ∈ s) (a : α) :
    r.whole s ≠ .ok a := by
  intro hwhole
  obtain ⟨taken, rfl, htaken⟩ := h s a [] (whole_ok hwhole)
  rw [List.append_nil] at hmark
  exact htaken hmark

/-- No number begins with anything but a digit. -/
theorem number_signed {c : Char} (hc : c.isDigit = false) {least most n : Nat} (hleast : 0 < least) :
    number least most (c :: s) ≠ .ok (n, rest) := by
  have hnone : ((c :: s).take most).takeWhile Char.isDigit = [] := by
    cases most with
    | zero => rfl
    | succ most => rw [List.take_succ_cons, List.takeWhile_cons_of_neg (by simp [hc])]
  intro h
  unfold number at h
  rw [bind_ok (get_ok _)] at h
  simp only [hnone, List.length_nil, if_pos hleast] at h
  split at h
  next => cases h
  next => cases h

end Reader

/-- Nothing comes of what cannot be read. -/
theorem unread_bind {ε α β : Type} {x : Except ε α} (h : ∀ a, x ≠ .ok a) (f : α → Except ε β) :
    (x >>= f).toOption = none := by
  cases x with
  | error e => rfl
  | ok a => exact absurd rfl (h a)

open Reader in
/-- No timestamp without a distance from universal time is marked as universal. -/
theorem read_naive_marked {middle : Reader Unit} (hmiddle : KeepsMark middle) {s : List Char}
    (hmark : 'Z' ∈ s) : (Instant.readNaive middle s).toOption = none := by
  have hfields : KeepsMark (do
      let d ← looseDate
      middle
      let c ← looseClock
      pure (d, c)) :=
    loose_date_keeps_mark.bind fun _ => hmiddle.bind fun _ =>
      loose_clock_keeps_mark.bind fun _ => .pure _
  exact unread_bind (hfields.whole hmark) _

/-- No date is marked as universal. -/
theorem read_date_marked {s : List Char} (hmark : 'Z' ∈ s) : (Date.read s).toOption = none :=
  unread_bind (Reader.loose_date_keeps_mark.whole hmark) _

/-- A full timestamp begins with a digit. -/
theorem read_strict_signed {c : Char} (hc : c.isDigit = false) (s : List Char) :
    (Instant.readStrict (c :: s)).toOption = none := by
  refine unread_bind (fun a hwhole => ?_) _
  obtain ⟨d, mid, hdate, -⟩ := Reader.bind_inv (Reader.whole_ok hwhole)
  obtain ⟨year, rest, hyear, -⟩ := Reader.bind_inv hdate
  exact Reader.number_signed hc (by decide) hyear

/-- An instant outside the years of four digits is not read from what is written. -/
theorem read_column_signed {t : Instant} (h : ¬ FourDigits t.date.year) :
    Instant.readColumn? t.chars = none := by
  have hmark : 'Z' ∈ t.chars := List.mem_append_right _ List.mem_cons_self
  have hstrict : (Instant.readStrict t.chars).toOption = none := by
    rw [Instant.chars, Date.chars, Date.yearText,
      if_neg (show ¬ (0 ≤ t.date.year ∧ t.date.year ≤ 9999) from h)]
    refine read_strict_signed ?_ _
    split <;> rfl
  rw [Instant.readColumn?, hstrict, read_naive_marked (Reader.char_keeps_mark (by decide)) hmark,
    read_naive_marked Reader.blanks_keep_mark hmark, read_date_marked hmark]
  rfl

/-- What is read from a written instant is the instant, in a year of four digits. -/
theorem read_column_chars_eq {t u : Instant} (h : Instant.readColumn? t.chars = some u) :
    FourDigits t.date.year ∧ u = t := by
  by_cases hyear : FourDigits t.date.year
  · rw [read_column_chars t hyear] at h
    exact ⟨hyear, (Option.some.inj h).symm⟩
  · rw [read_column_signed hyear] at h
    cases h

end CustomerDedupe.Calendar
