import CustomerDedupe.Proofs.Toml.Values

/-!
# Lines and members one after another

The members of an inline table and the lines of a text are read one after another. `run_members`
and `run_read_lines` say what the first of them can be and how reading goes on behind it.
-/

namespace CustomerDedupe.Toml.Reader

/-! ## What is read at a time -/

/-- Reads a key up to its value, and what separates it from the value before. -/
def memberStart : Reader (List String) := do
  skip
  keyStart

/-- Reads a key with its value, and what separates it from the next mark. -/
def member (n depth : Nat) : Reader (List String × Value) := do
  let key ← memberStart
  let v ← value n depth
  skip
  return (key, v)

/-- Reads a line that gives a value to a key. -/
def entryLine : Reader (List String × Value) := do
  let key ← memberStart
  let v ← wholeValue
  lineEnd
  return (key, v)

deriving instance DecidableEq for Header

/-- Reads a line that is a header. -/
def tableLine : Reader Header := do
  skip
  char '['
  headerLine

theorem reads_member_start {m : Nat} : Reads 1 m memberStart memberStart :=
  reads_skip.bind (k := 1) fun _ => reads_key_start

theorem reads_member (n m depth : Nat) : Reads 1 m (member n depth) (member m depth) := by
  refine reads_member_start.bind (k := 0) fun key => Reads.weaken (m := m) ?_ (Nat.le_refl 0)
    (Nat.sub_le m 1)
  exact ((reads_values n m).value depth).bind (k := 0) fun v => reads_skip.bind (k := 0) fun _ =>
    .pure _

theorem reads_entry_line {m : Nat} : Reads 1 m entryLine entryLine :=
  reads_member_start.bind (k := 0) fun _ => reads_whole_value.bind (k := 0) fun _ =>
    reads_line_end.bind (k := 0) fun _ => .pure _

theorem reads_table_line {m : Nat} : Reads 1 m tableLine tableLine :=
  reads_skip.bind (k := 1) fun _ => (reads_char '[').bind (k := 0) fun _ => reads_header_line

/-! ## How members and lines begin -/

/-- A key does not begin with a bracket. -/
theorem key_start_head {s : List Char} {x : List String × List Char}
    (h : keyStart.run s = some x) :
    s ≠ [] ∧ s.head? ≠ some '[' ∧ s.head? ≠ some '\x7d' := by
  have hbracket : ∀ c, c = '[' ∨ c = '\x7d' → s.head? ≠ some c := by
    intro c hc hs
    obtain ⟨rest, rfl⟩ := List.head?_eq_some_iff.1 hs
    have hfail : keyStart.run (c :: rest) = none := by rcases hc with rfl | rfl <;> rfl
    rw [hfail] at h
    cases h
  refine ⟨?_, hbracket '[' (.inl rfl), hbracket '\x7d' (.inr rfl)⟩
  rintro rfl
  have hfail : keyStart.run [] = none := rfl
  rw [hfail] at h
  cases h

theorem start_head {s : List Char} {x : List String × List Char}
    (h : memberStart.run s = some x) :
    ∃ t, skip.run s = some ((), t) ∧ t ≠ [] ∧ t.head? ≠ some '[' ∧ t.head? ≠ some '\x7d' := by
  obtain ⟨key, rest⟩ := x
  obtain ⟨_, t, hskip, hkey⟩ := run_bind_eq_some.1 h
  exact ⟨t, hskip, key_start_head hkey⟩

theorem table_head {s : List Char} {x : Header × List Char} (h : tableLine.run s = some x) :
    ∃ next, skip.run s = some ((), '[' :: next) := by
  obtain ⟨header, rest⟩ := x
  obtain ⟨_, t, hskip, h⟩ := run_bind_eq_some.1 h
  obtain ⟨_, next, hchar, -⟩ := run_bind_eq_some.1 h
  obtain rfl := run_char_eq_some.1 hchar
  exact ⟨next, hskip⟩

theorem start_not_closed {s : List Char} {x : List String × List Char}
    (h : memberStart.run s = some x) (next : List Char) :
    skip.run s ≠ some ((), '\x7d' :: next) := by
  obtain ⟨t, hskip, -, -, hclose⟩ := start_head h
  rw [hskip]
  intro heq
  obtain ⟨-, rfl⟩ := Prod.mk.inj (Option.some.inj heq)
  exact hclose rfl

theorem start_not_end {s : List Char} {x : List String × List Char}
    (h : memberStart.run s = some x) : skip.run s ≠ some ((), []) := by
  obtain ⟨t, hskip, hend, -⟩ := start_head h
  rw [hskip]
  intro heq
  exact hend (Prod.mk.inj (Option.some.inj heq)).2

theorem table_not_end {s : List Char} {x : Header × List Char} (h : tableLine.run s = some x) :
    skip.run s ≠ some ((), []) := by
  obtain ⟨next, hskip⟩ := table_head h
  rw [hskip]
  exact nofun

/-- A line does not begin with a key and a header. -/
theorem start_not_table {s : List Char} {x : List String × List Char}
    (h : memberStart.run s = some x) (y : Header × List Char) : tableLine.run s ≠ some y := by
  intro htable
  obtain ⟨t, hskip, -, hopen, -⟩ := start_head h
  obtain ⟨next, hskip'⟩ := table_head htable
  rw [hskip] at hskip'
  obtain ⟨-, rfl⟩ := Prod.mk.inj (Option.some.inj hskip')
  exact hopen rfl

/-! ## The parts of a member and of a line -/

theorem member_parts {s t : List Char} {key : List String}
    (hkey : memberStart.run s = some (key, t)) {n depth : Nat} {k : List String} {v : Value}
    {rest : List Char} :
    (member n depth).run s = some ((k, v), rest) ↔
      key = k ∧ ∃ mid, (value n depth).run t = some (v, mid) ∧ skip.run mid = some ((), rest) := by
  simp only [member, run_bind_eq_some, run_pure_eq_some, hkey]
  constructor
  · rintro ⟨_, _, hstart, v, mid, hv, _, _, hskip, hpair, rfl⟩
    obtain ⟨rfl, rfl⟩ := Prod.mk.inj (Option.some.inj hstart)
    obtain ⟨rfl, rfl⟩ := Prod.mk.inj hpair
    exact ⟨rfl, mid, hv, hskip⟩
  · rintro ⟨rfl, mid, hv, hskip⟩
    exact ⟨key, t, rfl, v, mid, hv, (), rest, hskip, rfl, rfl⟩

theorem entry_parts {s t : List Char} {key : List String}
    (hkey : memberStart.run s = some (key, t)) {k : List String} {v : Value} {rest : List Char} :
    entryLine.run s = some ((k, v), rest) ↔
      key = k ∧ ∃ mid, wholeValue.run t = some (v, mid) ∧ lineEnd.run mid = some ((), rest) := by
  simp only [entryLine, run_bind_eq_some, run_pure_eq_some, hkey]
  constructor
  · rintro ⟨_, _, hstart, v, mid, hv, _, _, hend, hpair, rfl⟩
    obtain ⟨rfl, rfl⟩ := Prod.mk.inj (Option.some.inj hstart)
    obtain ⟨rfl, rfl⟩ := Prod.mk.inj hpair
    exact ⟨rfl, mid, hv, hend⟩
  · rintro ⟨rfl, mid, hv, hend⟩
    exact ⟨key, t, rfl, v, mid, hv, (), rest, hend, rfl, rfl⟩

/-- A double quote is not skipped. -/
theorem skip_quote {s rest : List Char} (h : skip.run s = some ((), rest))
    (hs : s.head? = some '"') : rest.head? = some '"' := by
  obtain ⟨more, rfl⟩ := List.head?_eq_some_iff.1 hs
  have hstay : skip.run ('"' :: more) = some ((), '"' :: more) := rfl
  rw [hstay] at h
  obtain ⟨-, rfl⟩ := Prod.mk.inj (Option.some.inj h)
  rfl

/-- A line does not end at a double quote. -/
theorem line_end_quote {s rest : List Char} (h : lineEnd.run s = some ((), rest)) :
    s.head? ≠ some '"' := by
  intro hs
  obtain ⟨more, rfl⟩ := List.head?_eq_some_iff.1 hs
  have hfail : lineEnd.run ('"' :: more) = none := rfl
  rw [hfail] at h
  cases h

/-! ## The first member and the first line -/

/-- How an inline table goes on: it ends, or there is a member and then it ends or goes on. -/
theorem run_members {n depth : Nat} {ms ms₁ : Members} {s rest : List Char} :
    (members (n + 1) depth ms).run s = some (ms₁, rest) ↔
      (skip.run s = some ((), '\x7d' :: rest) ∧ ms = ms₁) ∨
      ∃ key v mid ms₂, (member n depth).run s = some ((key, v), mid) ∧
        Members.insert v key .named false ms = some ms₂ ∧
        ((∃ next, mid = ',' :: next ∧ (members n depth ms₂).run next = some (ms₁, rest)) ∨
          mid = '\x7d' :: rest ∧ ms₂ = ms₁) := by
  simp only [members_succ, member, memberStart, ↓run_mark_eq_some, run_bind_eq_some,
    run_lift_eq_some, run_pure_eq_some, run_char_eq_some]
  constructor
  · rintro ⟨_, s₁, hskip, ⟨_, rfl, rfl, rfl⟩ | ⟨-, key, s₂, hkey, v, s₃, hv, ms₂, _,
      ⟨hinsert, rfl⟩, _, s₄, hskip', hmark⟩⟩
    · exact .inl ⟨hskip, rfl⟩
    · refine .inr ⟨key, v, s₄, ms₂, ?_, hinsert, ?_⟩
      · exact ⟨key, s₂, ⟨_, s₁, hskip, hkey⟩, v, s₃, hv, _, s₄, hskip', rfl, rfl⟩
      · rcases hmark with hmore | ⟨-, _, _, rfl, rfl, rfl⟩
        · exact .inl hmore
        · exact .inr ⟨rfl, rfl⟩
  · rintro (⟨hskip, rfl⟩ | ⟨key, v, mid, ms₂, ⟨_, s₂, ⟨_, s₁, hskip, hkey⟩, _, s₃, hv, _, s₄,
      hskip', hpair, rfl⟩, hinsert, hmark⟩)
    · exact ⟨(), _, hskip, .inl ⟨_, rfl, rfl, rfl⟩⟩
    · obtain ⟨rfl, rfl⟩ := Prod.mk.inj hpair
      obtain ⟨-, -, hclose⟩ := key_start_head hkey
      refine ⟨(), s₁, hskip, .inr ⟨hclose, _, s₂, hkey, _, s₃, hv, ms₂, s₃, ⟨hinsert, rfl⟩, (), s₄,
        hskip', ?_⟩⟩
      rcases hmark with hmore | ⟨rfl, rfl⟩
      · exact .inl hmore
      · exact .inr ⟨by simp, (), _, rfl, rfl, rfl⟩

theorem read_lines_succ (n : Nat) (current : Option Header) (ms : Members) :
    readLines (n + 1) current ms = (do
      skip
      if ← atEnd then return ms
      else
        if ← atChar '[' then
          char '['
          let h ← headerLine
          let ms ← Members.atHeader (if h.several then enterTables else enterTable) h.path ms
          readLines n (some h) ms
        else
          let (path, v) ← assignment
          lineEnd
          let ms ← assign current path v ms
          readLines n current ms) := by
  rw [readLines]
  simp only [skip, headerLine, bind_assoc, pure_bind]
  congr 1
  funext s
  congr 1
  funext _ s
  rcases s with _ | ⟨c, rest⟩
  · rfl
  by_cases hc : c = '['
  · subst hc
    rfl
  · show StateT.run _ _ = StateT.run _ _
    have hend : atEnd.run (c :: rest) = some (false, c :: rest) := rfl
    have hmark : (atChar '[').run (c :: rest) = some (false, c :: rest) := by
      show some (some c == some '[', _) = _
      simp [hc]
    simp only [StateT.run_bind, StateT.run_get, pure_bind, hend, hmark, Option.bind_eq_bind,
      Option.bind_some, Bool.false_eq_true, if_false]
    split
    · exact absurd (by assumption) (List.cons_ne_nil _ _)
    · exact absurd (List.cons.inj (by assumption)).1 hc
    · rfl

/-- How a text goes on: it ends, or there is a header or an entry and then more lines. -/
theorem run_read_lines {n : Nat} {current : Option Header} {ms ms₁ : Members}
    {s rest : List Char} :
    (readLines (n + 1) current ms).run s = some (ms₁, rest) ↔
      (skip.run s = some ((), []) ∧ rest = [] ∧ ms = ms₁) ∨
      (∃ h next ms₂, tableLine.run s = some (h, next) ∧
        Members.atHeader (if h.several then enterTables else enterTable) h.path ms = some ms₂ ∧
        (readLines n (some h) ms₂).run next = some (ms₁, rest)) ∨
      ∃ key v next ms₂, entryLine.run s = some ((key, v), next) ∧
        assign current key v ms = some ms₂ ∧
        (readLines n current ms₂).run next = some (ms₁, rest) := by
  simp only [read_lines_succ, tableLine, entryLine, memberStart, assignment_eq,
    ↓run_at_end_eq_some, ↓run_mark_eq_some, run_bind_eq_some, run_lift_eq_some, run_pure_eq_some,
    run_char_eq_some]
  constructor
  · rintro ⟨_, s₁, hskip, ⟨rfl, rfl, rfl⟩ | ⟨hmore, ⟨s₂, rfl, h, s₃, hheader, ms₂, _,
      ⟨henter, rfl⟩, hlines⟩ | ⟨hhead, e, s₂, ⟨key, s₃, hkey, v, s₄, hv, rfl, rfl⟩, _, s₅, hend,
      ms₂, _, ⟨hassign, rfl⟩, hlines⟩⟩⟩
    · exact .inl ⟨hskip, rfl, rfl⟩
    · exact .inr (.inl ⟨h, s₃, ms₂, ⟨_, _, hskip, (), s₂, rfl, hheader⟩, henter, hlines⟩)
    · exact .inr (.inr ⟨key, v, s₅, ms₂, ⟨key, s₃, ⟨_, s₁, hskip, hkey⟩, v, s₄, hv, _, s₅, hend,
        rfl, rfl⟩, hassign, hlines⟩)
  · rintro (⟨hskip, rfl, rfl⟩ | ⟨h, s₃, ms₂, ⟨_, _, hskip, _, s₂, rfl, hheader⟩, henter, hlines⟩ |
      ⟨key, v, s₅, ms₂, ⟨_, s₃, ⟨_, s₁, hskip, hkey⟩, _, s₄, hv, _, _, hend, hpair, rfl⟩,
        hassign, hlines⟩)
    · exact ⟨(), [], hskip, .inl ⟨rfl, rfl, rfl⟩⟩
    · exact ⟨(), _, hskip, .inr ⟨List.cons_ne_nil _ _, .inl ⟨s₂, rfl, h, s₃, hheader, ms₂, s₃,
        ⟨henter, rfl⟩, hlines⟩⟩⟩
    · obtain ⟨rfl, rfl⟩ := Prod.mk.inj hpair
      obtain ⟨hmore, hopen, -⟩ := key_start_head hkey
      exact ⟨(), s₁, hskip, .inr ⟨hmore, .inr ⟨hopen, (_, _), s₄, ⟨_, s₃, hkey, _, s₄, hv, rfl,
        rfl⟩, (), _, hend, ms₂, _, ⟨hassign, rfl⟩, hlines⟩⟩⟩

end CustomerDedupe.Toml.Reader
