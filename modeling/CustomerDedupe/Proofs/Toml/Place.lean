import CustomerDedupe.Proofs.Toml.Differing
import CustomerDedupe.Proofs.Toml.Lines

/-!
# Strings at places of a text

Where in a text the value of a key is written is told by how the text is read: `Leads` says that
the reader of a text comes, after some characters, to the value at a path. If a string within
double quotes stands there, it can be exchanged for another one whose characters stand for
themselves, and what is read differs at that path alone (`read_exchanged`).
-/

namespace CustomerDedupe.Toml

/-- Characters that stand for themselves within double quotes. -/
def Verbatim (s : List Char) : Prop :=
  ∀ c ∈ s, c ≠ '"' ∧ c ≠ '\\' ∧ Reader.isControl c = false

instance (s : List Char) : Decidable (Verbatim s) :=
  List.decidableBAll (fun c => c ≠ '"' ∧ c ≠ '\\' ∧ Reader.isControl c = false) s

/-- A string within double quotes and what follows it. -/
def quoted (s rest : List Char) : List Char :=
  '"' :: (s ++ '"' :: rest)

namespace Reader

variable {α : Type}

/-! ## Strings whose characters stand for themselves -/

theorem run_basic_body_verbatim {s : List Char} (h : Verbatim s) (rest : List Char) {n : Nat}
    (hn : s.length < n) (done : List Char) :
    (basicBody n done).run (s ++ '"' :: rest) =
      some (String.ofList (done.reverse ++ s), rest) := by
  induction s generalizing n done with
  | nil =>
      obtain ⟨n, rfl⟩ := Nat.exists_eq_succ_of_ne_zero (Nat.ne_of_gt hn)
      rw [List.nil_append, run_basic_body_cons, basicNext, if_pos rfl, List.append_nil]
      rfl
  | cons c s ih =>
      obtain ⟨n, rfl⟩ := Nat.exists_eq_succ_of_ne_zero (Nat.ne_of_gt (Nat.zero_lt_of_lt hn))
      obtain ⟨hquote, hslash, hcontrol⟩ := h c List.mem_cons_self
      rw [List.cons_append, run_basic_body_cons, basicNext, if_neg hquote, if_neg hslash, hcontrol,
        if_neg Bool.false_ne_true,
        ih (fun d hd => h d (List.mem_cons_of_mem _ hd)) (Nat.lt_of_succ_lt_succ hn)]
      simp

theorem run_string_quoted {s rest : List Char} (h : Verbatim s)
    (hempty : s = [] → rest.head? ≠ some '"') :
    string.run (quoted s rest) = some (String.ofList s, rest) := by
  have hdouble : ['"', '"', '"'].isPrefixOf (quoted s rest) = false := by
    rcases s with _ | ⟨c, s⟩
    · rcases rest with _ | ⟨d, rest⟩
      · rfl
      · have hd : ('"' == d) = false := beq_false_of_ne fun hd => hempty rfl (by rw [hd]; rfl)
        simp [quoted, List.isPrefixOf, hd]
    · have hc : ('"' == c) = false := beq_false_of_ne (h c List.mem_cons_self).1.symm
      simp [quoted, List.isPrefixOf, hc]
  have hsingle : ['\'', '\'', '\''].isPrefixOf (quoted s rest) = false := rfl
  have hlength : s.length < (s ++ '"' :: rest).length + 1 := by
    rw [List.length_append]
    omega
  rw [run_string, hdouble, hsingle, if_neg Bool.false_ne_true, if_neg Bool.false_ne_true, quoted,
    run_short_string_cons, shortNext, if_pos rfl]
  exact run_basic_body_verbatim h rest hlength []

/-! ## Reading on with tables that differ -/

variable {x y : Value} {path : List String}

/-- Members that are read into tables which differ at a place. -/
theorem members_differing {n m depth : Nat} {ms ms' ms₁ : Members} {s rest : List Char}
    (h : Members.Differ x y path ms ms') (hr : (members n depth ms).run s = some (ms₁, rest))
    (hlt : s.length < m) :
    ∃ ms₂, (members m depth ms').run s = some (ms₂, rest) ∧ Members.Differ x y path ms₁ ms₂ := by
  induction n generalizing m ms ms' s with
  | zero => cases hr
  | succ n ih =>
      obtain ⟨m, rfl⟩ := Nat.exists_eq_succ_of_ne_zero (Nat.ne_of_gt (Nat.zero_lt_of_lt hlt))
      rcases run_members.1 hr with ⟨hskip, rfl⟩ | ⟨key, v, mid, ms₂, hmember, hinsert, hmark⟩
      · exact ⟨ms', run_members.2 (.inl ⟨hskip, rfl⟩), h⟩
      obtain ⟨ms₃, hinsert', h₃⟩ :=
        rel_some (Members.insert_differing h v key .named false) hinsert
      have hstep : 0 < mid.length → (member m depth).run s = some ((key, v), mid) := by
        intro hmid
        obtain ⟨c, rfl, -⟩ := (reads_member n 0 depth).takes hmember
        rw [List.length_append] at hlt
        exact (reads_member n m depth).follows (.refl mid) (by omega) hmember
      rcases hmark with ⟨next, rfl, hmore⟩ | ⟨rfl, rfl⟩
      · obtain ⟨c, rfl, hc⟩ := (reads_member n 0 depth).takes hmember
        rw [List.length_append, List.length_cons] at hlt
        obtain ⟨ms₄, hmore', h₄⟩ := ih h₃ hmore (m := m) (by omega)
        exact ⟨ms₄, run_members.2 (.inr ⟨key, v, _, ms₃, hstep (Nat.zero_lt_succ _), hinsert',
          .inl ⟨next, rfl, hmore'⟩⟩), h₄⟩
      · exact ⟨ms₃, run_members.2 (.inr ⟨key, v, _, ms₃, hstep (Nat.zero_lt_succ _), hinsert',
          .inr ⟨rfl, rfl⟩⟩), h₃⟩

/-- Lines that are read into tables which differ at a place. -/
theorem read_lines_differing {n m : Nat} {current : Option Header} {ms ms' ms₁ : Members}
    {s rest : List Char} (h : Members.Differ x y path ms ms')
    (hr : (readLines n current ms).run s = some (ms₁, rest)) (hlt : s.length < m) :
    ∃ ms₂, (readLines m current ms').run s = some (ms₂, rest) ∧
      Members.Differ x y path ms₁ ms₂ := by
  induction n generalizing m current ms ms' s with
  | zero => cases hr
  | succ n ih =>
      obtain ⟨m, rfl⟩ := Nat.exists_eq_succ_of_ne_zero (Nat.ne_of_gt (Nat.zero_lt_of_lt hlt))
      rcases run_read_lines.1 hr with ⟨hskip, rfl, rfl⟩ |
        ⟨header, next, ms₂, htable, henter, hmore⟩ | ⟨key, v, next, ms₂, hentry, hassign, hmore⟩
      · exact ⟨ms', run_read_lines.2 (.inl ⟨hskip, rfl, rfl⟩), h⟩
      · obtain ⟨ms₃, henter', h₃⟩ := rel_some (enter_differing h header) henter
        obtain ⟨c, rfl, hc⟩ := (reads_table_line (m := 0)).takes htable
        rw [List.length_append] at hlt
        obtain ⟨ms₄, hmore', h₄⟩ := ih h₃ hmore (m := m) (by omega)
        exact ⟨ms₄, run_read_lines.2 (.inr (.inl ⟨header, next, ms₃, htable, henter', hmore'⟩)), h₄⟩
      · obtain ⟨ms₃, hassign', h₃⟩ := rel_some (assign_differing h current key v) hassign
        obtain ⟨c, rfl, hc⟩ := (reads_entry_line (m := 0)).takes hentry
        rw [List.length_append] at hlt
        obtain ⟨ms₄, hmore', h₄⟩ := ih h₃ hmore (m := m) (by omega)
        exact ⟨ms₄, run_read_lines.2 (.inr (.inr ⟨key, v, next, ms₃, hentry, hassign', hmore'⟩)),
          h₄⟩

/-! ## The way to a place -/

/-- What a reader is about to read: a value, the members of an inline table that are left, or the
lines that are left under a header. -/
inductive Stage where
  | value (depth : Nat)
  | members (depth : Nat)
  | lines (current : Option Header)

/-- The reader of some characters, with the text `t` behind them, comes to `t` when it is about to
read the value at a path. -/
inductive Leads (t : List Char) : Stage → List String → List Char → Prop
  /-- The value begins here. -/
  | here {depth : Nat} : Leads t (.value depth) [] []
  /-- The value is in the inline table that begins here. -/
  | table {depth : Nat} {path : List String} {q : List Char}
      (h : Leads t (.members depth) path q) : Leads t (.value (depth + 1)) path ('\x7b' :: q)
  /-- The value is in that of the member which begins here. -/
  | member {depth : Nat} {key path : List String} {p q : List Char}
      (hkey : memberStart.run (p ++ t) = some (key, q ++ t)) (h : Leads t (.value depth) path q) :
      Leads t (.members depth) (key ++ path) p
  /-- The value is behind the member that begins here. -/
  | nextMember {n depth : Nat} {path : List String} {p q : List Char} {e : List String × Value}
      (hmember : (Reader.member n depth).run (p ++ t) = some (e, ',' :: q ++ t))
      (h : Leads t (.members depth) path q) : Leads t (.members depth) path p
  /-- The value is in that of the entry which begins here. -/
  | entry {current : Option Header} {key path : List String} {p q : List Char}
      (hkey : memberStart.run (p ++ t) = some (key, q ++ t))
      (h : Leads t (.value maxDepth) path q) :
      Leads t (.lines current) (headerPath current ++ (key ++ path)) p
  /-- The value is behind the entry that begins here. -/
  | nextEntry {current : Option Header} {path : List String} {p q : List Char}
      {e : List String × Value} (hentry : entryLine.run (p ++ t) = some (e, q ++ t))
      (h : Leads t (.lines current) path q) : Leads t (.lines current) path p
  /-- The value is behind the header that begins here. -/
  | nextTable {current : Option Header} {header : Header} {path : List String} {p q : List Char}
      (htable : tableLine.run (p ++ t) = some (header, q ++ t))
      (h : Leads t (.lines (some header)) path q) : Leads t (.lines current) path p

/-- What is read at a stage before the one text is read before the other one as well, and differs
at a path alone. -/
def Exchanges (x y : Value) (t t' : List Char) : Stage → List String → List Char → Prop
  | .value depth, path, p => ∀ {n m v s}, (value n depth).run (p ++ t) = some (v, s) →
      s.head? ≠ some '"' → (p ++ t').length < m →
      ∃ w, (value m depth).run (p ++ t') = some (w, s) ∧ Value.Differ x y path v w
  | .members depth, path, p => ∀ {n m ms ms₁ s},
      (members n depth ms).run (p ++ t) = some (ms₁, s) → (p ++ t').length < m →
      ∃ ms₂, (members m depth ms).run (p ++ t') = some (ms₂, s) ∧ Members.Differ x y path ms₁ ms₂
  | .lines current, path, p => ∀ {n m ms ms₁ s},
      (readLines n current ms).run (p ++ t) = some (ms₁, s) → (p ++ t').length < m →
      ∃ ms₂, (readLines m current ms).run (p ++ t') = some (ms₂, s) ∧
        Members.Differ x y path ms₁ ms₂

/-! ## Exchanging a string -/

section Exchange

variable {t t' : List Char} {depth : Nat} {key : List String} {p q : List Char}

theorem exchanges_here {a b rest : List Char} (ha : Verbatim a) (hne : a ≠ []) (hb : Verbatim b) :
    Exchanges (.str (String.ofList a)) (.str (String.ofList b)) (quoted a rest) (quoted b rest)
      (.value depth) [] [] := by
  intro n m v s hr hs hlt
  rcases n with _ | n
  · cases hr
  rcases m with _ | m
  · cases hlt
  have hread : ∀ k c, string.run (quoted c rest) = some (String.ofList c, rest) →
      (value (k + 1) depth).run (quoted c rest) = some (.str (String.ofList c), rest) := by
    intro k c hc
    rw [run_value]
    exact run_bind_eq_some.2 ⟨_, rest, hc, rfl⟩
  rw [List.nil_append, hread n a (run_string_quoted ha fun h => absurd h hne)] at hr
  obtain ⟨rfl, rfl⟩ := Prod.mk.inj (Option.some.inj hr)
  exact ⟨_, hread m b (run_string_quoted hb fun _ => hs), rfl, rfl⟩

theorem exchanges_table (ih : Exchanges x y t t' (.members depth) path q) :
    Exchanges x y t t' (.value (depth + 1)) path ('\x7b' :: q) := by
  intro n m v s hr hs hlt
  rcases n with _ | n
  · cases hr
  rcases m with _ | m
  · cases hlt
  have hopen : ∀ k u, (value (k + 1) (depth + 1)).run ('\x7b' :: u) =
      StateT.run (do return .table (finishMembers (← members k depth []))) u := by
    intro k u
    rw [run_value, List.head?_cons, valueAt, run_opened, if_neg (Nat.succ_ne_zero depth)]
    rfl
  rw [List.cons_append, hopen] at hr
  obtain ⟨ms₁, s₁, hmembers, hpure⟩ := run_bind_eq_some.1 hr
  obtain ⟨rfl, rfl⟩ := Prod.mk.inj (Option.some.inj hpure)
  obtain ⟨ms₂, hmembers', h⟩ := ih hmembers (Nat.lt_of_succ_lt_succ hlt)
  refine ⟨.table (finishMembers ms₂), ?_, ?_⟩
  · rw [List.cons_append, hopen]
    exact run_bind_eq_some.2 ⟨ms₂, s₁, hmembers', rfl⟩
  · have hnode : Node.Differ x y path (.table .named ms₁) (.table .named ms₂) := .table h
    exact Node.finish_differing hnode

/-- A value that is exchanged in a member is exchanged where the key leads. -/
theorem exchanges_member (halike : Alike t t')
    (hkey : memberStart.run (p ++ t) = some (key, q ++ t))
    (ih : Exchanges x y t t' (.value depth) path q) :
    Exchanges x y t t' (.members depth) (key ++ path) p := by
  intro n m ms ms₁ s hr hlt
  rcases n with _ | n
  · cases hr
  rcases m with _ | m
  · cases hlt
  rcases run_members.1 hr with ⟨hskip, -⟩ | ⟨key', v, mid, ms₂, hmember, hinsert, hmark⟩
  · exact absurd hskip (start_not_closed hkey s)
  obtain ⟨rfl, s₂, hv, hskip⟩ := (member_parts hkey).1 hmember
  -- what follows the value is no quote
  have hquote : s₂.head? ≠ some '"' := by
    intro h
    have hmid := skip_quote hskip h
    rcases hmark with ⟨_, rfl, -⟩ | ⟨rfl, -⟩ <;> cases hmid
  obtain ⟨hkey₂, hshort⟩ := Reads.comes_on (fun _ => reads_member_start) halike hkey
  rw [List.length_append] at hlt
  obtain ⟨w, hw, hdiffer⟩ := ih hv hquote (m := m) (by rw [List.length_append]; omega)
  obtain ⟨ms₃, hinsert₃, h₃⟩ :=
    rel_some (Members.insert_value hdiffer key .named false ms) hinsert
  have hmember₂ := (member_parts hkey₂).2 ⟨rfl, s₂, hw, hskip⟩
  rcases hmark with ⟨next, rfl, hmore⟩ | ⟨rfl, rfl⟩
  · obtain ⟨c₁, hc₁, -⟩ := (reads_member m 0 depth).takes hmember₂
    have hlength := congrArg List.length hc₁
    rw [List.length_append, List.length_append, List.length_cons] at hlength
    obtain ⟨ms₄, hmore₄, h₄⟩ := members_differing h₃ hmore (m := m) (by omega)
    exact ⟨ms₄, run_members.2 (.inr ⟨key, w, _, ms₃, hmember₂, hinsert₃, .inl ⟨next, rfl, hmore₄⟩⟩),
      h₄⟩
  · exact ⟨ms₃, run_members.2 (.inr ⟨key, w, _, ms₃, hmember₂, hinsert₃, .inr ⟨rfl, rfl⟩⟩), h₃⟩

/-- What is exchanged behind a member is exchanged with the member before it. -/
theorem exchanges_next_member (halike : Alike t t') {n : Nat} {e : List String × Value}
    (hmember : (member n depth).run (p ++ t) = some (e, ',' :: q ++ t))
    (ih : Exchanges x y t t' (.members depth) path q) :
    Exchanges x y t t' (.members depth) path p := by
  intro n' m ms ms₁ s hr hlt
  rcases n' with _ | n'
  · cases hr
  rcases m with _ | m
  · cases hlt
  obtain ⟨_, s₂, hkey, -⟩ := run_bind_eq_some.1 hmember
  rcases run_members.1 hr with ⟨hskip, -⟩ | ⟨key, v, mid, ms₂, hmember', hinsert, hmark⟩
  · exact absurd hskip (start_not_closed hkey s)
  obtain ⟨rfl, rfl⟩ :=
    Prod.mk.inj (Reads.agree (fun n m => reads_member n m depth) hmember hmember')
  rcases hmark with ⟨next, hnext, hmore⟩ | ⟨hnext, -⟩
  · obtain ⟨-, rfl⟩ := List.cons.inj hnext
    rw [List.length_append] at hlt
    obtain ⟨hmember₂, hshort⟩ := (reads_member n m depth).comes (q := ',' :: q) halike
      (by rw [List.length_cons]; omega) hmember
    rw [List.length_cons] at hshort
    obtain ⟨ms₃, hmore₃, h₃⟩ := ih hmore (m := m) (by rw [List.length_append]; omega)
    exact ⟨ms₃, run_members.2 (.inr ⟨key, v, _, ms₂, hmember₂, hinsert, .inl ⟨_, rfl, hmore₃⟩⟩),
      h₃⟩
  · cases (List.cons.inj hnext).1

/-- A value that is exchanged in an entry is exchanged where header and key lead. -/
theorem exchanges_entry (halike : Alike t t') {current : Option Header}
    (hkey : memberStart.run (p ++ t) = some (key, q ++ t))
    (ih : Exchanges x y t t' (.value maxDepth) path q) :
    Exchanges x y t t' (.lines current) (headerPath current ++ (key ++ path)) p := by
  intro n m ms ms₁ s hr hlt
  rcases n with _ | n
  · cases hr
  rcases m with _ | m
  · cases hlt
  rcases run_read_lines.1 hr with ⟨hskip, -⟩ | ⟨header, next, ms₂, htable, -⟩ |
    ⟨key', v, next, ms₂, hentry, hassign, hmore⟩
  · exact absurd hskip (start_not_end hkey)
  · exact absurd htable (start_not_table hkey _)
  obtain ⟨rfl, s₂, hv, hend⟩ := (entry_parts hkey).1 hentry
  obtain ⟨hkey₂, -⟩ := Reads.comes_on (fun _ => reads_member_start) halike hkey
  obtain ⟨w, hw, hdiffer⟩ :=
    ih (n := (q ++ t).length + 1) hv (line_end_quote hend) (Nat.lt_succ_self _)
  obtain ⟨ms₃, hassign₃, h₃⟩ := rel_some (assign_value hdiffer current key ms) hassign
  have hentry₂ := (entry_parts hkey₂).2 ⟨rfl, s₂, hw, hend⟩
  obtain ⟨c₁, hc₁, hpos⟩ := (reads_entry_line (m := 0)).takes hentry₂
  rw [hc₁, List.length_append] at hlt
  obtain ⟨ms₄, hmore₄, h₄⟩ := read_lines_differing h₃ hmore (m := m) (by omega)
  exact ⟨ms₄, run_read_lines.2 (.inr (.inr ⟨key, w, next, ms₃, hentry₂, hassign₃, hmore₄⟩)), h₄⟩

/-- What is exchanged behind an entry is exchanged with the entry before it. -/
theorem exchanges_next_entry (halike : Alike t t') {current : Option Header}
    {e : List String × Value} (hentry : entryLine.run (p ++ t) = some (e, q ++ t))
    (ih : Exchanges x y t t' (.lines current) path q) :
    Exchanges x y t t' (.lines current) path p := by
  intro n m ms ms₁ s hr hlt
  rcases n with _ | n
  · cases hr
  rcases m with _ | m
  · cases hlt
  obtain ⟨_, s₂, hkey, -⟩ := run_bind_eq_some.1 hentry
  rcases run_read_lines.1 hr with ⟨hskip, -⟩ | ⟨header, next, ms₂, htable, -⟩ |
    ⟨key, v, next, ms₂, hentry', hassign, hmore⟩
  · exact absurd hskip (start_not_end hkey)
  · exact absurd htable (start_not_table hkey _)
  rw [hentry] at hentry'
  obtain ⟨rfl, rfl⟩ := Prod.mk.inj (Option.some.inj hentry')
  obtain ⟨hentry₂, hshort⟩ := Reads.comes_on (fun _ => reads_entry_line) halike hentry
  rw [List.length_append] at hlt
  obtain ⟨ms₃, hmore₃, h₃⟩ := ih hmore (m := m) (by rw [List.length_append]; omega)
  exact ⟨ms₃, run_read_lines.2 (.inr (.inr ⟨key, v, _, ms₂, hentry₂, hassign, hmore₃⟩)), h₃⟩

/-- What is exchanged behind a header is exchanged with the header before it. -/
theorem exchanges_next_table (halike : Alike t t') {current : Option Header} {header : Header}
    (htable : tableLine.run (p ++ t) = some (header, q ++ t))
    (ih : Exchanges x y t t' (.lines (some header)) path q) :
    Exchanges x y t t' (.lines current) path p := by
  intro n m ms ms₁ s hr hlt
  rcases n with _ | n
  · cases hr
  rcases m with _ | m
  · cases hlt
  rcases run_read_lines.1 hr with ⟨hskip, -⟩ | ⟨header', next, ms₂, htable', henter, hmore⟩ |
    ⟨key, v, next, ms₂, hentry, -⟩
  · exact absurd hskip (table_not_end htable)
  · rw [htable] at htable'
    obtain ⟨rfl, rfl⟩ := Prod.mk.inj (Option.some.inj htable')
    obtain ⟨htable₂, hshort⟩ := Reads.comes_on (fun _ => reads_table_line) halike htable
    rw [List.length_append] at hlt
    obtain ⟨ms₃, hmore₃, h₃⟩ := ih hmore (m := m) (by rw [List.length_append]; omega)
    exact ⟨ms₃, run_read_lines.2 (.inr (.inl ⟨header, _, ms₂, htable₂, henter, hmore₃⟩)), h₃⟩
  · obtain ⟨_, s₂, hkey, -⟩ := run_bind_eq_some.1 hentry
    exact absurd htable (start_not_table hkey _)

end Exchange

/-- Where the reader of a text comes to a string, the string can be exchanged. -/
theorem Leads.exchanges {a b rest : List Char} (ha : Verbatim a) (hne : a ≠ []) (hb : Verbatim b)
    {stage : Stage} {p : List Char} (h : Leads (quoted a rest) stage path p) :
    Exchanges (.str (String.ofList a)) (.str (String.ofList b)) (quoted a rest) (quoted b rest)
      stage path p := by
  have halike : Alike (quoted a rest) (quoted b rest) := .quote _ _
  induction h with
  | here => exact exchanges_here ha hne hb
  | table _ ih => exact exchanges_table ih
  | member hkey _ ih => exact exchanges_member halike hkey ih
  | nextMember hmember _ ih => exact exchanges_next_member halike hmember ih
  | entry hkey _ ih => exact exchanges_entry halike hkey ih
  | nextEntry hentry _ ih => exact exchanges_next_entry halike hentry ih
  | nextTable htable _ ih => exact exchanges_next_table halike htable ih

end Reader

/-- In the text that some characters and what follows them make, the value at a path is written
where they end. -/
def WrittenAt (path : List String) (before text : List Char) : Prop :=
  Reader.Leads text (.lines none) path (withoutMark before)

theorem without_mark_append (before s rest : List Char) :
    withoutMark (before ++ quoted s rest) = withoutMark before ++ quoted s rest := by
  rcases before with _ | ⟨c, before⟩
  · rfl
  by_cases hc : c = '\uFEFF'
  · subst hc
    rfl
  · have hkeep : ∀ u, withoutMark (c :: u) = c :: u := by
      intro u
      unfold withoutMark
      split
      · exact absurd (List.cons.inj (by assumption)).1 hc
      · rfl
    rw [List.cons_append, hkeep, hkeep, List.cons_append]

/-- A string in a text is exchanged for another one whose characters stand for themselves: what
is read differs only where the string is written. -/
theorem read_exchanged {a b before rest : List Char} {path : List String} (ha : Verbatim a)
    (hne : a ≠ []) (hb : Verbatim b) (hplace : WrittenAt path before (quoted a rest)) {v : Value}
    (hread : read? (String.ofList (before ++ quoted a rest)) = some v) :
    ∃ w, read? (String.ofList (before ++ quoted b rest)) = some w ∧
      Value.Differ (.str (String.ofList a)) (.str (String.ofList b)) path v w := by
  simp only [read?, String.toList_ofList, without_mark_append, Option.bind_eq_bind,
    Option.bind_eq_some_iff] at hread ⊢
  obtain ⟨⟨ms, s⟩, hrun, hv⟩ := hread
  obtain rfl := Option.some.inj hv
  obtain ⟨ms₂, hrun₂, hms⟩ := hplace.exchanges ha hne hb hrun (Nat.lt_succ_self _)
  have hnode : Node.Differ _ _ path (.table .named ms) (.table .named ms₂) := .table hms
  exact ⟨_, ⟨(ms₂, s), hrun₂, rfl⟩, Node.finish_differing hnode⟩

end CustomerDedupe.Toml
