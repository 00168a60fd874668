import CustomerDedupe.Proofs.Toml.Words

/-!
# What the readers of values look at

Values with and without brackets and the lines of a configuration text are read without a look
behind the next double quote, and the number of steps that a reader is allowed does not matter as
long as it is more than what is taken (`reads_values`, `reads_header_line`).
-/

namespace CustomerDedupe.Toml.Reader

variable {α : Type}

theorem reads_lift (o : Option α) {m : Nat} : Reads 0 m (liftM o : Reader α) (liftM o) := by
  cases o with
  | none => exact .failure
  | some a => exact .pure a

/-- Reads a key up to its value. -/
def keyStart : Reader (List String) := do
  let path ← wholeKey
  char '='
  blanks
  return path

theorem reads_key_start {m : Nat} : Reads 1 m keyStart keyStart := by
  refine reads_whole_key.bind (k := 1) fun path => (reads_char '=').bind (k := 0) fun _ =>
    reads_blanks.bind (k := 0) fun _ => .pure _

/-! ## Arrays and inline tables -/

/-- Reads an array or an inline table after its opening bracket. -/
def opened (c : Char) (depth : Nat) (rest : Reader Value) : Reader Value := do
  char c
  if depth = 0 then Alternative.failure else rest

theorem reads_opened (c : Char) (depth : Nat) {l m : Nat} {r r' : Reader Value}
    (h : Reads l m r r') : Reads l (m + 1) (opened c depth r) (opened c depth r') := by
  refine ((reads_char c).bind (k := l) fun _ => ?_).weaken (Nat.le_add_left _ _) (Nat.le_refl _)
  split
  · exact .failure
  · exact h

theorem run_opened (c : Char) (depth : Nat) (r : Reader Value) (rest : List Char) :
    (opened c depth r).run (c :: rest) = if depth = 0 then none else r.run rest := by
  rw [opened, StateT.run_bind, run_char]
  simp only [Option.bind_eq_bind, Option.bind_some]
  split <;> rfl

/-- Reads a value that begins with a character. -/
def valueAt (n depth : Nat) : Option Char → Reader Value
  | some '"' | some '\'' => do return .str (← string)
  | some '[' => opened '[' depth do return .arr (← items n (depth - 1))
  | some '\x7b' => opened '\x7b' depth do
      return .table (finishMembers (← members n (depth - 1) []))
  | _ => word

theorem run_value (n depth : Nat) (s : List Char) :
    (value (n + 1) depth).run s = (valueAt n depth s.head?).run s := by
  rw [value]
  simp only [StateT.run_bind, StateT.run_get, pure_bind]
  split
  · rfl
  · rfl
  · rw [List.head?_cons, valueAt, run_opened]
    split <;> rfl
  · rw [List.head?_cons, valueAt, run_opened]
    split <;> rfl
  · rename_i hdouble hsingle hbracket hbrace
    have hword : valueAt n depth s.head? = word := by
      unfold valueAt
      split
      · rename_i hs
        obtain ⟨rest, rfl⟩ := List.head?_eq_some_iff.1 hs
        exact absurd rfl (hdouble rest)
      · rename_i hs
        obtain ⟨rest, rfl⟩ := List.head?_eq_some_iff.1 hs
        exact absurd rfl (hsingle rest)
      · rename_i hs
        obtain ⟨rest, rfl⟩ := List.head?_eq_some_iff.1 hs
        exact absurd rfl (hbracket rest)
      · rename_i hs
        obtain ⟨rest, rfl⟩ := List.head?_eq_some_iff.1 hs
        exact absurd rfl (hbrace rest)
      · rfl
    rw [hword]

theorem items_succ (n depth : Nat) : items (n + 1) depth = (do
    skip
    if ← atChar ']' then
      char ']'
      return []
    else
      let v ← value n depth
      skip
      if ← atChar ',' then
        char ','
        return v :: (← items n depth)
      else
        char ']'
        return [v]) := by
  rw [items]
  rfl

theorem members_succ (n depth : Nat) (ms : Members) : members (n + 1) depth ms = (do
    skip
    if ← atChar '\x7d' then
      char '\x7d'
      return ms
    else
      let path ← keyStart
      let v ← value n depth
      let ms ← Members.insert v path .named false ms
      skip
      if ← atChar ',' then
        char ','
        members n depth ms
      else
        char '\x7d'
        return ms) := by
  rw [members]
  simp only [skip, keyStart, wholeKey, bind_assoc, pure_bind]

/-- Readers of the values, items and members that `n` and `m` steps allow read the same. -/
structure ReadsValues (n m : Nat) : Prop where
  value : ∀ depth, Reads 0 m (value n depth) (value m depth)
  items : ∀ depth, Reads 1 m (items n depth) (items m depth)
  members : ∀ depth ms, Reads 1 m (members n depth ms) (members m depth ms)

theorem ReadsValues.succ {n m : Nat} (h : ReadsValues n m) : ReadsValues (n + 1) (m + 1) where
  value depth := by
    refine .of_head fun o => ⟨valueAt n depth o, valueAt m depth o, ?_,
      fun s hs => hs ▸ run_value n depth s, fun s hs => hs ▸ run_value m depth s⟩
    unfold valueAt
    split
    · exact (reads_string.bind (k := 0) fun _ => .pure _).weaken (Nat.zero_le _) (Nat.le_refl _)
    · exact (reads_string.bind (k := 0) fun _ => .pure _).weaken (Nat.zero_le _) (Nat.le_refl _)
    · exact reads_opened '[' depth ((h.items _).bind (k := 0) fun _ => .pure _) |>.weaken
        (Nat.zero_le _) (Nat.le_refl _)
    · exact reads_opened '\x7b' depth ((h.members _ _).bind (k := 0) fun _ => .pure _) |>.weaken
        (Nat.zero_le _) (Nat.le_refl _)
    · exact reads_word
  items depth := by
    rw [items_succ, items_succ]
    refine reads_skip.bind (k := 1) fun _ => (reads_at_char ']').bind (k := 1) fun close => ?_
    cases close with
    | true => exact (reads_char ']').bind (k := 0) fun _ => .pure _
    | false =>
        refine ((h.value depth).weaken (Nat.le_refl 0) (Nat.le_refl _)).bind (k := 1) fun v =>
          reads_skip.bind (k := 1) fun _ => (reads_at_char ',').bind (k := 1) fun comma => ?_
        cases comma with
        | true =>
            refine ((reads_char ',').bind (k := 1) fun _ => ?_).weaken (Nat.le_succ 1)
              (Nat.le_refl _)
            exact (h.items depth).bind (k := 0) fun _ => .pure _
        | false => exact (reads_char ']').bind (k := 0) fun _ => .pure _
  members depth ms := by
    rw [members_succ, members_succ]
    refine reads_skip.bind (k := 1) fun _ => (reads_at_char '\x7d').bind (k := 1) fun close => ?_
    cases close with
    | true => exact (reads_char '\x7d').bind (k := 0) fun _ => .pure _
    | false =>
        refine (reads_key_start.bind (k := 1) fun path => ?_).weaken (Nat.le_succ 1)
          (Nat.le_refl _)
        refine ((h.value depth).weaken (Nat.le_refl 0) (Nat.sub_le _ _)).bind (k := 1) fun v =>
          (reads_lift _).bind (k := 1) fun ms => reads_skip.bind (k := 1) fun _ =>
          (reads_at_char ',').bind (k := 1) fun comma => ?_
        cases comma with
        | true =>
            exact ((reads_char ',').bind (k := 1) fun _ => (h.members depth ms).weaken
              (Nat.le_refl 1) (Nat.sub_le _ _)).weaken (Nat.le_succ 1) (Nat.le_refl _)
        | false => exact (reads_char '\x7d').bind (k := 0) fun _ => .pure _

theorem reads_values (n m : Nat) : ReadsValues n m := by
  induction n generalizing m with
  | zero => exact ⟨fun _ => .failure, fun _ => .failure, fun _ _ => .failure⟩
  | succ n ih =>
      cases m with
      | zero =>
          have h := (ih 0).succ
          exact ⟨fun d => (h.value d).of_takes, fun d => (h.items d).of_takes,
            fun d ms => (h.members d ms).of_takes⟩
      | succ m => exact (ih m).succ

/-! ## Lines -/

/-- Reads a whole value. -/
def wholeValue : Reader Value := do
  value ((← get).length + 1) maxDepth

theorem reads_whole_value {m : Nat} : Reads 0 m wholeValue wholeValue :=
  Reads.sized (f := fun n => value n maxDepth) (g := fun n => n + 1) Nat.le_succ fun n m =>
    (reads_values n m).value maxDepth

theorem assignment_eq : assignment = (do
    let path ← keyStart
    let v ← wholeValue
    return (path, v)) := by
  simp only [assignment, keyStart, wholeKey, wholeValue, bind_assoc, pure_bind]

/-- Reads a header with the rest of its line after the first bracket. -/
def headerLine : Reader Header := do
  let h ← header
  lineEnd
  return h

theorem header_eq : header = (do
    if ← atChar '[' then
      char '['
      let path ← wholeKey
      chars [']', ']']
      return ⟨path, true⟩
    else
      let path ← wholeKey
      char ']'
      return ⟨path, false⟩) := by
  simp only [header, wholeKey, bind_assoc]

theorem reads_header_line {m : Nat} : Reads 0 m headerLine headerLine := by
  refine Reads.bind (k := 0) ?_ fun h => reads_line_end.bind (k := 0) fun _ => .pure _
  rw [header_eq]
  refine (reads_at_char '[').bind (k := 0) fun several => ?_
  cases several with
  | true =>
      exact ((reads_char '[').bind (k := 2) fun _ => reads_whole_key.bind (k := 2) fun _ =>
        (reads_chars [']', ']']).bind (k := 0) fun _ => .pure _).weaken (Nat.zero_le _)
        (Nat.le_refl _)
  | false =>
      exact (reads_whole_key.bind (k := 1) fun _ => (reads_char ']').bind (k := 0) fun _ =>
        .pure _).weaken (Nat.zero_le _) (Nat.le_refl _)

end CustomerDedupe.Toml.Reader
