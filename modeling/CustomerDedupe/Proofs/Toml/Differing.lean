import CustomerDedupe.Toml.Reader

/-!
# Tables that differ at one place

A path of keys names a place in a table. While a text is read, tables grow, and no step looks at a
value that is there already: two tables that differ at one place only do so after every step
(`insert_differing`, `at_header_differing`, `assign_differing`), and a step that gives different
values to the same place makes tables that differ there (`assign_value`).
-/

namespace CustomerDedupe.Toml

variable {α β : Type}

/-- Lists that are the same but for one item. -/
inductive AtItem (R : α → α → Prop) : List α → List α → Prop
  | here {a b : α} {rest : List α} (h : R a b) : AtItem R (a :: rest) (b :: rest)
  | later {a : α} {as bs : List α} (h : AtItem R as bs) : AtItem R (a :: as) (a :: bs)

/-- Members that are the same but for the first one with a name. -/
inductive AtKey (R : α → α → Prop) (k : String) : List (String × α) → List (String × α) → Prop
  | here {a b : α} {rest : List (String × α)} (h : R a b) :
      AtKey R k ((k, a) :: rest) ((k, b) :: rest)
  | later {name : String} {a : α} {ms ms' : List (String × α)} (hname : name ≠ k)
      (h : AtKey R k ms ms') : AtKey R k ((name, a) :: ms) ((name, a) :: ms')

/-- Tables whose members are related, or lists of tables one of which has related members. -/
inductive Value.Alter (M : List (String × Value) → List (String × Value) → Prop) :
    Value → Value → Prop
  | table {ms ms' : List (String × Value)} (h : M ms ms') : Alter M (.table ms) (.table ms')
  | arr {all all' : List (List (String × Value))} (h : AtItem M all all') :
      Alter M (.arr (all.map .table)) (.arr (all'.map .table))

/-- Values that are the same but for what stands at a path: the one value here, the other there. -/
def Value.Differ (x y : Value) : List String → Value → Value → Prop
  | [], v, w => v = x ∧ w = y
  | k :: path, v, w => Value.Alter (AtKey (Value.Differ x y path) k) v w

/-- Places that hold related values, or tables whose members are related. -/
inductive Node.Alter (V : Value → Value → Prop) (M : Members → Members → Prop) :
    Node → Node → Prop
  | value {v w : Value} (h : V v w) : Alter V M (.value v) (.value w)
  | table {growth : Growth} {ms ms' : Members} (h : M ms ms') :
      Alter V M (.table growth ms) (.table growth ms')
  | tables {all all' : List Members} (h : AtItem M all all') :
      Alter V M (.tables all) (.tables all')

/-- Members that are the same but for what stands at a path. -/
def Members.Differ (x y : Value) : List String → Members → Members → Prop
  | [], _, _ => False
  | k :: path, ms, ms' =>
    AtKey (Node.Alter (Value.Differ x y path) (Members.Differ x y path)) k ms ms'

/-- Places that are the same but for what stands at a path. -/
abbrev Node.Differ (x y : Value) (path : List String) : Node → Node → Prop :=
  Node.Alter (Value.Differ x y path) (Members.Differ x y path)

/-! ## Lists and members -/

theorem AtItem.append {R : α → α → Prop} {as bs : List α} (h : AtItem R as bs) (rest : List α) :
    AtItem R (as ++ rest) (bs ++ rest) := by
  induction h with
  | here h => exact .here h
  | later _ ih => exact .later ih

theorem AtItem.of_last {R : α → α → Prop} (before : List α) {a b : α} (h : R a b) :
    AtItem R (before ++ [a]) (before ++ [b]) := by
  induction before with
  | nil => exact .here h
  | cons c before ih => exact .later ih

/-- Either the last item makes the difference, or one before it. -/
theorem AtItem.last {R : α → α → Prop} {as bs : List α} (h : AtItem R as bs) :
    (∃ before a b, as = before ++ [a] ∧ bs = before ++ [b] ∧ R a b) ∨
      ∃ before before' c, as = before ++ [c] ∧ bs = before' ++ [c] ∧ AtItem R before before' := by
  induction h with
  | @here a b rest h =>
      rcases List.eq_nil_or_concat rest with rfl | ⟨rest, c, rfl⟩
      · exact .inl ⟨[], a, b, rfl, rfl, h⟩
      · exact .inr ⟨a :: rest, b :: rest, c, by simp, by simp, .here h⟩
  | @later d as bs _ ih =>
      rcases ih with ⟨before, a, b, rfl, rfl, h⟩ | ⟨before, before', c, rfl, rfl, h⟩
      · exact .inl ⟨d :: before, a, b, rfl, rfl, h⟩
      · exact .inr ⟨d :: before, d :: before', c, rfl, rfl, .later h⟩

theorem AtItem.related {R : α → α → Prop} {as bs : List α} (h : AtItem R as bs) :
    ∃ a b, R a b := by
  induction h with
  | here h => exact ⟨_, _, h⟩
  | later _ ih => exact ih

theorem AtItem.map {R : α → α → Prop} {S : β → β → Prop} {f : α → β} {as bs : List α}
    (hf : ∀ a b, R a b → S (f a) (f b)) (h : AtItem R as bs) : AtItem S (as.map f) (bs.map f) := by
  induction h with
  | here h => exact .here (hf _ _ h)
  | later _ ih => exact .later ih

namespace AtKey

variable {R : α → α → Prop} {k name : String} {ms ms' : List (String × α)}

theorem lookup_self (h : AtKey R k ms ms') :
    ∃ a b, ms.lookup k = some a ∧ ms'.lookup k = some b ∧ R a b := by
  induction h with
  | here h => exact ⟨_, _, List.lookup_cons_self, List.lookup_cons_self, h⟩
  | later hname _ ih =>
      obtain ⟨a, b, ha, hb, h⟩ := ih
      have hne : (k == _) = false := beq_false_of_ne hname.symm
      refine ⟨a, b, ?_, ?_, h⟩
      · rwa [List.lookup_cons, hne]
      · rwa [List.lookup_cons, hne]

theorem lookup_other (h : AtKey R k ms ms') (hname : name ≠ k) :
    ms.lookup name = ms'.lookup name := by
  induction h with
  | here h => rw [List.lookup_cons, List.lookup_cons, beq_false_of_ne hname]
  | @later other a ms ms' _ _ ih => rw [List.lookup_cons, List.lookup_cons, ih]

theorem map {S : β → β → Prop} {f : α → β} (hf : ∀ a b, R a b → S (f a) (f b))
    (h : AtKey R k ms ms') :
    AtKey S k (ms.map fun m => (m.1, f m.2)) (ms'.map fun m => (m.1, f m.2)) := by
  induction h with
  | here h => exact .here (hf _ _ h)
  | later hname _ ih => exact .later hname ih

end AtKey

namespace Members

variable {R S : Node → Node → Prop} {k name : String} {ms ms' : Members}

theorem put_other (h : AtKey R k ms ms') (hname : name ≠ k) (node : Node) :
    AtKey R k (put name node ms) (put name node ms') := by
  induction h with
  | here h =>
      rw [put, put, if_neg hname.symm, if_neg hname.symm]
      exact .here h
  | @later other a ms ms' hother h ih =>
      rw [put, put]
      split
      · exact .later hother h
      · exact .later hother ih

theorem put_self (h : AtKey R k ms ms') {a b : Node} (hab : S a b) :
    AtKey S k (put k a ms) (put k b ms') := by
  induction h with
  | here h =>
      rw [put, put, if_pos rfl, if_pos rfl]
      exact .here hab
  | @later other c ms ms' hother h ih =>
      rw [put, put, if_neg hother, if_neg hother]
      exact .later hother ih

theorem put_new (k : String) (ms : Members) {a b : Node} (hab : S a b) :
    AtKey S k (put k a ms) (put k b ms) := by
  induction ms with
  | nil => exact .here hab
  | cons m ms ih =>
      obtain ⟨name, c⟩ := m
      rw [put, put]
      by_cases hname : name = k
      · rw [if_pos hname, if_pos hname, hname]
        exact .here hab
      · rw [if_neg hname, if_neg hname]
        exact .later hname ih

end Members

/-! ## Steps that may fail -/

theorem rel_map {γ δ : Type} {R : α → β → Prop} {S : γ → δ → Prop} {o : Option α} {p : Option β}
    {f : α → γ} {g : β → δ} (h : Option.Rel R o p) (hf : ∀ a b, R a b → S (f a) (g b)) :
    Option.Rel S (o.map f) (p.map g) := by
  cases h with
  | none => exact .none
  | some h => exact .some (hf _ _ h)

theorem rel_some {R : α → β → Prop} {o : Option α} {p : Option β} {a : α}
    (h : Option.Rel R o p) (ho : o = some a) : ∃ b, p = some b ∧ R a b := by
  subst ho
  cases h with
  | some h => exact ⟨_, rfl, h⟩

/-- Changes the last item. -/
def changeLast (f : α → Option α) (all : List α) : Option (List α) :=
  all.getLast?.bind fun last => (f last).map fun last => all.dropLast ++ [last]

theorem change_last_value {R : α → α → Prop} {f g : α → Option α}
    (h : ∀ a, Option.Rel R (f a) (g a)) (all : List α) :
    Option.Rel (AtItem R) (changeLast f all) (changeLast g all) := by
  rw [changeLast, changeLast]
  cases all.getLast? with
  | none => exact .none
  | some last => exact rel_map (h last) fun _ _ h => .of_last all.dropLast h

theorem change_last_differing {R : α → α → Prop} {f : α → Option α}
    (hf : ∀ a b, R a b → Option.Rel R (f a) (f b)) {all all' : List α} (h : AtItem R all all') :
    Option.Rel (AtItem R) (changeLast f all) (changeLast f all') := by
  rw [changeLast, changeLast]
  rcases h.last with ⟨before, a, b, rfl, rfl, hab⟩ | ⟨before, before', c, rfl, rfl, hbefore⟩
  all_goals
    rw [List.getLast?_concat, List.getLast?_concat, List.dropLast_concat, List.dropLast_concat]
    simp only [Option.bind_some]
  · exact rel_map (hf a b hab) fun _ _ h => .of_last before h
  · cases f c with
    | none => exact .none
    | some last => exact .some (hbefore.append [last])

namespace Members

/-- What changes another member leaves a difference where it is. -/
theorem put_past {R : Node → Node → Prop} {k name : String} {ms ms' : Members}
    (h : AtKey R k ms ms') (hname : name ≠ k) (f : α → Node) (o : Option α) :
    Option.Rel (AtKey R k) (o.map fun a => put name (f a) ms)
      (o.map fun a => put name (f a) ms') := by
  cases o with
  | none => exact .none
  | some a => exact .some (put_other h hname (f a))

end Members

/-! ## Values at dotted keys -/

namespace Members

variable {x y : Value} {path : List String} {ms ms' : Members}

theorem insert_one (v : Value) (name : String) (growth : Growth) (deep : Bool) (ms : Members) :
    insert v [name] growth deep ms =
      if (ms.lookup name).isSome then none
      else if (growth == .dotted) != deep then none
      else some (put name (.value v) ms) := rfl

theorem insert_more (v : Value) (name second : String) (key : List String) (growth : Growth)
    (deep : Bool) (ms : Members) :
    insert v (name :: second :: key) growth deep ms =
      match ms.lookup name with
      | none =>
        (insert v (second :: key) .dotted true []).map fun inner =>
          put name (.table .dotted inner) ms
      | some (.table growth inner) =>
        if growth = .named then none
        else (insert v (second :: key) growth true inner).map fun inner =>
          put name (.table growth inner) ms
      | some _ => none := rfl

/-- Different values at the same dotted key make a difference there. -/
theorem insert_value {v w : Value} (h : Value.Differ x y path v w) (key : List String)
    (growth : Growth) (deep : Bool) (ms : Members) :
    Option.Rel (Differ x y (key ++ path)) (insert v key growth deep ms)
      (insert w key growth deep ms) := by
  induction key generalizing growth deep ms with
  | nil => exact .none
  | cons name key ih =>
      cases key with
      | nil =>
          rw [insert_one, insert_one]
          split
          · exact .none
          split
          · exact .none
          · exact .some (put_new name ms (.value h))
      | cons second key =>
          rw [insert_more, insert_more]
          rcases ms.lookup name with _ | _ | _ | _
          · exact rel_map (ih .dotted true []) fun _ _ h => put_new name ms (Node.Alter.table h)
          · exact .none
          · rename_i growth inner
            dsimp only
            split
            · exact .none
            · exact rel_map (ih growth true inner) fun _ _ h =>
                put_new name ms (Node.Alter.table h)
          · exact .none

/-- A value that is given to a dotted key leaves a difference where it is. -/
theorem insert_differing (h : Differ x y path ms ms') (v : Value) (key : List String)
    (growth : Growth) (deep : Bool) :
    Option.Rel (Differ x y path) (insert v key growth deep ms) (insert v key growth deep ms') := by
  induction key generalizing path growth deep ms ms' with
  | nil => exact .none
  | cons name key ih =>
      rcases path with _ | ⟨k, path⟩
      · exact h.elim
      by_cases hname : name = k
      · -- the key leads to the difference
        subst hname
        obtain ⟨a, b, ha, hb, hab⟩ := AtKey.lookup_self h
        cases key with
        | nil =>
            rw [insert_one, insert_one, ha, hb]
            exact .none
        | cons second key =>
            rw [insert_more, insert_more, ha, hb]
            cases hab with
            | value _ => exact .none
            | tables _ => exact .none
            | table hinner =>
                dsimp only
                split
                · exact .none
                · exact rel_map (ih hinner _ true) fun _ _ hinner =>
                    put_self h (Node.Alter.table hinner)
      · -- the key leads past the difference
        cases key with
        | nil =>
            rw [insert_one, insert_one, AtKey.lookup_other h hname]
            split
            · exact .none
            split
            · exact .none
            · exact .some (put_other h hname (.value v))
        | cons second key =>
            rw [insert_more, insert_more, AtKey.lookup_other h hname]
            rcases ms'.lookup name with _ | _ | _ | _
            · exact put_past h hname (Node.table _) _
            · exact .none
            · dsimp only
              split
              · exact .none
              · exact put_past h hname (Node.table _) _
            · exact .none

/-! ## Tables at headers -/

theorem at_header_one (enter : Option Node → Option Node) (name : String) (ms : Members) :
    atHeader enter [name] ms = (enter (ms.lookup name)).map fun node => put name node ms := by
  rw [atHeader]
  cases enter (ms.lookup name) <;> rfl

theorem at_header_more (enter : Option Node → Option Node) (name second : String)
    (header : List String) (ms : Members) :
    atHeader enter (name :: second :: header) ms =
      match ms.lookup name with
      | none =>
        (atHeader enter (second :: header) []).map fun inner => put name (.table .passed inner) ms
      | some (.table growth inner) =>
        (atHeader enter (second :: header) inner).map fun inner =>
          put name (.table growth inner) ms
      | some (.tables all) =>
        (changeLast (atHeader enter (second :: header)) all).map fun all =>
          put name (.tables all) ms
      | some (.value _) => none := by
  rw [atHeader]
  · rcases ms.lookup name with _ | _ | _ | all
    · rfl
    · rfl
    · rfl
    · simp only [changeLast, Option.map_bind]
      cases all.getLast? with
      | none => rfl
      | some last => simp [Function.comp_def]
  · exact List.cons_ne_nil second header

/-- Entering the same table differently makes a difference there. -/
theorem at_header_value {enter enter' : Option Node → Option Node}
    (henter : ∀ o, Option.Rel (Node.Differ x y path) (enter o) (enter' o)) (header : List String)
    (ms : Members) :
    Option.Rel (Differ x y (header ++ path)) (atHeader enter header ms)
      (atHeader enter' header ms) := by
  induction header generalizing ms with
  | nil => exact .none
  | cons name header ih =>
      cases header with
      | nil =>
          rw [at_header_one, at_header_one]
          exact rel_map (henter _) fun _ _ h => put_new name ms h
      | cons second header =>
          rw [at_header_more, at_header_more]
          rcases ms.lookup name with _ | _ | _ | all
          · exact rel_map (ih []) fun _ _ h => put_new name ms (Node.Alter.table h)
          · exact .none
          · exact rel_map (ih _) fun _ _ h => put_new name ms (Node.Alter.table h)
          · exact rel_map (change_last_value ih all) fun _ _ h =>
              put_new name ms (Node.Alter.tables h)

/-- Entering a table leaves a difference where it is, if it does so in the table itself. -/
theorem at_header_differing {enter : Option Node → Option Node}
    (henter : ∀ path a b, Node.Differ x y path a b →
      Option.Rel (Node.Differ x y path) (enter (some a)) (enter (some b)))
    (h : Differ x y path ms ms') (header : List String) :
    Option.Rel (Differ x y path) (atHeader enter header ms) (atHeader enter header ms') := by
  induction header generalizing path ms ms' with
  | nil => exact .none
  | cons name header ih =>
      rcases path with _ | ⟨k, path⟩
      · exact h.elim
      by_cases hname : name = k
      · -- the header leads to the difference
        subst hname
        obtain ⟨a, b, ha, hb, hab⟩ := AtKey.lookup_self h
        cases header with
        | nil =>
            rw [at_header_one, at_header_one, ha, hb]
            exact rel_map (henter path a b hab) fun _ _ h' => put_self h h'
        | cons second header =>
            rw [at_header_more, at_header_more, ha, hb]
            cases hab with
            | value _ => exact .none
            | table hinner =>
                exact rel_map (ih hinner) fun _ _ hinner => put_self h (Node.Alter.table hinner)
            | tables hall =>
                exact rel_map (change_last_differing (fun _ _ h => ih h) hall) fun _ _ hall =>
                  put_self h (Node.Alter.tables hall)
      · -- the header leads past the difference
        cases header with
        | nil =>
            rw [at_header_one, at_header_one, AtKey.lookup_other h hname]
            exact put_past h hname id _
        | cons second header =>
            rw [at_header_more, at_header_more, AtKey.lookup_other h hname]
            rcases ms'.lookup name with _ | _ | _ | _
            · exact put_past h hname (Node.table _) _
            · exact .none
            · exact put_past h hname (Node.table _) _
            · exact put_past h hname Node.tables _

end Members

/-! ## Steps of reading -/

section Steps

variable {x y : Value} {path : List String} {ms ms' : Members} {a b : Node}

theorem enter_table_differing (h : Node.Differ x y path a b) :
    Option.Rel (Node.Differ x y path) (enterTable (some a)) (enterTable (some b)) := by
  cases h with
  | value _ => exact .none
  | tables _ => exact .none
  | @table growth ms ms' h =>
      cases growth with
      | named => exact .none
      | dotted => exact .none
      | passed => exact .some (.table h)

theorem enter_tables_differing (h : Node.Differ x y path a b) :
    Option.Rel (Node.Differ x y path) (enterTables (some a)) (enterTables (some b)) := by
  cases h with
  | value _ => exact .none
  | table _ => exact .none
  | tables h => exact .some (.tables (h.append [[]]))

/-- A header leaves a difference where it is. -/
theorem enter_differing (h : Members.Differ x y path ms ms') (header : Reader.Header) :
    Option.Rel (Members.Differ x y path)
      (Members.atHeader (if header.several then enterTables else enterTable) header.path ms)
      (Members.atHeader (if header.several then enterTables else enterTable) header.path ms') := by
  refine Members.at_header_differing (fun path a b hab => ?_) h header.path
  split
  · exact enter_tables_differing hab
  · exact enter_table_differing hab

/-- Gives a value to a key in the table that a header has named. -/
def assignIn (key : List String) (v : Value) : Option Node → Option Node
  | some (.table growth inner) => (Members.insert v key growth false inner).map (Node.table growth)
  | some (.tables all) => (changeLast (Members.insert v key .named false) all).map Node.tables
  | _ => none

/-- The path of the table in force. -/
def headerPath : Option Reader.Header → List String
  | none => []
  | some header => header.path

theorem assign_header (header : Reader.Header) (key : List String) (v : Value) (ms : Members) :
    assign (some header) key v ms = Members.atHeader (assignIn key v) header.path ms := by
  rw [assign]
  congr 1
  funext o
  rcases o with _ | _ | _ | all
  · rfl
  · rfl
  · rfl
  · simp only [assignIn, changeLast, Option.map_bind]
    cases all.getLast? with
    | none => rfl
    | some last =>
        cases hinsert : Members.insert v key .named false last <;> simp [hinsert]

/-- Different values for the same key make a difference where the key leads. -/
theorem assign_value {v w : Value} (h : Value.Differ x y path v w)
    (current : Option Reader.Header) (key : List String) (ms : Members) :
    Option.Rel (Members.Differ x y (headerPath current ++ (key ++ path)))
      (assign current key v ms) (assign current key w ms) := by
  cases current with
  | none => exact Members.insert_value h key .named false ms
  | some header =>
      rw [assign_header, assign_header]
      refine Members.at_header_value (fun o => ?_) header.path ms
      rcases o with _ | _ | _ | all
      · exact .none
      · exact .none
      · exact rel_map (Members.insert_value h key _ false _) fun _ _ h => .table h
      · exact rel_map (change_last_value (Members.insert_value h key .named false) all)
          fun _ _ h => .tables h

/-- A value for a key leaves a difference where it is. -/
theorem assign_differing (h : Members.Differ x y path ms ms') (current : Option Reader.Header)
    (key : List String) (v : Value) :
    Option.Rel (Members.Differ x y path) (assign current key v ms) (assign current key v ms') := by
  cases current with
  | none => exact Members.insert_differing h v key .named false
  | some header =>
      rw [assign_header, assign_header]
      refine Members.at_header_differing (fun path a b hab => ?_) h header.path
      cases hab with
      | value _ => exact .none
      | table h => exact rel_map (Members.insert_differing h v key _ false) fun _ _ h => .table h
      | tables h =>
          refine rel_map (change_last_differing (fun _ _ h => ?_) h) fun _ _ h => .tables h
          exact Members.insert_differing h v key .named false

end Steps

/-! ## Finished tables -/

theorem finish_members_eq (ms : Members) :
    finishMembers ms = ms.map fun m => (m.1, m.2.finish) := by
  induction ms with
  | nil => rfl
  | cons m ms ih => rw [finishMembers, ih, List.map_cons]

theorem finish_tables_eq (all : List Members) :
    finishTables all = (all.map finishMembers).map .table := by
  induction all with
  | nil => rfl
  | cons ms all ih => rw [finishTables, ih, List.map_cons, List.map_cons]

/-- Finishing leaves a difference where it is. -/
theorem Node.finish_differing {x y : Value} {path : List String} {a b : Node}
    (h : Node.Differ x y path a b) : Value.Differ x y path a.finish b.finish := by
  induction path generalizing a b with
  | nil =>
      cases h with
      | value h => exact h
      | table h => exact h.elim
      | tables h =>
          obtain ⟨_, _, h⟩ := h.related
          exact h.elim
  | cons k path ih =>
      have hmembers : ∀ ms ms', Members.Differ x y (k :: path) ms ms' →
          AtKey (Value.Differ x y path) k (finishMembers ms) (finishMembers ms') := by
        intro ms ms' h
        rw [finish_members_eq, finish_members_eq]
        exact AtKey.map (fun _ _ h => ih h) h
      cases h with
      | value h => exact h
      | table h => exact .table (hmembers _ _ h)
      | tables h =>
          rw [Node.finish, Node.finish, finish_tables_eq, finish_tables_eq]
          exact .arr (h.map hmembers)

end CustomerDedupe.Toml
