import CustomerDedupe.Json.Decode
import Mathlib.Data.List.Nodup

/-!
# Records decoded field by field

The members of an object may stand in any order and with others among them. What becomes of a
record is therefore said field by field: a record is decoded if the value of each field that is
given is (`Schema.exists_decoded`), a field that is given holds what its value is decoded to, and
one that is not holds what it holds in the blank record (`Schema.part_eq`). A field whose value is
refused makes the record refused (`Schema.refused_of_member`).
-/

namespace CustomerDedupe.Json

variable {α β : Type}

/-! ## Outlines of a value -/

mutual

/-- The outline is that of a value, wherever its parts stand. -/
inductive Outlines : Outline → Json → Prop where
  | null {start stop : Nat} : Outlines (.null start stop) .null
  | bool {start stop : Nat} (b : Bool) : Outlines (.bool start stop b) (.bool b)
  | num {start stop : Nat} (n : Numeral) : Outlines (.num start stop (.ok n)) (.num n)
  | str {start stop : Nat} (s : String) : Outlines (.str start stop (.ok s)) (.str s)
  | arr {start stop : Nat} {parts : List (Outline × After)} {items : List Json}
      (h : OutlinesItems parts items) : Outlines (.arr start parts (.closed stop)) (.arr items)
  | obj {start stop : Nat} {parts : List (Name × Outline × Nat)} {members : List (String × Json)}
      (h : OutlinesMembers parts members) :
      Outlines (.obj start parts (.closed stop)) (.obj members)

/-- The outlines are those of the items of an array. -/
inductive OutlinesItems : List (Outline × After) → List Json → Prop where
  | nil : OutlinesItems [] []
  | cons {o : Outline} {after : After} {parts : List (Outline × After)} {j : Json}
      {items : List Json} (h : Outlines o j) (hrest : OutlinesItems parts items) :
      OutlinesItems ((o, after) :: parts) (j :: items)

/-- The outlines are those of the members of an object. -/
inductive OutlinesMembers : List (Name × Outline × Nat) → List (String × Json) → Prop where
  | nil : OutlinesMembers [] []
  | cons {name : String} {place settled : Nat} {o : Outline} {parts : List (Name × Outline × Nat)}
      {j : Json} {members : List (String × Json)} (h : Outlines o j)
      (hrest : OutlinesMembers parts members) :
      OutlinesMembers ((⟨.ok name, place⟩, o, settled) :: parts) ((name, j) :: members)

end

mutual

/-- The outline of a value in memory is one of the value. -/
theorem outlines_of_json : ∀ j : Json, Outlines (.ofJson j) j
  | .null => .null
  | .bool b => .bool b
  | .num n => .num n
  | .str s => .str s
  | .arr items => .arr (outlines_of_items items)
  | .obj members => .obj (outlines_of_members members)

theorem outlines_of_items : ∀ items : List Json, OutlinesItems (Outline.ofItems items) items
  | [] => .nil
  | j :: items => .cons (outlines_of_json j) (outlines_of_items items)

theorem outlines_of_members :
    ∀ members : List (String × Json), OutlinesMembers (Outline.ofMembers members) members
  | [] => .nil
  | (_, j) :: members => .cons (outlines_of_json j) (outlines_of_members members)

end

mutual

/-- A value that nobody reads is passed over. -/
theorem Outlines.pass_ok : ∀ {o : Outline} {j : Json}, Outlines o j → o.pass = .ok ()
  | _, _, .null | _, _, .bool _ | _, _, .num _ | _, _, .str _ => rfl
  | _, _, .arr h => by
      rw [Outline.pass, h.pass_ok]
      rfl
  | _, _, .obj h => by
      rw [Outline.pass, h.pass_ok]
      rfl

theorem OutlinesItems.pass_ok :
    ∀ {parts : List (Outline × After)} {items : List Json}, OutlinesItems parts items →
      Outline.passItems parts = .ok ()
  | _, _, .nil => rfl
  | _, _, .cons h hrest => by
      rw [Outline.passItems, h.pass_ok]
      exact hrest.pass_ok

theorem OutlinesMembers.pass_ok :
    ∀ {parts : List (Name × Outline × Nat)} {members : List (String × Json)},
      OutlinesMembers parts members → Outline.passMembers parts = .ok ()
  | _, _, .nil => rfl
  | _, _, .cons h hrest => by
      rw [Outline.passMembers, h.pass_ok]
      exact hrest.pass_ok

end

/-! ## Values -/

theorem flag_outlined {o : Outline} {b : Bool} (h : Outlines o (.bool b)) : flag o = .ok b := by
  cases h
  rfl

theorem integer_outlined {o : Outline} {n low high : Int} (h : Outlines o (int n)) (hlow : low ≤ n)
    (hhigh : n ≤ high) (expected : String) : integer low high expected o = .ok n := by
  rw [int] at h
  cases h
  rw [integer, if_pos ⟨hlow, hhigh⟩]

theorem mismatch_ne_ok (expected : String) (o : Outline) (a : α) : mismatch expected o ≠ .ok a := by
  intro h
  unfold mismatch at h
  cases hfound : found o with
  | error r =>
      rw [hfound] at h
      cases h
  | ok f =>
      rw [hfound] at h
      cases h

/-- Only a truth value is decoded to one. -/
theorem eq_bool_of_flag {o : Outline} {j : Json} (h : Outlines o j) {b : Bool}
    (hflag : flag o = .ok b) : j = .bool b := by
  cases h with
  | bool => exact congrArg Json.bool (Except.ok.inj hflag)
  | null | num | str | arr | obj => exact absurd hflag (mismatch_ne_ok _ _ _)

/-- Only an integer between the bounds is decoded to one. -/
theorem eq_int_of_integer {o : Outline} {j : Json} (h : Outlines o j) {n low high : Int}
    {expected : String} (hinteger : integer low high expected o = .ok n) :
    j = int n ∧ low ≤ n ∧ n ≤ high := by
  cases h with
  | num m =>
      cases m with
      | int m =>
          rw [integer] at hinteger
          split at hinteger
          next hbounds =>
            obtain rfl := Except.ok.inj hinteger
            exact ⟨rfl, hbounds⟩
          next => cases hinteger
      | real => exact absurd hinteger (mismatch_ne_ok _ _ _)
  | null | bool | str | arr | obj => exact absurd hinteger (mismatch_ne_ok _ _ _)

/-! ## Fields -/

/-- Among members of different names, each is the one of its name. -/
theorem lookup_of_mem {members : List (String × α)} (hnames : (members.map Prod.fst).Nodup)
    {name : String} {v : α} (h : (name, v) ∈ members) : members.lookup name = some v := by
  induction members with
  | nil => cases h
  | cons m members ih =>
      obtain ⟨hnew, hrest⟩ := List.nodup_cons.mp hnames
      rcases List.mem_cons.mp h with rfl | hmem
      · exact List.lookup_cons_self
      · have hname : name ∈ members.map Prod.fst := List.mem_map_of_mem hmem
        have hne : name ≠ m.1 := fun heq => hnew (heq ▸ hname)
        rw [List.lookup_cons, beq_false_of_ne hne]
        exact ih hrest hmem

theorem mem_of_lookup {members : List (String × α)} {name : String} {v : α}
    (h : members.lookup name = some v) : (name, v) ∈ members := by
  obtain ⟨before, after, rfl, -⟩ := List.lookup_eq_some_iff.mp h
  exact List.mem_append_right _ List.mem_cons_self

/-- What a document gives for a part of a record: nothing, or a value that the decoder takes
wherever it stands. -/
inductive Gives (d : Decoder β) : Option Json → Option β → Prop where
  | absent : Gives d none none
  | present {j : Json} {v : β} (h : ∀ o, Outlines o j → d o = .ok v) : Gives d (some j) (some v)

/-- A value that is decoded as it is written is given if it is written. -/
theorem gives_written {d : Decoder β} {write : β → Json} {given : Option β}
    (h : ∀ v, given = some v → ∀ o, Outlines o (write v) → d o = .ok v) :
    Gives d (given.map write) given := by
  cases given with
  | none => exact .absent
  | some v => exact .present (h v rfl)

namespace Field

/-- The field takes the value, wherever it stands. -/
def Accepts (f : Field α) (j : Json) : Prop :=
  ∀ o a, Outlines o j → ∃ a', f.put a o = .ok a'

/-- The field does not touch a part of the record. -/
def Leaves (f : Field α) (get : α → β) : Prop :=
  ∀ a o a', f.put a o = .ok a' → get a' = get a

/-- The field puts what is decoded into a part of the record. -/
def Sets (f : Field α) (d : Decoder β) (get : α → β) : Prop :=
  ∀ a o a', f.put a o = .ok a' → d o = .ok (get a')

end Field

section

variable {name : String} {presence : Presence} {d : Decoder β} {set : α → β → α}

@[simp] theorem field_name : (field name presence d set).name = name :=
  rfl

@[simp] theorem field_presence : (field name presence d set).presence = presence :=
  rfl

theorem field_put_ok {a a' : α} {o : Outline}
    (h : (field name presence d set).put a o = .ok a') : ∃ v, d o = .ok v ∧ set a v = a' := by
  simp only [field] at h
  cases hv : d o with
  | error r =>
      rw [hv] at h
      cases h
  | ok v =>
      rw [hv] at h
      exact ⟨v, rfl, Except.ok.inj h⟩

theorem field_leaves {γ : Type} {get : α → γ} (h : ∀ a v, get (set a v) = get a) :
    (field name presence d set).Leaves get := by
  intro a o a' hput
  obtain ⟨v, -, rfl⟩ := field_put_ok hput
  exact h a v

theorem field_sets {get : α → β} (h : ∀ a v, get (set a v) = v) :
    (field name presence d set).Sets d get := by
  intro a o a' hput
  obtain ⟨v, hv, rfl⟩ := field_put_ok hput
  rw [h a v]
  exact hv

/-- A field takes what is given for it. -/
theorem field_accepts {members : List (String × Json)} (hnames : (members.map Prod.fst).Nodup)
    {given : Option β} (hgives : Gives d (members.lookup name) given) {j : Json}
    (hj : (name, j) ∈ members) : (field name presence d set).Accepts j := by
  intro o a ho
  rw [lookup_of_mem hnames hj] at hgives
  cases hgives with
  | present h =>
      simp only [field, h o ho]
      exact ⟨_, rfl⟩

end

namespace Schema

variable {s : Schema α} {k : String} {parts : List (Name × Outline × Nat)}
  {members : List (String × Json)} {given : List String} {a : α} {result : α × List String}

theorem name_of_find {f : Field α} (h : s.fields.find? (fun f => f.name == k) = some f) :
    f.name = k := by
  simpa using List.find?_some h

/-- The first member of a decoded object is passed over, or its field takes its value. -/
theorem decode_members_cons_inv {name : String} {place settled : Nat} {o : Outline}
    (h : s.decodeMembers given a ((⟨.ok name, place⟩, o, settled) :: parts) = .ok result) :
    s.fields.find? (fun f => f.name == name) = none ∧
        s.decodeMembers given a parts = .ok result ∨
      ∃ f a', s.fields.find? (fun f => f.name == name) = some f ∧ f.put a o = .ok a' ∧
        s.decodeMembers (name :: given) a' parts = .ok result := by
  rw [decodeMembers] at h
  simp only [orFault, bind, Except.bind] at h
  cases hfind : s.fields.find? fun f => f.name == name with
  | none =>
      rw [hfind] at h
      dsimp only at h
      split at h
      next => cases h
      next => exact .inl ⟨rfl, h⟩
  | some f =>
      rw [hfind] at h
      dsimp only at h
      split at h
      next => cases h
      next =>
        split at h
        next => cases h
        next a' hput => exact .inr ⟨f, a', rfl, hput, h⟩

/-- Members of different names are decoded if each field takes its value. -/
theorem exists_decode_members (h : OutlinesMembers parts members)
    (hnames : (given ++ members.map Prod.fst).Nodup)
    (haccept : ∀ f ∈ s.fields, ∀ j, (f.name, j) ∈ members → f.Accepts j) (a : α) :
    ∃ result, s.decodeMembers given a parts = .ok result := by
  induction members generalizing parts given a with
  | nil =>
      cases h
      exact ⟨_, rfl⟩
  | cons m members ih =>
      cases h with
      | @cons name place settled o parts j _ ho hparts =>
          have hrest : ∀ f ∈ s.fields, ∀ j, (f.name, j) ∈ members → f.Accepts j :=
            fun f hf j hj => haccept f hf j (List.mem_cons_of_mem _ hj)
          have hnext : (name :: given ++ members.map Prod.fst).Nodup := List.nodup_middle.mp hnames
          rw [decodeMembers]
          simp only [orFault, bind, Except.bind]
          cases hfind : s.fields.find? fun f => f.name == name with
          | none =>
              dsimp only
              rw [ho.pass_ok]
              exact ih hparts (List.nodup_cons.mp hnext).2 hrest a
          | some f =>
              have hname : f.name = name := name_of_find hfind
              have hnew : given.contains name = false := by
                have hnot := (List.nodup_cons.mp hnext).1
                simpa using fun hmem => hnot (List.mem_append_left _ hmem)
              obtain ⟨a', hput⟩ := haccept f (List.mem_of_find?_eq_some hfind) j
                (hname ▸ List.mem_cons_self) o a ho
              dsimp only
              rw [if_neg (by rw [hnew]; exact Bool.false_ne_true), hput]
              exact ih hparts hnext hrest a'

/-- A part of the record that no member concerns stays as it is. -/
theorem decode_members_leave {get : α → β} (h : OutlinesMembers parts members)
    (hnone : k ∉ members.map Prod.fst) (hleaves : ∀ f ∈ s.fields, f.name ≠ k → f.Leaves get)
    (hdecode : s.decodeMembers given a parts = .ok result) : get result.1 = get a := by
  induction members generalizing parts given a with
  | nil =>
      cases h
      obtain rfl := Except.ok.inj hdecode
      rfl
  | cons m members ih =>
      cases h with
      | @cons name place settled o parts j _ ho hparts =>
          rw [List.map_cons, List.mem_cons, not_or] at hnone
          rcases decode_members_cons_inv hdecode with ⟨-, hrest⟩ | ⟨f, a', hfind, hput, hrest⟩
          · exact ih hparts hnone.2 hrest
          · have hother : f.name ≠ k := fun heq =>
              hnone.1 (heq.symm.trans (name_of_find hfind))
            rw [ih hparts hnone.2 hrest]
            exact hleaves f (List.mem_of_find?_eq_some hfind) hother a o a' hput

/-- A part of the record that a member concerns holds what its value is decoded to. -/
theorem decode_members_set {get : α → β} {d : Decoder β} {f : Field α}
    (h : OutlinesMembers parts members) (hnames : (members.map Prod.fst).Nodup) {j : Json}
    (hj : (k, j) ∈ members) (hfind : s.fields.find? (fun f => f.name == k) = some f)
    (hsets : f.Sets d get) (hleaves : ∀ f ∈ s.fields, f.name ≠ k → f.Leaves get)
    (hdecode : s.decodeMembers given a parts = .ok result) :
    ∃ o, Outlines o j ∧ d o = .ok (get result.1) := by
  induction members generalizing parts given a with
  | nil => cases hj
  | cons m members ih =>
      cases h with
      | @cons name place settled o parts j' _ ho hparts =>
          obtain ⟨hnew, hlater⟩ := List.nodup_cons.mp hnames
          rcases List.mem_cons.mp hj with heq | hmem
          · -- the name does not come again, so what is put now stays
            obtain ⟨rfl, rfl⟩ := Prod.mk.inj heq
            rcases decode_members_cons_inv hdecode with ⟨hnone, -⟩ | ⟨g, a', hg, hput, hrest⟩
            · rw [hfind] at hnone
              cases hnone
            · obtain rfl := Option.some.inj (hfind.symm.trans hg)
              refine ⟨o, ho, ?_⟩
              rw [decode_members_leave hparts hnew hleaves hrest]
              exact hsets a o a' hput
          · rcases decode_members_cons_inv hdecode with ⟨-, hrest⟩ | ⟨g, a', -, -, hrest⟩
            · exact ih hparts hlater hmem hrest
            · exact ih hparts hlater hmem hrest

/-- In a decoded object each field has taken its value. -/
theorem decode_members_put {f : Field α} (h : OutlinesMembers parts members) {j : Json}
    (hj : (k, j) ∈ members) (hfind : s.fields.find? (fun f => f.name == k) = some f)
    (hdecode : s.decodeMembers given a parts = .ok result) :
    ∃ o b b', Outlines o j ∧ f.put b o = .ok b' := by
  induction members generalizing parts given a with
  | nil => cases hj
  | cons m members ih =>
      cases h with
      | @cons name place settled o parts j' _ ho hparts =>
          rcases List.mem_cons.mp hj with heq | hmem
          · obtain ⟨rfl, rfl⟩ := Prod.mk.inj heq
            rcases decode_members_cons_inv hdecode with ⟨hnone, -⟩ | ⟨g, a', hg, hput, -⟩
            · rw [hfind] at hnone
              cases hnone
            · obtain rfl := Option.some.inj (hfind.symm.trans hg)
              exact ⟨o, a, a', ho, hput⟩
          · rcases decode_members_cons_inv hdecode with ⟨-, hrest⟩ | ⟨g, a', -, -, hrest⟩
            · exact ih hparts hmem hrest
            · exact ih hparts hmem hrest

/-! ## Records of which anything may be left out -/

/-- No field has to be given. -/
def AllOptional (s : Schema α) : Prop :=
  ∀ f ∈ s.fields, f.presence = .optional

/-- A record of which anything may be left out is decoded if its members are. -/
theorem decode_obj (hoptional : s.AllOptional) (origin : Origin) (start stop : Nat)
    (parts : List (Name × Outline × Nat)) :
    s.decode origin (.obj start parts (.closed stop)) =
      (s.decodeMembers [] s.blank parts).map Prod.fst := by
  have hmissing (given : List String) : s.missing? given = none := by
    rw [missing?, Option.map_eq_none_iff, List.find?_eq_none]
    intro f hf
    rw [hoptional f hf]
    exact Bool.false_ne_true
  rw [decode]
  cases s.decodeMembers [] s.blank parts with
  | error r => rfl
  | ok result =>
      simp only [bind, Except.bind, hmissing]
      rfl

variable {origin : Origin} {o : Outline}

theorem exists_decoded (hoptional : s.AllOptional) (ho : Outlines o (.obj members))
    (hnames : (members.map Prod.fst).Nodup)
    (haccept : ∀ f ∈ s.fields, ∀ j, (f.name, j) ∈ members → f.Accepts j) :
    ∃ a, s.decode origin o = .ok a := by
  cases ho with
  | obj hparts =>
      have hall : ([] ++ members.map Prod.fst).Nodup := hnames
      obtain ⟨result, hresult⟩ := exists_decode_members hparts hall haccept s.blank
      exact ⟨result.1, by rw [decode_obj hoptional, hresult]; rfl⟩

/-- A part of a record holds what is given for it, or what it holds in the blank record. -/
theorem part_eq {get : α → β} {d : Decoder β} {f : Field α} {given : Option β}
    (hoptional : s.AllOptional) (ho : Outlines o (.obj members))
    (hnames : (members.map Prod.fst).Nodup) (hdecode : s.decode origin o = .ok a)
    (hgives : Gives d (members.lookup k) given)
    (hfind : s.fields.find? (fun f => f.name == k) = some f) (hsets : f.Sets d get)
    (hleaves : ∀ f ∈ s.fields, f.name ≠ k → f.Leaves get) :
    get a = given.getD (get s.blank) := by
  cases ho with
  | obj hparts =>
      rw [decode_obj hoptional] at hdecode
      cases hmembers : s.decodeMembers [] s.blank _ with
      | error r =>
          rw [hmembers] at hdecode
          cases hdecode
      | ok result =>
          rw [hmembers] at hdecode
          obtain rfl := Except.ok.inj hdecode
          cases hlookup : members.lookup k with
          | none =>
              rw [hlookup] at hgives
              cases hgives
              refine decode_members_leave hparts (fun hmem => ?_) hleaves hmembers
              obtain ⟨m, hm, rfl⟩ := List.mem_map.mp hmem
              rw [lookup_of_mem hnames hm] at hlookup
              cases hlookup
          | some j =>
              rw [hlookup] at hgives
              obtain ⟨o', ho', hd⟩ := decode_members_set hparts hnames (mem_of_lookup hlookup) hfind
                hsets hleaves hmembers
              cases hgives with
              | present hv => exact Except.ok.inj (hd.symm.trans (hv o' ho'))

/-- A record is refused if the field of a member does not take its value. -/
theorem refused_of_member {f : Field α} (ho : Outlines o (.obj members)) {j : Json}
    (hj : (k, j) ∈ members) (hfind : s.fields.find? (fun f => f.name == k) = some f)
    (hrefuses : ∀ o', Outlines o' j → ∀ b b', f.put b o' ≠ .ok b') :
    ∃ r, s.decode origin o = .error r := by
  cases ho with
  | obj hparts =>
      rw [decode]
      cases hmembers : s.decodeMembers [] s.blank _ with
      | error r => exact ⟨r, rfl⟩
      | ok result =>
          obtain ⟨o', b, b', ho', hput⟩ := decode_members_put hparts hj hfind hmembers
          exact absurd hput (hrefuses o' ho' b b')

end Schema

end CustomerDedupe.Json
