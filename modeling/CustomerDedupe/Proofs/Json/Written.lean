import Mathlib.Data.List.Nodup
import CustomerDedupe.Json.Load
import CustomerDedupe.Proofs.Calendar.DateSpelling
import CustomerDedupe.Proofs.Calendar.SignedYear
import CustomerDedupe.Proofs.Json.Fields
import CustomerDedupe.Proofs.Number.Decimal
import CustomerDedupe.Proofs.Uuid

/-!
# Values are decoded as they are written

What a decoder makes of a value that was written for it. `decode_members_cons` takes one member of
a written record after another, `decode_put_members` takes them all, and `list_decode` goes through
the items of an array.
-/

namespace CustomerDedupe.Json

open Calendar (Date Instant FourDigits)

variable {α β γ : Type}

/-! ## Values -/

theorem uuid_written (u : Uuid) : uuid (.ofJson (.str u.text)) = .ok u := by
  simp only [uuid, Outline.ofJson, stringWith, Uuid.read_text]

theorem string_written (s : String) : string (.ofJson (.str s)) = .ok s :=
  rfl

theorem flag_written (b : Bool) : flag (.ofJson (.bool b)) = .ok b :=
  rfl

theorem optional_string_written (o : Option String) :
    optional string (.ofJson (optStr o)) = .ok o := by
  cases o <;> rfl

/-- An integer between the bounds of its type. -/
theorem integer_written {low high n : Int} (hlow : low ≤ n) (hhigh : n ≤ high) (expected : String) :
    integer low high expected (.ofJson (int n)) = .ok n :=
  integer_outlined (outlines_of_json (int n)) hlow hhigh expected

/-- A decimal that may be missing is read as it is written, but for the sign of a zero. -/
theorem optional_decimal_written (o : Option Number.Decimal)
    (h : ∀ d, o = some d → d.Representable) :
    optional decimal (.ofJson (optStr (o.map Number.Decimal.text))) =
      .ok (o.map Number.Decimal.unsignedZero) := by
  cases o with
  | none => rfl
  | some d =>
      have hread := Number.Decimal.read_text (h d rfl)
      simp only [Option.map_some, optStr, Outline.ofJson, optional, decimal, stringWith, hread,
        Except.map]

/-- A written instant is not blank. -/
theorem instant_not_blank (t : Instant) : Text.isBlankText t.text = false := by
  have hmark : 'T' ∈ t.chars := by simp [Instant.chars]
  rw [Text.isBlankText, Instant.text, String.toList_ofList, List.all_eq_false]
  exact ⟨'T', hmark, by decide⟩

/-- The instant in a timestamp column is read as it is written. -/
theorem timestamp_column_written (t : Option Instant)
    (ht : ∀ u, t = some u → FourDigits u.date.year) :
    timestampColumn (.ofJson (optStr (t.map Instant.text))) = .ok t := by
  unfold timestampColumn column
  rw [optional_string_written]
  cases t with
  | none => rfl
  | some u =>
      have hread : Instant.readColumn? u.text.toList = some u := by
        rw [Instant.text, String.toList_ofList, Calendar.read_column_chars u (ht u rfl)]
      simp only [Option.map_some, bind, Except.bind, instant_not_blank, hread,
        Bool.false_eq_true, if_false]
      rfl

/-- An instant that is read from a timestamp column is in a year of four digits. -/
theorem timestamp_column_decoded {t v : Option Instant}
    (h : timestampColumn (.ofJson (optStr (t.map Instant.text))) = .ok v) :
    ∀ u, t = some u → FourDigits u.date.year := by
  rintro u rfl
  unfold timestampColumn column at h
  rw [optional_string_written] at h
  cases hread : Instant.readColumn? u.text.toList with
  | some u' =>
      rw [Instant.text, String.toList_ofList] at hread
      exact (Calendar.read_column_chars_eq hread).1
  | none =>
      simp only [Option.map_some, bind, Except.bind, instant_not_blank, hread,
        Bool.false_eq_true, if_false] at h
      cases h

/-- A written date is not blank. -/
theorem date_not_blank (d : Date) : Text.isBlankText d.text = false := by
  have hmark : '-' ∈ d.chars := by simp [Date.chars]
  rw [Text.isBlankText, Date.text, String.toList_ofList, List.all_eq_false]
  exact ⟨'-', hmark, by decide⟩

/-- The date in a date column is read as it is written. -/
theorem date_column_written (o : Option Date) (h : ∀ d, o = some d → FourDigits d.year) :
    dateColumn (.ofJson (optStr (o.map Date.text))) = .ok o := by
  unfold dateColumn column
  rw [optional_string_written]
  cases o with
  | none => rfl
  | some d =>
      have hread : Date.readColumn d.text.toList = .ok d := by
        rw [Date.text, String.toList_ofList, d.read_column_chars (h d rfl)]
      simp only [Option.map_some, bind, Except.bind, date_not_blank, hread,
        Bool.false_eq_true, if_false]
      rfl

/-! ## Records and arrays -/

/-- A member of a written record puts its value into the record. -/
theorem decode_members_cons {s : Schema α} {given : List String} {a : α} {name : String} {j : Json}
    {presence : Presence} {d : Decoder β} {set : α → β → α} {v : β}
    (hfind : s.fields.find? (fun f => f.name == name) = some (field name presence d set))
    (hnew : given.contains name = false) (hvalue : d (.ofJson j) = .ok v)
    (rest : List (String × Json)) :
    s.decodeMembers given a (Outline.ofMembers ((name, j) :: rest)) =
      s.decodeMembers (name :: given) (set a v) (Outline.ofMembers rest) := by
  rw [Outline.ofMembers, Schema.decodeMembers]
  simp only [orFault, hfind, hnew, field, hvalue, bind, Except.bind, Except.map,
    Bool.false_eq_true, if_false]

/-- Whoever decodes the members of a written record has decoded the value of the first. -/
theorem decode_members_cons_ok {s : Schema α} {given : List String} {a : α} {name : String}
    {j : Json} {presence : Presence} {d : Decoder β} {set : α → β → α}
    (hfind : s.fields.find? (fun f => f.name == name) = some (field name presence d set))
    (hnew : given.contains name = false) {rest : List (String × Json)} {result : α × List String}
    (h : s.decodeMembers given a (Outline.ofMembers ((name, j) :: rest)) = .ok result) :
    ∃ v, d (.ofJson j) = .ok v ∧
      s.decodeMembers (name :: given) (set a v) (Outline.ofMembers rest) = .ok result := by
  cases hvalue : d (.ofJson j) with
  | ok v => exact ⟨v, rfl, (decode_members_cons hfind hnew hvalue rest).symm.trans h⟩
  | error e =>
      rw [Outline.ofMembers, Schema.decodeMembers] at h
      simp only [orFault, hfind, hnew, field, hvalue, bind, Except.bind, Except.map,
        Bool.false_eq_true, if_false] at h
      cases h

/-- Each member of a written record has a field, which puts a value into the record. -/
inductive Puts (s : Schema α) : List (String × Json) → List (α → α) → Prop
  | nil : Puts s [] []
  | cons {β : Type} {name : String} {j : Json} {presence : Presence} {d : Decoder β}
      {set : α → β → α} {v : β} {members : List (String × Json)} {puts : List (α → α)}
      (hfind : s.fields.find? (fun f => f.name == name) = some (field name presence d set))
      (hvalue : d (.ofJson j) = .ok v) (hrest : Puts s members puts) :
      Puts s ((name, j) :: members) ((fun a => set a v) :: puts)

/-- Members of different names put their values into a record one after another. -/
theorem decode_put_members {s : Schema α} {members : List (String × Json)} {puts : List (α → α)}
    (h : Puts s members puts) {given : List String}
    (hnew : (given ++ members.map Prod.fst).Nodup) (a : α) :
    s.decodeMembers given a (Outline.ofMembers members) =
      .ok (puts.foldl (fun a put => put a) a, (members.map Prod.fst).reverse ++ given) := by
  induction h generalizing given a with
  | nil => rfl
  | @cons β name j presence d set v members puts hfind hvalue _ ih =>
      have hname : given.contains name = false := by
        have hnot : name ∉ given := fun hmem =>
          List.disjoint_of_nodup_append hnew hmem List.mem_cons_self
        simpa using hnot
      have hnext : (name :: given ++ members.map Prod.fst).Nodup :=
        List.nodup_middle.mp hnew
      rw [decode_members_cons hfind hname hvalue, ih hnext]
      simp

/-- An array is decoded item by item. -/
theorem list_decode {d : Decoder β} {write : γ → Json} {value : γ → β} {as : List γ}
    (h : ∀ a ∈ as, d (.ofJson (write a)) = .ok (value a)) :
    (Document.ofJson (.arr (as.map write))).decode (list d) = .ok (as.map value) := by
  have heach : decodeEach d (Outline.ofItems (as.map write)) = .ok (as.map value) := by
    induction as with
    | nil => rfl
    | cons a as ih =>
        rw [List.map_cons, Outline.ofItems, decodeEach, h a List.mem_cons_self,
          ih fun b hb => h b (List.mem_cons_of_mem _ hb)]
        rfl
  simp only [Document.decode, Document.ofJson, Outline.ofJson, list, heach, bind, Except.bind]
  rfl

/-! ## Members written over others -/

/-- A member takes the place of the one of its name. -/
theorem put_member_same {before : List (String × α)} {name : String}
    (h : ∀ m ∈ before, m.1 < name) (old new : α) (after : List (String × α)) :
    putMember name new (before ++ (name, old) :: after) = before ++ (name, new) :: after := by
  induction before with
  | nil =>
      rw [List.nil_append, putMember, if_neg (String.lt_irrefl name), if_pos rfl,
        List.nil_append]
  | cons first before ih =>
      have hlt : first.1 < name := h first List.mem_cons_self
      rw [List.cons_append, putMember, if_neg (String.lt_asymm hlt),
        if_neg (String.ne_of_lt hlt).symm, ih fun m hm => h m (List.mem_cons_of_mem _ hm),
        List.cons_append]

/-- Members take the places of those of the same names, one after another. -/
theorem fold_put_members_after (before : List (String × α)) {old new : List (String × α)}
    (hnames : old.map Prod.fst = new.map Prod.fst)
    (hascending : ((before ++ new).map Prod.fst).Pairwise (· < ·)) :
    new.foldl (fun ms m => putMember m.1 m.2 ms) (before ++ old) = before ++ new := by
  induction new generalizing before old with
  | nil => rw [List.map_eq_nil_iff.mp hnames, List.foldl_nil]
  | cons m new ih =>
      obtain ⟨⟨name, value⟩, old, rfl, rfl, hold⟩ := List.map_eq_cons_iff.mp hnames
      have hbefore : ∀ k ∈ before, k.1 < m.1 := by
        rw [List.map_append, List.pairwise_append] at hascending
        exact fun k hk => hascending.2.2 _ (List.mem_map_of_mem hk) _ List.mem_cons_self
      rw [List.append_cons] at hascending
      rw [List.foldl_cons, put_member_same hbefore, List.append_cons, ih _ hold hascending,
        ← List.append_cons]

/-- Members with ascending names take the places of members with the same names. -/
theorem fold_put_members {old new : List (String × α)}
    (hnames : old.map Prod.fst = new.map Prod.fst)
    (hascending : (new.map Prod.fst).Pairwise (· < ·)) :
    new.foldl (fun ms m => putMember m.1 m.2 ms) old = new :=
  fold_put_members_after [] hnames hascending

end CustomerDedupe.Json
