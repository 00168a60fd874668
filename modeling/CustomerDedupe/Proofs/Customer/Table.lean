import Mathlib.Data.List.Nodup
import CustomerDedupe.Customer.Store

/-!
# Tables of customers

How the operations on a table look when no two rows share an identifier or a contact: replacing
a row is replacing the row of its contact, and every row can be found by its contact.
-/

namespace CustomerDedupe.Table

/-- The rows of some contacts are those whose contact is among them. -/
theorem select_eq (ids : List Int) (table : List Customer) :
    select ids table = table.filter fun c => c.contactId ∈ ids := by
  simp only [select, List.contains_eq_mem]

/-- What is left are the rows whose contact is not removed. -/
theorem delete_eq (ids : List Int) (table : List Customer) :
    delete ids table = table.filter fun c => c.contactId ∉ ids := by
  simp only [delete, List.contains_eq_mem, decide_not]

/-- If identifiers are distinct, a row replaces every row of its identifier. -/
theorem replace_eq_map {table : List Customer} (hids : (table.map Customer.id).Nodup)
    (c : Customer) : replace c table = table.map fun d => if d.id = c.id then c else d := by
  induction table with
  | nil => rfl
  | cons d rest ih =>
      obtain ⟨hd, hrest⟩ := List.nodup_cons.mp hids
      rw [replace, List.map_cons]
      split
      · next heq =>
        have hkeep : ∀ e ∈ rest, (if e.id = c.id then c else e) = e := by
          intro e he
          have hne : e.id ≠ c.id := fun h => hd (heq.trans h.symm ▸ List.mem_map_of_mem he)
          exact if_neg hne
        rw [List.map_congr_left hkeep, List.map_id']
      · rw [ih hrest]

/-- Of two replacements of one row the last counts. -/
theorem replace_replace {a b : Customer} (h : a.id = b.id) (table : List Customer) :
    replace b (replace a table) = replace b table := by
  induction table with
  | nil => rfl
  | cons d rest ih =>
      by_cases hd : d.id = a.id
      · rw [replace, if_pos hd, replace, if_pos h, replace, if_pos (hd.trans h)]
      · have hd' : d.id ≠ b.id := h ▸ hd
        rw [replace, if_neg hd, replace, if_neg hd', replace, if_neg hd', ih]

/-- Putting a row in the place of one of its contact changes no contact. -/
theorem contact_replaced {c merged : Customer} (hcontact : merged.contactId = c.contactId)
    (d : Customer) :
    (if d.contactId = c.contactId then merged else d).contactId = d.contactId := by
  split
  · next hd => rw [hcontact, hd]
  · rfl

section Distinct

variable {table : List Customer} (hids : (table.map Customer.id).Nodup)
  (hcontacts : (table.map Customer.contactId).Nodup)

include hcontacts

/-- A row is found by its contact. -/
theorem find_contact {c : Customer} (hc : c ∈ table) :
    table.find? (fun d => d.contactId == c.contactId) = some c := by
  obtain ⟨d, hd⟩ := Option.isSome_iff_exists.mp
    (List.find?_isSome (p := fun d => d.contactId == c.contactId).mpr ⟨c, hc, by simp⟩)
  have hcontact : d.contactId = c.contactId := by simpa using List.find?_some hd
  rw [hd, List.inj_on_of_nodup_map hcontacts (List.mem_of_find?_eq_some hd) hc hcontact]

include hids

/-- Rows share an identifier exactly if they share a contact. -/
theorem id_eq_iff_contact_eq {c d : Customer} (hc : c ∈ table) (hd : d ∈ table) :
    d.id = c.id ↔ d.contactId = c.contactId := by
  constructor
  · intro h
    rw [List.inj_on_of_nodup_map hids hd hc h]
  · intro h
    rw [List.inj_on_of_nodup_map hcontacts hd hc h]

/-- Replacing a row by one of the same identifier replaces the row of its contact and leaves
all others in place. -/
theorem replace_contact {c merged : Customer} (hc : c ∈ table) (hid : merged.id = c.id) :
    replace merged table =
      table.map fun d => if d.contactId = c.contactId then merged else d := by
  rw [replace_eq_map hids, hid]
  apply List.map_congr_left
  intro d hd
  simp only [id_eq_iff_contact_eq hids hcontacts hc hd]

/-- Rows sought by contact are the same after a row was replaced by one of its contact, but for
the replacement. -/
theorem filter_contact_replace {c merged : Customer} (hc : c ∈ table) (hid : merged.id = c.id)
    (hcontact : merged.contactId = c.contactId) (p : Int → Bool) :
    ((replace merged table).filter fun d => p d.contactId) =
      (table.filter fun d => p d.contactId).map fun d =>
        if d.contactId = c.contactId then merged else d := by
  rw [replace_contact hids hcontacts hc hid, List.filter_map]
  congr 1
  apply List.filter_congr
  intro d _
  show p (if d.contactId = c.contactId then merged else d).contactId = _
  rw [contact_replaced hcontact]

/-- A row that has been replaced is found by its contact. -/
theorem find_contact_replace {c merged : Customer} (hc : c ∈ table) (hid : merged.id = c.id)
    (hcontact : merged.contactId = c.contactId) :
    (replace merged table).find? (fun d => d.contactId == c.contactId) = some merged := by
  rw [← List.head?_filter, filter_contact_replace hids hcontacts hc hid hcontact
    (fun contact => contact == c.contactId), List.head?_map, List.head?_filter,
    find_contact hcontacts hc, Option.map_some, if_pos rfl]

/-- Replacing a row does not change the rows of other contacts. -/
theorem filter_replace {c merged : Customer} (hc : c ∈ table) (hid : merged.id = c.id)
    (hcontact : merged.contactId = c.contactId) {ids : List Int} (hout : c.contactId ∉ ids) :
    ((replace merged table).filter fun d => d.contactId ∈ ids) =
      table.filter fun d => d.contactId ∈ ids := by
  rw [filter_contact_replace hids hcontacts hc hid hcontact (fun contact => contact ∈ ids)]
  have hkeep : ∀ d ∈ table.filter fun d => d.contactId ∈ ids,
      (if d.contactId = c.contactId then merged else d) = d := by
    intro d hd
    have hin : d.contactId ∈ ids := by simpa using (List.mem_filter.mp hd).2
    have hne : d.contactId ≠ c.contactId := fun h => hout (h ▸ hin)
    exact if_neg hne
  rw [List.map_congr_left hkeep, List.map_id']

/-- Replacing a row that is to stay and removing others do not get in each other's way. -/
theorem delete_replace {c merged : Customer} (hc : c ∈ table) (hid : merged.id = c.id)
    (hcontact : merged.contactId = c.contactId) (removed : List Int) :
    delete removed (replace merged table) =
      (table.filter fun d => d.contactId ∉ removed).map fun d =>
        if d.contactId = c.contactId then merged else d := by
  rw [delete_eq]
  exact filter_contact_replace hids hcontacts hc hid hcontact fun contact => contact ∉ removed

end Distinct

end CustomerDedupe.Table
