import CustomerDedupe.Proofs.Notification.Cache
import CustomerDedupe.Proofs.Notification.Server

/-!
# Rows and messages by identifier

The row with an identifier, in rows of which no two have the same, and the message that stands under
it once the rows have been loaded.
-/

namespace CustomerDedupe.NotificationTable

open Calendar (Instant)

/-- The row with an identifier. -/
def row? (id : Uuid) (rows : List NotificationRow) : Option NotificationRow :=
  rows.find? fun r => r.id == id

variable {rows found : List NotificationRow}

theorem id_of_row {id : Uuid} {r : NotificationRow} (h : row? id rows = some r) : r.id = id := by
  simpa using List.find?_some h

/-- There is a row with an identifier that some row has. -/
theorem exists_row {id : Uuid} (h : id ∈ rows.map NotificationRow.id) :
    ∃ r, row? id rows = some r := by
  obtain ⟨r, hr, rfl⟩ := List.mem_map.mp h
  exact Option.isSome_iff_exists.mp (List.find?_isSome.mpr ⟨r, hr, beq_self_eq_true r.id⟩)

theorem row_eq_none {id : Uuid} (h : id ∉ rows.map NotificationRow.id) : row? id rows = none := by
  refine List.find?_eq_none.mpr fun r hr hid => h ?_
  exact beq_iff_eq.mp hid ▸ List.mem_map_of_mem hr

/-- The row with an identifier is the one that has it. -/
theorem row_eq_some_iff (hdistinct : (rows.map NotificationRow.id).Nodup) {id : Uuid}
    {r : NotificationRow} : row? id rows = some r ↔ r ∈ rows ∧ r.id = id := by
  constructor
  · intro h
    exact ⟨List.mem_of_find?_eq_some h, id_of_row h⟩
  · rintro ⟨hr, rfl⟩
    obtain ⟨r', hr'⟩ := exists_row (List.mem_map_of_mem hr)
    rw [hr', List.inj_on_of_nodup_map hdistinct (List.mem_of_find?_eq_some hr') hr (id_of_row hr')]

/-- The rows may be in any order. -/
theorem row_of_perm (hperm : found.Perm rows) (hdistinct : (rows.map NotificationRow.id).Nodup)
    (id : Uuid) : row? id found = row? id rows := by
  have hfound : (found.map NotificationRow.id).Nodup :=
    (hperm.map NotificationRow.id).nodup_iff.mpr hdistinct
  refine Option.ext fun r => ?_
  rw [row_eq_some_iff hfound, row_eq_some_iff hdistinct, hperm.mem_iff]

/-- Under an identifier stands the message of the row with it, once the rows have been loaded. -/
theorem loaded_get (hdistinct : (rows.map NotificationRow.id).Nodup) (now : Instant) (id : Uuid) :
    (NotificationCache.ofItems (rows.map (NotificationRow.toItem now))).get? id =
      (row? id rows).map (NotificationRow.toItem now) := by
  have hids : ((rows.map (NotificationRow.toItem now)).map NotificationItem.id).Nodup := by
    rw [List.map_map]
    exact hdistinct
  refine Option.ext fun i => ?_
  rw [(NotificationCache.Keyed.of_items _).get_iff,
    (NotificationCache.of_items_perm hids).mem_iff, List.mem_map, Option.map_eq_some_iff]
  constructor
  · rintro ⟨⟨r, hr, rfl⟩, hid⟩
    exact ⟨r, (row_eq_some_iff hdistinct).mpr ⟨hr, hid⟩, rfl⟩
  · rintro ⟨r, hr, rfl⟩
    obtain ⟨hmem, hid⟩ := (row_eq_some_iff hdistinct).mp hr
    exact ⟨⟨r, hmem, rfl⟩, hid⟩

/-- Under an identifier stands the message of the user's row with it, once the user's rows have been
loaded. -/
theorem loaded_get_iff (hdistinct : (rows.map NotificationRow.id).Nodup) {user : Uuid}
    (hfound : found.Perm (matching [.eq "user_id" user.text] rows)) {now : Instant} {id : Uuid}
    {i : NotificationItem} :
    (NotificationCache.ofItems (found.map (NotificationRow.toItem now))).get? id = some i ↔
      ∃ r ∈ rows, r.userId = user ∧ r.id = id ∧ r.toItem now = i := by
  have hids : (found.map NotificationRow.id).Nodup :=
    (hfound.map NotificationRow.id).nodup_iff.mpr
      ((List.filter_sublist.map NotificationRow.id).nodup hdistinct)
  rw [loaded_get hids, Option.map_eq_some_iff]
  simp only [row_eq_some_iff hids, hfound.mem_iff, mem_matching, NotificationRow.kept_by_user]
  constructor
  · rintro ⟨r, ⟨⟨hr, huser⟩, hid⟩, hi⟩
    exact ⟨r, hr, huser, hid, hi⟩
  · rintro ⟨r, hr, huser, hid, hi⟩
    exact ⟨r, ⟨⟨hr, huser⟩, hid⟩, hi⟩

end CustomerDedupe.NotificationTable
