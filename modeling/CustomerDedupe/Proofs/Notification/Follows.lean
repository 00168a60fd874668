import CustomerDedupe.Proofs.Notification.Lookup

/-!
# Following the table

While nobody else writes to the table, what a feed holds follows it (`Follows`): every message is
that of a row of the user, and once the feed has loaded, every row of the user has its message.
Loading (`Follows.load`), adding (`Follows.add`) and marking (`Follows.mark`) keep it so. A feed
that has loaded and follows the table mirrors it (`Follows.mirrors`).
-/

namespace CustomerDedupe

open Calendar (Instant FourDigits)

namespace NotificationRow

/-- A row is that of a message at any time. -/
def Shows (r : NotificationRow) (i : NotificationItem) : Prop :=
  ∀ now, r.toItem now = i

variable {r : NotificationRow} {i : NotificationItem}

/-- A row with a time does not need the present one. -/
theorem shows_to_item (h : r.createdAt.isSome = true) (now : Instant) : r.Shows (r.toItem now) := by
  obtain ⟨t, ht⟩ := Option.isSome_iff_exists.mp h
  intro now'
  simp only [toItem, ht, Option.getD_some]

theorem Shows.id_eq (h : r.Shows i) : i.id = r.id :=
  congrArg NotificationItem.id (h default).symm

theorem Shows.read_eq (h : r.Shows i) : i.isRead = r.isRead :=
  congrArg NotificationItem.isRead (h default).symm

/-- A message has the time of its row. -/
theorem Shows.timestamp_eq (h : r.Shows i) (ht : r.createdAt.isSome = true) :
    i.timestamp = r.createdAt := by
  obtain ⟨t, ht⟩ := Option.isSome_iff_exists.mp ht
  rw [← h default, toItem, ht, Option.getD_some]

variable {moment : Moment} {user : Uuid}

/-- The row of a message with a time and an identifier shows it. -/
theorem of_item_shows (ht : i.timestamp.isSome = true) (hid : i.id ≠ .null) :
    (ofItem moment user i).Shows i := by
  obtain ⟨id, title, message, timestamp, isRead, kind⟩ := i
  obtain ⟨t, rfl⟩ := Option.isSome_iff_exists.mp ht
  intro now
  simp only [toItem, ofItem, if_neg hid, Option.getD_some]

/-- The row of a message has an identifier. -/
theorem of_item_id_ne (hfresh : moment.freshId ≠ .null) : (ofItem moment user i).id ≠ .null := by
  unfold ofItem
  split
  next => exact hfresh
  next hid => exact hid

/-- The row of a message can be written if the message's time can. -/
theorem of_item_writable (h : FourDigits (i.timestamp.getD moment.now).date.year) :
    (ofItem moment user i).Writable := by
  constructor <;> rintro t ⟨⟩ <;> exact h

end NotificationRow

namespace Feed

open NotificationTable (Tidy matching)

/-- A cache holds exactly the messages of a user's rows, each under its identifier. -/
structure Mirrors (user : Uuid) (rows : List NotificationRow) (cache : NotificationCache) :
    Prop where
  keyed : cache.Keyed
  messages : ∀ now id i, cache.get? id = some i ↔
    ∃ r ∈ rows, r.userId = user ∧ r.id = id ∧ r.toItem now = i

/-- What a feed of a user holds follows a tidy table. `loaded` says that it has been loaded, and
`marksNull` that the message with the null identifier may be marked as read. -/
structure Follows (user : Uuid) (marksNull loaded : Prop) (rows : List NotificationRow)
    (cache : NotificationCache) : Prop where
  tidy : Tidy rows
  keyed : cache.Keyed
  /-- Every message is that of a row. -/
  sound : ∀ id i, cache.get? id = some i → ∃ r ∈ rows, r.userId = user ∧ r.id = id ∧ r.Shows i
  /-- Every row has its message. -/
  complete : loaded → ∀ r ∈ rows, r.userId = user → ∃ i, cache.get? r.id = some i
  /-- No row with the null identifier is left to be marked. -/
  settled : marksNull → ∀ r ∈ rows, r.id = .null → r.isRead = true

namespace Follows

variable {user : Uuid} {marksNull loaded : Prop} {rows : List NotificationRow}
  {cache : NotificationCache}

/-- What is loaded and follows the table mirrors it. -/
theorem mirrors (h : Follows user marksNull loaded rows cache) (hloaded : loaded) :
    Mirrors user rows cache where
  keyed := h.keyed
  messages now id i := by
    constructor
    · intro hi
      obtain ⟨r, hr, huser, hid, hshows⟩ := h.sound id i hi
      exact ⟨r, hr, huser, hid, hshows now⟩
    · rintro ⟨r, hr, huser, rfl, rfl⟩
      obtain ⟨i, hi⟩ := h.complete hloaded r hr huser
      obtain ⟨r', hr', -, hid, hshows⟩ := h.sound r.id i hi
      obtain rfl : r' = r := List.inj_on_of_nodup_map h.tidy.distinct hr' hr hid
      rw [hi, hshows now]

/-- An empty cache follows every tidy table. -/
theorem empty (htidy : Tidy rows)
    (hnull : marksNull → ∀ r ∈ rows, r.id = .null → r.isRead = true) :
    Follows user marksNull False rows [] where
  tidy := htidy
  keyed := .nil
  sound _ _ h := by cases h
  complete h := h.elim
  settled := hnull

/-- Loading the rows of the user. -/
theorem load (h : Follows user marksNull loaded rows cache) {found : List NotificationRow}
    (hfound : found.Perm (matching [.eq "user_id" user.text] rows)) (now : Instant) :
    Follows user marksNull True rows
      (NotificationCache.ofItems (found.map (NotificationRow.toItem now))) := by
  have hget := @NotificationTable.loaded_get_iff _ _ h.tidy.distinct user hfound now
  refine ⟨h.tidy, .of_items _, ?_, ?_, h.settled⟩
  · intro id i hi
    obtain ⟨r, hr, huser, hid, rfl⟩ := hget.mp hi
    exact ⟨r, hr, huser, hid, NotificationRow.shows_to_item (h.tidy.timed r hr) now⟩
  · intro _ r hr huser
    exact ⟨_, hget.mpr ⟨r, hr, huser, rfl, rfl⟩⟩

/-- Adding a row of the user and storing its message. -/
theorem add (h : Follows user marksNull loaded rows cache) {r : NotificationRow}
    {i : NotificationItem} (hnew : r.id ∉ rows.map NotificationRow.id) (huser : r.userId = user)
    (htimed : r.createdAt.isSome = true) (hwritable : r.Writable) (hid : r.id ≠ .null)
    (hshows : r.Shows i) : Follows user marksNull loaded (rows ++ [r]) (cache.put i.id i) where
  tidy := h.tidy.append hnew htimed hwritable
  keyed := h.keyed.put i
  sound key j hj := by
    rw [NotificationCache.get?_put] at hj
    split at hj
    next hkey =>
      obtain rfl := Option.some.inj hj
      exact ⟨r, List.mem_append_right _ List.mem_cons_self, huser,
        (hkey.trans hshows.id_eq).symm, hshows⟩
    next =>
      obtain ⟨r', hr', hrest⟩ := h.sound key j hj
      exact ⟨r', List.mem_append_left _ hr', hrest⟩
  complete hloaded r' hr' huser' := by
    rw [NotificationCache.get?_put]
    split
    next => exact ⟨i, rfl⟩
    next hother =>
      rcases List.mem_append.mp hr' with hr' | hr'
      · exact h.complete hloaded r' hr' huser'
      · rw [List.mem_singleton.mp hr'] at hother
        exact absurd hshows.id_eq.symm hother
  settled hmarks r' hr' hnull := by
    rcases List.mem_append.mp hr' with hr' | hr'
    · exact h.settled hmarks r' hr' hnull
    · rw [List.mem_singleton.mp hr'] at hnull
      exact absurd hnull hid

/-- Writing a read row of the user in place of the one with its identifier, and storing its
message. -/
theorem mark (h : Follows user marksNull loaded rows cache) {written : NotificationRow}
    {i : NotificationItem} (hknown : ∃ r ∈ rows, r.id = written.id) (huser : written.userId = user)
    (htimed : written.createdAt.isSome = true) (hwritable : written.Writable)
    (hread : written.isRead = true) (hshows : written.Shows i) :
    Follows user marksNull loaded (rows.map fun r => if r.id = written.id then written else r)
      (cache.put i.id i) where
  tidy := h.tidy.replaced htimed hwritable
  keyed := h.keyed.put i
  sound key j hj := by
    rw [NotificationCache.get?_put] at hj
    split at hj
    next hkey =>
      obtain rfl := Option.some.inj hj
      obtain ⟨r, hr, hid⟩ := hknown
      exact ⟨written, List.mem_map.mpr ⟨r, hr, if_pos hid⟩, huser,
        (hkey.trans hshows.id_eq).symm, hshows⟩
    next hother =>
      obtain ⟨r, hr, huser', hid, hrest⟩ := h.sound key j hj
      have hne : r.id ≠ written.id := fun heq =>
        hother (hid.symm.trans (heq.trans hshows.id_eq.symm))
      exact ⟨r, List.mem_map.mpr ⟨r, hr, if_neg hne⟩, huser', hid, hrest⟩
  complete hloaded r hr huser' := by
    rw [NotificationCache.get?_put]
    split
    next => exact ⟨i, rfl⟩
    next hother =>
      rcases NotificationTable.mem_replaced hr with rfl | ⟨hr, -⟩
      · exact absurd hshows.id_eq.symm hother
      · exact h.complete hloaded r hr huser'
  settled hmarks r hr hnull := by
    rcases NotificationTable.mem_replaced hr with rfl | ⟨hr, -⟩
    · exact hread
    · exact h.settled hmarks r hr hnull

/-- It may be forgotten that a feed has been loaded. -/
theorem forget (h : Follows user marksNull True rows cache) :
    Follows user marksNull loaded rows cache :=
  ⟨h.tidy, h.keyed, h.sound, fun _ => h.complete trivial, h.settled⟩

end Follows

end Feed

end CustomerDedupe
