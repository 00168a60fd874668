import CustomerDedupe.Proofs.Notification.Faithful
import CustomerDedupe.Proofs.Notification.Mirror

/-!
# The row of a message that is marked as read

Marking a message as read writes the whole row anew, as the message has it that is held or looked up
(`marked_row_written`). Whatever the copy says of the title, the text, the kind and the time is what
the row says afterwards, so that its content stays exactly if the copy agrees with it in these
columns. A column that is null never agrees, since messages have no such values
(`null_columns_overwritten`).
-/

namespace CustomerDedupe

open Calendar (Instant)

namespace NotificationRow

/-- What a row holds besides its mark and the time of its last change. -/
def content (r : NotificationRow) : NotificationRow :=
  { r with isRead := false, updatedAt := none }

/-- A row says of its message what the message says of itself. A message without a time is of now. -/
structure Agrees (now : Instant) (r : NotificationRow) (i : NotificationItem) : Prop where
  title : r.title = i.title
  message : r.message = some i.message
  kind : r.kind = some i.kind
  created : r.createdAt = some (i.timestamp.getD now)

/-- None of a row's columns that a message shows is null. -/
structure Complete (r : NotificationRow) : Prop where
  message : r.message.isSome = true
  kind : r.kind.isSome = true
  created : r.createdAt.isSome = true

/-- The row of a user's message, marked as read. -/
def marked (moment : Moment) (user : Uuid) (i : NotificationItem) : NotificationRow :=
  ofItem moment user { i with isRead := true }

variable {moment : Moment} {user : Uuid} {r : NotificationRow} {i : NotificationItem}

theorem content_eq_iff {r r' : NotificationRow} : r.content = r'.content ↔
    r.id = r'.id ∧ r.userId = r'.userId ∧ r.title = r'.title ∧ r.message = r'.message ∧
      r.kind = r'.kind ∧ r.createdAt = r'.createdAt := by
  simp [content]

/-- A row keeps its content when it is marked exactly if it agrees with the message. -/
theorem content_marked_iff (hid : i.id = r.id) (hnull : r.id ≠ .null) (huser : r.userId = user) :
    (marked moment user i).content = r.content ↔ r.Agrees moment.now i := by
  have hkept : (marked moment user i).id = r.id := by
    simp only [marked, ofItem, hid, if_neg hnull]
  rw [content_eq_iff]
  constructor
  · rintro ⟨-, -, htitle, hmessage, hkind, hcreated⟩
    exact ⟨htitle.symm, hmessage.symm, hkind.symm, hcreated.symm⟩
  · rintro ⟨htitle, hmessage, hkind, hcreated⟩
    exact ⟨hkept, huser.symm, htitle.symm, hmessage.symm, hkind.symm, hcreated.symm⟩

/-- A row agrees with the message that it is read as exactly if no column is null. -/
theorem agrees_to_item_iff (now : Instant) : r.Agrees now (r.toItem now) ↔ r.Complete := by
  constructor
  · rintro ⟨-, hmessage, hkind, hcreated⟩
    exact ⟨hmessage ▸ rfl, hkind ▸ rfl, hcreated ▸ rfl⟩
  · rintro ⟨hmessage, hkind, hcreated⟩
    obtain ⟨message, hmessage⟩ := Option.isSome_iff_exists.mp hmessage
    obtain ⟨kind, hkind⟩ := Option.isSome_iff_exists.mp hkind
    obtain ⟨created, hcreated⟩ := Option.isSome_iff_exists.mp hcreated
    constructor <;> simp [toItem, hmessage, hkind, hcreated]

end NotificationRow

namespace Feed

open NotificationTable (Faithful Tidy tidyServer unreadRow)

variable {σ : Type} {table : σ → List NotificationRow} {ex : Rest.Exchange σ}

/-- What marking a message as read makes of the rows, if it changes them. It writes a row over the one
with the identifier, and nothing else. -/
structure Marks (moment : Moment) (user id : Uuid) (cache : NotificationCache)
    (before after : List NotificationRow) (i : NotificationItem) : Prop where
  found : Finds before cache moment.now id i
  unread : i.isRead = false
  written : after = before.map fun r =>
    if r.id = id then NotificationRow.marked moment user i else r
  /-- The user's row keeps its content exactly if it agrees with the message. -/
  kept : ∀ r ∈ before, r.id = id → r.userId = user → id ≠ .null →
    ((NotificationRow.marked moment user i).content = r.content ↔ r.Agrees moment.now i)
  /-- A row of which nothing is held keeps its content exactly if it is complete. -/
  kept_unheld : ∀ r ∈ before, r.id = id → r.userId = user → id ≠ .null → cache.get? id = none →
    ((NotificationRow.marked moment user i).content = r.content ↔ r.Complete)

/-- What is written over the row follows from the message found. -/
theorem marks_of_written {moment : Moment} {user id : Uuid} {cache : NotificationCache}
    {before after : List NotificationRow} {i : NotificationItem} (hkeyed : cache.Keyed)
    (hdistinct : (before.map NotificationRow.id).Nodup)
    (hfinds : Finds before cache moment.now id i) (hunread : i.isRead = false)
    (hafter : after = before.map fun r =>
      if r.id = id then NotificationRow.marked moment user i else r) :
    Marks moment user id cache before after i := by
  have hkept : ∀ r ∈ before, r.id = id → r.userId = user → id ≠ .null →
      ((NotificationRow.marked moment user i).content = r.content ↔ r.Agrees moment.now i) := by
    rintro r - rfl huser hnull
    exact NotificationRow.content_marked_iff (hfinds.id_eq hkeyed) hnull huser
  refine ⟨hfinds, hunread, hafter, hkept, fun r hr hid huser hnull hnone => ?_⟩
  -- the message is that of the row itself
  rcases hfinds with hheld | ⟨-, r', hr', hid', rfl⟩
  · rw [hnone] at hheld
    cases hheld
  · obtain rfl : r' = r := List.inj_on_of_nodup_map hdistinct hr' hr (hid'.trans hid.symm)
    rw [hkept r' hr' hid huser hnull, NotificationRow.agrees_to_item_iff]

/-- Marking a message as read either leaves the rows as they are or writes the one with the
identifier as the message has it. -/
theorem marked_row_written (hfaithful : Faithful table ex) {moment : Moment} {user id : Uuid}
    {s after : Session (Kept σ)} (huser : s.world.feed.user = some user)
    (hkeyed : s.world.feed.cache.Keyed)
    (hrun : (markAsRead ex moment id).run s = (.ok (), after)) :
    table after.world.outside = table s.world.outside ∨
      ∃ i, Marks moment user id s.world.feed.cache (table s.world.outside)
        (table after.world.outside) i := by
  let rows := table s.world.outside
  obtain ⟨hok, -⟩ := mark_as_read_at hfaithful.serving huser
    (fun written after => after = rows.map fun r => if r.id = id then written else r)
    (hfaithful.update_ensures id) s ⟨rfl, rfl⟩
  rcases hok () after hrun with hsame | ⟨i, _, hfinds, hunread, rfl, hafter⟩
  · exact .inl hsame.2
  · exact .inr ⟨i, marks_of_written hkeyed (hfaithful.distinct _) hfinds hunread hafter.2⟩

/-- A server that refuses nothing that can be stored takes the row of a message that is held. -/
theorem mark_held_on_server (moment : Moment) {f : Feed}
    {t : { rows : List NotificationRow // Tidy rows }} {user : Uuid} {i : NotificationItem}
    (huser : f.user = some user)
    (hheld : f.cache.get? i.id = some i) (hunread : i.isRead = false)
    (hwritable : (NotificationRow.marked moment user i).Writable)
    (htidy : Tidy (t.1.map fun r => if r.id = i.id then NotificationRow.marked moment user i else r))
    (journal : List Written) :
    ∃ later, (markAsRead tidyServer moment i.id).run ⟨⟨f, t⟩, journal⟩ =
      (.ok (), ⟨⟨f.store { i with isRead := true }, ⟨_, htidy⟩⟩, later⟩) := by
  obtain ⟨js, later, hrun⟩ := NotificationTable.tidy_server_update_ok hwritable htidy journal
  have hupdate : (outward (Rest.update tidyServer Json.anything tableName [.eq "id" i.id.text]
      (NotificationRow.marked moment user i).toJson)).run ⟨⟨f, t⟩, journal⟩ =
        (.ok js, ⟨⟨f, ⟨_, htidy⟩⟩, later⟩) := by
    rw [run_outward, hrun]
  exact ⟨later, mark_as_read_ok huser hheld hunread hupdate⟩

/-- A row of which no column is null. -/
def completeRow : NotificationRow :=
  { unreadRow (.ofNat 3) (.ofNat 1) with
    message := some "2 groups"
    kind := some NotificationItem.warning }

/-- A row with an outdated copy gets the title of the copy. -/
theorem outdated_title_written :
    let user : Uuid := .ofNat 1
    let moment : Moment := ⟨.midnight (.newYear 2025), .ofNat 2⟩
    let start : { rows // Tidy rows } := ⟨[completeRow], by decide⟩
    let copy : NotificationItem := { completeRow.toItem moment.now with title := "Outdated" }
    let feed : Feed := ⟨some user, [(copy.id, copy)], []⟩
    Faithful Subtype.val tidyServer ∧ feed.cache.Keyed ∧
      ∃ after, (markAsRead tidyServer moment copy.id).run ⟨⟨feed, start⟩, []⟩ = (.ok (), after) ∧
        (after.world.outside.1 = start.1 ∨
          ∃ i, Marks moment user copy.id feed.cache start.1 after.world.outside.1 i) ∧
        ∀ r ∈ after.world.outside.1, r.title = "Outdated" := by
  intro user moment start copy feed
  have hkeyed : feed.cache.Keyed := NotificationCache.Keyed.nil.put copy
  have hheld : feed.cache.get? copy.id = some copy := by decide
  have htitle : ∀ r ∈ start.1.map fun r =>
      if r.id = copy.id then NotificationRow.marked moment user copy else r,
      r.title = "Outdated" := by decide
  obtain ⟨later, hrun⟩ := mark_held_on_server moment (f := feed) (t := start) rfl hheld rfl
    (by decide) (by decide) []
  refine ⟨NotificationTable.tidy_server_faithful, hkeyed, _, hrun, ?_, htitle⟩
  exact marked_row_written NotificationTable.tidy_server_faithful rfl hkeyed hrun

/-- A row with null columns does not keep them, though the copy of it is new. -/
theorem null_columns_overwritten :
    let user : Uuid := .ofNat 1
    let moment : Moment := ⟨.midnight (.newYear 2025), .ofNat 2⟩
    let row := unreadRow (.ofNat 3) (.ofNat 1)
    let start : { rows // Tidy rows } := ⟨[unreadRow (.ofNat 3) (.ofNat 1)], by decide⟩
    let feed : Feed := ⟨some user, [(row.id, row.toItem moment.now)], []⟩
    Faithful Subtype.val tidyServer ∧ feed.cache.Keyed ∧ row ∈ start.1 ∧ row.userId = user ∧
      ∃ after, (markAsRead tidyServer moment row.id).run ⟨⟨feed, start⟩, []⟩ = (.ok (), after) ∧
        ∀ r ∈ after.world.outside.1, r.id = row.id → r.content ≠ row.content := by
  intro user moment row start feed
  have hkeyed : feed.cache.Keyed := NotificationCache.Keyed.nil.put (row.toItem moment.now)
  have hheld : feed.cache.get? row.id = some (row.toItem moment.now) := by decide
  have hcontent : ∀ r ∈ start.1.map fun r =>
      if r.id = row.id then NotificationRow.marked moment user (row.toItem moment.now) else r,
      r.id = row.id → r.content ≠ row.content := by decide
  obtain ⟨later, hrun⟩ := mark_held_on_server moment (f := feed) (t := start)
    (i := row.toItem moment.now) rfl hheld rfl (by decide) (by decide) []
  exact ⟨NotificationTable.tidy_server_faithful, hkeyed, by decide, rfl, _, hrun, hcontent⟩

end Feed

end CustomerDedupe
