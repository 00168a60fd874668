import CustomerDedupe.Proofs.Notification.Moves

/-!
# Rows of other users

What a feed of one user does to the rows of the others. It writes to such a row only when told to
mark it as read, or when a change has told of the identifier as one of the user's rows: requests name
the row by its identifier alone. All other rows it leaves as they are and holds no message of them
(`others_untouched`). An unread row of another user that is marked as read becomes the user's
(`marked_row_taken`).
-/

namespace CustomerDedupe.Feed

open Calendar (Instant)
open NotificationTable (Faithful Tidy tidyServer matching unreadRow)

/-- An operation of a user may take a row of another user. It is to mark the row as read, which it is
not yet, or it is a change that tells the user of a row with the identifier. -/
def Op.Takes (user : Uuid) (r : NotificationRow) : Op → Prop
  | .markAsRead id => id = r.id ∧ r.isRead = false
  | .markEach ids => r.id ∈ ids ∧ r.isRead = false
  | .change c => ∃ told, c.Tells user r.id (some told)
  | _ => False

/-- What a feed of a user leaves of the rows of the others, and holds of them. -/
structure LeavesOthers (user : Uuid) (ops : List (Moment × Op)) (before after : List NotificationRow)
    (cache : NotificationCache) : Prop where
  /-- A row that no operation may take is as it was, and there is no message of it. -/
  untouched : ∀ r ∈ before, r.userId ≠ user → (∀ step ∈ ops, ¬ step.2.Takes user r) →
    r ∈ after ∧ cache.get? r.id = none
  /-- No row of another user is new, or another than it was. -/
  unmodified : ∀ r ∈ after, r.userId ≠ user → r ∈ before

section Moves

variable {user : Uuid} {op : Op}

/-- An operation takes a row of which nothing is held by marking its message as read. -/
theorem takes_of_marks {v : View} {r : NotificationRow} {i : NotificationItem} {now : Instant}
    (hr : r ∈ v.rows) (hnone : v.cache.get? r.id = none) (hmarks : op.Marks v.cache i.id)
    (hfinds : Finds v.rows v.cache now i.id i) (hunread : i.isRead = false) (hid : r.id = i.id) :
    op.Takes user r := by
  rw [hid] at hnone
  -- the message is that of the row, which is therefore unread
  have hread : r.isRead = false := by
    rcases hfinds with hheld | ⟨-, r', hr', hid', rfl⟩
    · rw [hnone] at hheld
      cases hheld
    · obtain rfl := List.inj_on_of_nodup_map v.distinct hr' hr (hid'.trans hid.symm)
      exact hunread
  cases op with
  | markAsRead id => exact ⟨hmarks.trans hid.symm, hread⟩
  | markEach ids => exact ⟨hid ▸ hmarks, hread⟩
  | markAllRead =>
      rw [Op.Marks, hnone] at hmarks
      cases hmarks
  | get | add | unreadCount | change => exact hmarks.elim

/-- No move but one that may take the row touches a row of another user. -/
theorem leads_untouched {r : NotificationRow} (huser : r.userId ≠ user) (hop : ¬ op.Takes user r) :
    Leads user op (fun v => r ∈ v.rows ∧ v.cache.get? r.id = none)
      (fun v => r ∈ v.rows ∧ v.cache.get? r.id = none) := by
  rintro v v' ⟨hr, hnone⟩ hmove
  cases hmove with
  | load hfound hrows hcache =>
      refine ⟨hrows ▸ hr, Option.eq_none_iff_forall_ne_some.mpr fun i hi => ?_⟩
      rw [hcache] at hi
      obtain ⟨r', hr', hown, hid, -⟩ :=
        (NotificationTable.loaded_get_iff v.distinct hfound).mp hi
      obtain rfl := List.inj_on_of_nodup_map v.distinct hr' hr hid
      exact huser hown
  | @add item new now hown hrows hcache =>
      have hr' : r ∈ v'.rows := hrows ▸ List.mem_append_left _ hr
      have hnew : new ∈ v'.rows := hrows ▸ List.mem_append_right _ List.mem_cons_self
      refine ⟨hr', ?_⟩
      rw [hcache, NotificationCache.get?_put, if_neg, hnone]
      intro hid
      obtain rfl := List.inj_on_of_nodup_map v'.distinct hr' hnew hid
      exact huser hown
  | @mark _ i written now hmarks hfinds hunread hown hread hrows hcache =>
      have hid : r.id ≠ i.id := fun hid =>
        hop (takes_of_marks hr hnone hmarks hfinds hunread hid)
      refine ⟨?_, ?_⟩
      · rw [hrows]
        exact List.mem_map.mpr ⟨r, hr, if_neg hid⟩
      · rw [hcache, NotificationCache.get?_put, if_neg hid, hnone]
  | @store c told now htells hrows hcache =>
      refine ⟨hrows ▸ hr, ?_⟩
      rw [hcache, NotificationCache.get?_put, if_neg, hnone]
      intro hid
      exact hop ⟨told, hid ▸ htells⟩
  | @remove c id htells hrows hcache =>
      refine ⟨hrows ▸ hr, ?_⟩
      rw [hcache, NotificationCache.get_remove, hnone, ite_self]

/-- No move makes a row of another user, or another one of it. -/
theorem leads_unmodified {before : List NotificationRow} :
    Leads user op (fun v => ∀ r ∈ v.rows, r.userId ≠ user → r ∈ before)
      (fun v => ∀ r ∈ v.rows, r.userId ≠ user → r ∈ before) := by
  intro v v' hv hmove r hr huser
  cases hmove with
  | load _ hrows | store _ hrows | remove _ hrows => exact hv r (hrows ▸ hr) huser
  | add hown hrows =>
      rcases List.mem_append.mp (hrows ▸ hr) with hr | hr
      · exact hv r hr huser
      · obtain rfl := List.mem_singleton.mp hr
        exact absurd hown huser
  | @mark _ i written now hmarks hfinds hunread hown hread hrows hcache =>
      obtain ⟨old, hold, hwritten⟩ := List.mem_map.mp (hrows ▸ hr)
      split at hwritten
      next => exact absurd (hwritten ▸ hown) huser
      next => exact hwritten ▸ hv old hold (hwritten ▸ huser)

end Moves

variable {σ : Type} {table : σ → List NotificationRow} {ex : Rest.Exchange σ}

/-- Against a faithful server, a new feed leaves every row of another user as it is and holds no
message of it, unless one of its operations may take the row. -/
theorem others_untouched (hfaithful : Faithful table ex) (user : Uuid) (outside : σ)
    (journal : List Written) (ops : List (Moment × Op)) :
    let after := (ran ex ⟨⟨new (some user), outside⟩, journal⟩ ops).world
    LeavesOthers user ops (table outside) (table after.outside) after.feed.cache := by
  intro after
  refine ⟨?_, ?_⟩
  · intro r hr huser hops
    have hstart : Sees table user (fun v => r ∈ v.rows ∧ v.cache.get? r.id = none)
        ⟨new (some user), outside⟩ := by
      refine new_sees hfaithful fun v hrows hcache => ⟨hrows ▸ hr, ?_⟩
      rw [hcache]
      rfl
    obtain ⟨-, v, hrows, hcache, hkept⟩ := ran_keeps hfaithful
      (s := ⟨⟨new (some user), outside⟩, journal⟩) hstart
      fun step hstep => leads_untouched huser (hops step hstep)
    exact hrows ▸ hcache ▸ hkept
  · have hstart : Sees table user (fun v => ∀ r ∈ v.rows, r.userId ≠ user → r ∈ table outside)
        ⟨new (some user), outside⟩ :=
      new_sees hfaithful fun v hrows _ r hr _ => hrows ▸ hr
    obtain ⟨-, v, hrows, -, hkept⟩ := ran_keeps hfaithful
      (s := ⟨⟨new (some user), outside⟩, journal⟩) hstart fun _ _ => leads_unmodified
    exact hrows ▸ hkept

/-- Another user's row while the user loads and marks all messages as read. -/
theorem other_row_untouched :
    let user : Uuid := .ofNat 1
    let moment : Moment := ⟨.midnight (.newYear 2025), .ofNat 2⟩
    let other := unreadRow (.ofNat 4) (.ofNat 5)
    let start : { rows // Tidy rows } :=
      ⟨[unreadRow (.ofNat 3) (.ofNat 1), unreadRow (.ofNat 4) (.ofNat 5)], by decide⟩
    let ops : List (Moment × Op) :=
      [(moment, .get), (moment, .markAllRead), (moment, .markAsRead (.ofNat 3))]
    let after := (ran tidyServer ⟨⟨new (some user), start⟩, []⟩ ops).world
    Faithful Subtype.val tidyServer ∧
      LeavesOthers user ops start.1 after.outside.1 after.feed.cache ∧
      other ∈ after.outside.1 ∧ after.feed.cache.get? other.id = none := by
  intro user moment other start ops after
  have hleaves : LeavesOthers user ops start.1 after.outside.1 after.feed.cache :=
    others_untouched NotificationTable.tidy_server_faithful user start [] ops
  have hops : ∀ step ∈ ops, ¬ step.2.Takes user other := by
    have hid : Uuid.ofNat 3 ≠ Uuid.ofNat 4 := by decide
    simp [ops, Op.Takes, other, unreadRow, hid]
  exact ⟨NotificationTable.tidy_server_faithful, hleaves,
    hleaves.untouched other (by decide) (by decide) hops⟩

/-- An unread row of another user becomes the user's when the user marks it as read. -/
theorem marked_row_taken :
    let user : Uuid := .ofNat 1
    let moment : Moment := ⟨.midnight (.newYear 2025), .ofNat 2⟩
    let other := unreadRow (.ofNat 3) (.ofNat 5)
    let start : { rows // Tidy rows } := ⟨[unreadRow (.ofNat 3) (.ofNat 5)], by decide⟩
    let after := (ran tidyServer ⟨⟨new (some user), start⟩, []⟩
      [(moment, .markAsRead other.id)]).world
    Faithful Subtype.val tidyServer ∧ other ∈ start.1 ∧ other.userId ≠ user ∧
      other ∉ after.outside.1 ∧ (∃ r ∈ after.outside.1, r.id = other.id ∧ r.userId = user) ∧
      (after.feed.cache.get? other.id).isSome = true := by
  intro user moment other start after
  let read : NotificationItem := { other.toItem moment.now with isRead := true }
  let written := NotificationRow.ofItem moment user read
  let rows := start.1.map fun r => if r.id = other.id then written else r
  have hwritten : Tidy rows := by decide
  have hgone : other ∉ rows := by decide
  have htaken : written ∈ rows := by decide
  -- the row is found by its identifier
  obtain ⟨journal, hrows⟩ : ∃ journal, (Feed.rows tidyServer [.eq "id" other.id.text] none).run
      ⟨⟨new (some user), start⟩, []⟩ = (.ok [other], ⟨⟨new (some user), start⟩, journal⟩) := by
    have hmatching : matching [.eq "id" other.id.text] start.1 = [other] := by decide
    obtain ⟨later, hrun⟩ := NotificationTable.tidy_server_select_ok start
      [.eq "id" other.id.text] []
    rw [hmatching] at hrun
    unfold Feed.rows
    rw [run_outward, hrun]
    exact ⟨later, rfl⟩
  have hlook : (lookUp tidyServer moment.now other.id).run ⟨⟨new (some user), start⟩, []⟩ =
      (.ok (some (other.toItem moment.now)), ⟨⟨new (some user), start⟩, journal⟩) :=
    look_up_fetched rfl hrows
  -- and written by its identifier
  obtain ⟨js, journal', hupdate⟩ : ∃ js journal', (outward (Rest.update tidyServer Json.anything
      tableName [.eq "id" other.id.text] written.toJson)).run
        ⟨⟨new (some user), start⟩, journal⟩ =
          (.ok js, ⟨⟨new (some user), ⟨rows, hwritten⟩⟩, journal'⟩) := by
    obtain ⟨js, later, hrun⟩ := NotificationTable.tidy_server_update_ok (by decide) hwritten journal
    rw [run_outward, hrun]
    exact ⟨js, later, rfl⟩
  have hunread : (other.toItem moment.now).isRead = false := rfl
  have hmark := mark_found_ok rfl hlook hunread hupdate
  have hran : (ran tidyServer ⟨⟨new (some user), start⟩, []⟩
      [(moment, .markAsRead other.id)]).world = ⟨(new (some user)).store read, ⟨rows, hwritten⟩⟩ := by
    rw [ran_single, Op.act, hmark]
  have hafter : after = ⟨(new (some user)).store read, ⟨rows, hwritten⟩⟩ := hran
  rw [hafter]
  refine ⟨NotificationTable.tidy_server_faithful, by decide, by decide, hgone,
    ⟨written, htaken, rfl, rfl⟩, ?_⟩
  have hid : other.id = read.id := rfl
  rw [store_cache, NotificationCache.get?_put, if_pos hid]
  rfl

end CustomerDedupe.Feed
