import CustomerDedupe.Proofs.Notification.Follows
import CustomerDedupe.Proofs.Notification.Operations

/-!
# A feed mirrors the server

Every operation of a feed keeps it following the table of a server that nobody else writes to,
whichever requests the server refuses (`step_follows`). So after a load the feed holds exactly the
messages of the user's rows (`cache_mirrors_server`).

A row with the null identifier is an exception. A message with it is written under a fresh
identifier, so marking it as read takes the row from under the message (`null_row_not_mirrored`).
-/

namespace CustomerDedupe

open Calendar (FourDigits Instant)

namespace Feed

open NotificationTable (Tidy Serves matching)

/-! ## Operations -/

variable {σ α : Type}

/-- A feed of a user that follows the table. -/
def Following (table : σ → List NotificationRow) (user : Uuid) (marksNull loaded : Prop)
    (w : Kept σ) : Prop :=
  w.feed.user = some user ∧ Follows user marksNull loaded (table w.outside) w.feed.cache

section Rules

variable {table : σ → List NotificationRow} {f : Feed} {rows : List NotificationRow}
  {user : Uuid} {marksNull loaded : Prop} {Q : α → Kept σ → Prop} {E : Kept σ → Prop}

/-- What follows the table does so with some feed and some rows. -/
theorem of_following {a : Action (Kept σ) α}
    (h : ∀ f rows, f.user = some user → Follows user marksNull loaded rows f.cache →
      Action.Ensures (At table f rows) a Q E) :
    Action.Ensures (Following table user marksNull loaded) a Q E :=
  fun s hs => h _ _ hs.1 hs.2 s ⟨rfl, rfl⟩

variable (table) in
theorem at_following (huser : f.user = some user) (h : Follows user marksNull loaded rows f.cache)
    (w : Kept σ) (hw : At table f rows w) : Following table user marksNull loaded w := by
  obtain ⟨rfl, rfl⟩ := hw
  exact ⟨huser, h⟩

variable (table) in
/-- So does what has stored a message, if it follows the table with it. -/
theorem stored_following (huser : f.user = some user) {i : NotificationItem}
    (h : Follows user marksNull loaded rows (f.cache.put i.id i)) (w : Kept σ)
    (hw : At table (f.store i) rows w) : Following table user marksNull loaded w :=
  at_following table ((store_user f i).trans huser) ((store_cache f i).symm ▸ h) w hw

end Rules

section Operations

variable {table : σ → List NotificationRow} {ex : Rest.Exchange σ} {f : Feed}
  {rows : List NotificationRow} {user : Uuid} {marksNull loaded : Prop} {moment : Moment}

/-- A message that is found is that of the row with its identifier, whosever it is. -/
theorem found_shows (h : Follows user marksNull loaded rows f.cache) {now : Instant} {id : Uuid}
    {i : NotificationItem} (hi : Finds rows f.cache now id i) :
    ∃ r ∈ rows, r.id = id ∧ r.Shows i := by
  rcases hi with hi | ⟨-, r, hr, hid, rfl⟩
  · obtain ⟨r, hr, -, hid, hshows⟩ := h.sound id i hi
    exact ⟨r, hr, hid, hshows⟩
  · exact ⟨r, hr, hid, NotificationRow.shows_to_item (h.tidy.timed r hr) now⟩

variable (hserves : Serves table ex)

include hserves

/-- Marking a message as read. -/
theorem mark_as_read_follows {id : Uuid} (hmarks : id = .null → marksNull) :
    Action.Ensures (Following table user marksNull loaded) (markAsRead ex moment id)
      (fun _ => Following table user marksNull loaded)
      (Following table user marksNull loaded) := by
  refine of_following fun f rows huser h => ?_
  have hserving := hserves.serving h.tidy
  have hstays := at_following table huser h
  refine (mark_as_read_at hserving huser
    (fun written after =>
      after = rows.map (NotificationTable.overwrite [.eq "id" id.text] written.toJson))
    fun written => NotificationTable.update_ensures hserving _ _).weaken (fun _ h => h) ?_ hstays
  rintro - w (hw | ⟨i, after, hfound, hunread, rfl, hw⟩)
  · exact hstays w hw
  · obtain ⟨r, hr, rfl, hshows⟩ := found_shows h hfound
    have hid : i.id ≠ .null := by
      intro hnull
      rw [hshows.id_eq] at hnull
      rw [hshows.read_eq, h.settled (hmarks hnull) r hr hnull] at hunread
      cases hunread
    obtain ⟨t, ht⟩ := Option.isSome_iff_exists.mp (h.tidy.timed r hr)
    have htime : i.timestamp = some t := (hshows.timestamp_eq (h.tidy.timed r hr)).trans ht
    let updated : NotificationItem := { i with isRead := true }
    have hwritable : (NotificationRow.ofItem moment user updated).Writable := by
      refine NotificationRow.of_item_writable ?_
      show FourDigits (i.timestamp.getD moment.now).date.year
      rw [htime]
      exact (h.tidy.writable r hr).created t ht
    have hwritten : (NotificationRow.ofItem moment user updated).Shows updated :=
      NotificationRow.of_item_shows (show i.timestamp.isSome = true by rw [htime]; rfl) hid
    have hsame : (NotificationRow.ofItem moment user updated).id = r.id :=
      hwritten.id_eq.symm.trans hshows.id_eq
    have hmarked := h.mark ⟨r, hr, hsame.symm⟩ rfl rfl hwritable rfl hwritten
    rw [hsame] at hmarked
    rw [NotificationTable.overwrite_by_id hwritable] at hw
    exact stored_following table huser hmarked w hw

/-- Adding a message. -/
theorem add_follows {item : NotificationItem} (hnow : FourDigits moment.now.date.year)
    (hfresh : moment.freshId ≠ .null)
    (hitem : ∀ t, item.timestamp = some t → FourDigits t.date.year) :
    Action.Ensures (Following table user marksNull loaded) (add ex moment item)
      (fun _ => Following table user marksNull loaded)
      (Following table user marksNull loaded) := by
  refine of_following fun f rows huser h => ?_
  have hstays := at_following table huser h
  refine (add_at (hserves.serving h.tidy) huser item).weaken (fun _ h => h) ?_ hstays
  rintro - w (hw | ⟨r, hr, hnew, hw⟩)
  · exact hstays w hw
  · let timed : NotificationItem := { item with timestamp := some (item.timestamp.getD moment.now) }
    have hwritable : (NotificationRow.ofItem moment user timed).Writable := by
      refine NotificationRow.of_item_writable ?_
      show FourDigits (item.timestamp.getD moment.now).date.year
      cases htime : item.timestamp with
      | none => exact hnow
      | some t => exact hitem t htime
    obtain rfl : r = NotificationRow.ofItem moment user timed :=
      Option.some.inj (hr.symm.trans (NotificationRow.of_to_json hwritable))
    exact stored_following table huser (h.add hnew rfl rfl hwritable
      (NotificationRow.of_item_id_ne hfresh) (NotificationRow.shows_to_item rfl moment.now)) w hw

/-- Loading. -/
theorem get_follows (now : Instant) :
    Action.Ensures (Following table user marksNull loaded) (get ex now)
      (fun _ => Following table user marksNull True)
      (Following table user marksNull loaded) := by
  refine of_following fun f rows huser h => ?_
  refine (get_at (hserves.serving h.tidy) huser now).weaken (fun _ h => h) ?_
    (at_following table huser h)
  rintro - w ⟨found, hfound, hw⟩
  exact at_following table (f := f.load _) huser (h.load hfound now) w hw

/-- Counting unread messages. -/
theorem unread_count_follows :
    Action.Ensures (Following table user marksNull loaded) (unreadCount ex)
      (fun _ => Following table user marksNull loaded)
      (Following table user marksNull loaded) :=
  of_following fun _ _ huser h =>
    (unread_count_at (hserves.serving h.tidy) huser).weaken (fun _ h => h)
      (fun _ w hw => at_following table huser h w hw.1) (at_following table huser h)

/-- Marking all messages as read. -/
theorem mark_all_read_follows (hmarks : marksNull) :
    Action.Ensures (Following table user marksNull loaded) (markAllRead ex moment)
      (fun _ => Following table user marksNull loaded)
      (Following table user marksNull loaded) := by
  refine of_following fun f rows huser h => current_at ?_
  exact (Action.Ensures.for_each fun _ _ => mark_as_read_follows hserves fun _ => hmarks).weaken
    (at_following table huser h) (fun _ _ h => h) fun _ h => h

end Operations

/-! ## Runs -/

/-- An operation may mark the message with an identifier as read. -/
def Op.MayMark (id : Uuid) : Op → Prop
  | .markAsRead marked => marked = id
  | .markAllRead => True
  | .markEach ids => id ∈ ids
  | _ => False

/-- An operation that is not a pushed change, and whose messages have times in years of four
digits. -/
def Op.IsOwn : Op → Prop
  | .add item => ∀ t, item.timestamp = some t → FourDigits t.date.year
  | .change _ => False
  | _ => True

/-- A step of a feed on its own, in a year of four digits, with a fresh identifier that is one. -/
structure OwnStep (step : Moment × Op) : Prop where
  now : FourDigits step.1.now.date.year
  fresh : step.1.freshId ≠ .null
  own : step.2.IsOwn

instance : DecidablePred Op.IsOwn
  | .add item =>
    inferInstanceAs (Decidable (∀ t ∈ item.timestamp, FourDigits t.date.year))
  | .change _ => isFalse id
  | .get | .markAsRead _ | .markAllRead | .markEach _ | .unreadCount => isTrue trivial

instance (step : Moment × Op) : Decidable (OwnStep step) :=
  decidable_of_iff
    (FourDigits step.1.now.date.year ∧ step.1.freshId ≠ .null ∧ step.2.IsOwn)
    ⟨fun h => ⟨h.1, h.2.1, h.2.2⟩, fun h => ⟨h.now, h.fresh, h.own⟩⟩

section Runs

variable {table : σ → List NotificationRow} {ex : Rest.Exchange σ} (hserves : Serves table ex)
  {user : Uuid} {marksNull loaded : Prop}

include hserves

/-- A step keeps a feed following the table. -/
theorem step_follows {moment : Moment} {op : Op} (h : OwnStep (moment, op))
    (hmarks : op.MayMark .null → marksNull) :
    Action.Ensures (Following table user marksNull loaded) (op.act ex moment)
      (fun _ => Following table user marksNull loaded)
      (Following table user marksNull loaded) := by
  cases op with
  | get =>
      exact ((get_follows hserves moment.now).weaken (fun _ h => h)
        (fun _ _ h => ⟨h.1, h.2.forget⟩) fun _ h => h).bind fun _ => .pure fun _ h => h
  | add item => exact add_follows hserves h.now h.fresh h.own
  | markAsRead id => exact mark_as_read_follows hserves hmarks
  | markAllRead => exact mark_all_read_follows hserves (hmarks trivial)
  | markEach ids =>
      refine .for_each fun id hid => mark_as_read_follows hserves ?_
      rintro rfl
      exact hmarks hid
  | unreadCount => exact (unread_count_follows hserves).bind fun _ => .pure fun _ h => h
  | change c => exact h.own.elim

/-- So does a run. -/
theorem ran_follows {s : Session (Kept σ)} (hs : Following table user marksNull loaded s.world)
    {ops : List (Moment × Op)} (h : ∀ step ∈ ops, OwnStep step)
    (hmarks : ∀ step ∈ ops, step.2.MayMark .null → marksNull) :
    Following table user marksNull loaded (ran ex s ops).world := by
  induction ops generalizing s with
  | nil => exact hs
  | cons step ops ih =>
      refine ih ?_ (fun _ hstep => h _ (List.mem_cons_of_mem _ hstep))
        fun _ hstep => hmarks _ (List.mem_cons_of_mem _ hstep)
      exact (step_follows hserves (h step List.mem_cons_self)
        (hmarks step List.mem_cons_self)).world hs

/-- After a load, and whatever a feed does then, it holds exactly the messages of the user's rows,
if the server has no other clients and no unread row with the null identifier that may be marked
as read. -/
theorem cache_mirrors_server {outside : σ} (htidy : Tidy (table outside)) (journal : List Written)
    {earlier later : List (Moment × Op)} {moment : Moment}
    (hown : ∀ step ∈ earlier ++ (moment, .get) :: later, OwnStep step)
    (hnull : (∃ step ∈ earlier ++ (moment, .get) :: later, step.2.MayMark .null) →
      ∀ r ∈ table outside, r.id = .null → r.isRead = true)
    (hget : ∃ is, ((get ex moment.now).run
      (ran ex ⟨⟨new (some user), outside⟩, journal⟩ earlier)).1 = .ok is) :
    let after := (ran ex ⟨⟨new (some user), outside⟩, journal⟩
      (earlier ++ (moment, .get) :: later)).world
    Mirrors user (table after.outside) after.feed.cache := by
  intro after
  let marksNull : Prop := ∃ step ∈ earlier ++ (moment, .get) :: later, step.2.MayMark .null
  have hmarks : ∀ step ∈ earlier ++ (moment, .get) :: later, step.2.MayMark .null → marksNull :=
    fun step hstep hmark => ⟨step, hstep, hmark⟩
  have hstart : Following table user marksNull False (⟨new (some user), outside⟩ : Kept σ) :=
    ⟨rfl, .empty htidy hnull⟩
  have hbefore := ran_follows hserves (s := ⟨⟨new (some user), outside⟩, journal⟩) hstart
    (fun step hstep => hown step (List.mem_append_left _ hstep))
    fun step hstep => hmarks step (List.mem_append_left _ hstep)
  obtain ⟨is, his⟩ := hget
  have hload := (get_follows hserves moment.now _ hbefore).1 is _ (Prod.ext his rfl)
  have hlater : ∀ step ∈ later, step ∈ earlier ++ (moment, .get) :: later := fun step hstep =>
    List.mem_append_right _ (List.mem_cons_of_mem _ hstep)
  have hafter := ran_follows hserves hload (fun step hstep => hown step (hlater step hstep))
    fun step hstep => hmarks step (hlater step hstep)
  have hran : after = (ran ex ((get ex moment.now).run
      (ran ex ⟨⟨new (some user), outside⟩, journal⟩ earlier)).2 later).world := by
    rw [← act_get]
    exact congrArg Session.world (ran_append ex _ earlier ((moment, .get) :: later))
  rw [hran]
  exact hafter.2.mirrors trivial

end Runs

/-- The message of another user's row that is marked as read is held as well. -/
theorem feed_mirrors_server_after_marking :
    let user : Uuid := .ofNat 1
    let moment : Moment := ⟨.midnight (.newYear 2025), .ofNat 2⟩
    let rows := [NotificationTable.unreadRow (.ofNat 3) user,
      NotificationTable.unreadRow (.ofNat 4) (.ofNat 5)]
    let start : Session (Kept (List NotificationRow)) := ⟨⟨new (some user), rows⟩, []⟩
    let later : List (Moment × Op) := [(moment, .markAsRead (.ofNat 4))]
    let ops : List (Moment × Op) := [] ++ (moment, .get) :: later
    Serves (fun rows => rows) NotificationTable.server ∧ Tidy rows ∧
      (∀ step ∈ ops, OwnStep step) ∧
      (∀ r ∈ rows, r.id = .null → r.isRead = true) ∧
      (∃ is, ((get NotificationTable.server moment.now).run
        (ran NotificationTable.server start [])).1 = .ok is) ∧
      Mirrors user (ran NotificationTable.server start ops).world.outside
        (ran NotificationTable.server start ops).world.feed.cache := by
  intro user moment rows start later ops
  have htidy : Tidy rows := by decide
  have hown : ∀ step ∈ ops, OwnStep step := by decide
  have hnull : ∀ r ∈ rows, r.id = .null → r.isRead = true := by decide
  obtain ⟨journal, hrows⟩ := rows_of_server (s := start) htidy user
  have hget := (get_answered NotificationTable.server rfl hrows moment.now).1
  exact ⟨NotificationTable.server_serves, htidy, hown, hnull, ⟨_, hget⟩,
    cache_mirrors_server NotificationTable.server_serves htidy [] hown (fun _ => hnull) ⟨_, hget⟩⟩

/-- A loaded message with the null identifier that is marked as read keeps it, while its row on the
server gets another one. -/
theorem null_row_not_mirrored :
    let user : Uuid := .ofNat 1
    let moment : Moment := ⟨.midnight (.newYear 2025), .ofNat 2⟩
    let rows := [NotificationTable.unreadRow .null user]
    let start : Session (Kept (List NotificationRow)) := ⟨⟨new (some user), rows⟩, []⟩
    let later : List (Moment × Op) := [(moment, .markAsRead .null)]
    let ops : List (Moment × Op) := [] ++ (moment, .get) :: later
    Serves (fun rows => rows) NotificationTable.server ∧ Tidy rows ∧
      (∀ step ∈ ops, OwnStep step) ∧
      (∃ is, ((get NotificationTable.server moment.now).run
        (ran NotificationTable.server start [])).1 = .ok is) ∧
      ¬ Mirrors user (ran NotificationTable.server start ops).world.outside
        (ran NotificationTable.server start ops).world.feed.cache := by
  intro user moment rows start later ops
  have htidy : Tidy rows := by decide
  have hown : ∀ step ∈ ops, OwnStep step := by decide
  obtain ⟨journal, hrows⟩ := rows_of_server (s := start) htidy user
  have hrow : matching [.eq "user_id" user.text] start.world.outside =
      [NotificationTable.unreadRow .null user] := by decide
  rw [hrow, NotificationTable.arranged_singleton] at hrows
  obtain ⟨hget, hworld⟩ := get_answered NotificationTable.server rfl hrows moment.now
  refine ⟨NotificationTable.server_serves, htidy, hown, ⟨_, hget⟩, ?_⟩
  generalize hloaded : ((get NotificationTable.server moment.now).run start).2 = loaded at hworld
  let item := (NotificationTable.unreadRow .null user).toItem moment.now
  let read : NotificationItem := { item with isRead := true }
  let written := NotificationRow.ofItem moment user read
  have huser : loaded.world.feed.user = some user := congrArg (fun w => w.feed.user) hworld
  have hitem : loaded.world.feed.cache.get? .null = some item :=
    congrArg (fun w => w.feed.cache.get? .null) hworld
  have htable : loaded.world.outside = rows := congrArg Kept.outside hworld
  -- the row is written with the fresh identifier
  obtain ⟨js, journal', hupdate⟩ : ∃ js journal', (outward (Rest.update NotificationTable.server
      Json.anything tableName [.eq "id" (.null : Uuid).text] written.toJson)).run loaded =
        (.ok js, ⟨⟨loaded.world.feed, [written]⟩, journal'⟩) := by
    have htidy' : Tidy (rows.map fun r => if r.id = .null then written else r) := by decide
    obtain ⟨js, journal', hrun⟩ := NotificationTable.server_update_ok (by decide) htidy'
      loaded.journal
    rw [run_outward, htable, hrun]
    exact ⟨js, journal', rfl⟩
  have hmark := mark_as_read_ok huser hitem rfl hupdate
  have hran : (ran NotificationTable.server start ops).world =
      ⟨loaded.world.feed.store read, [written]⟩ := by
    rw [show ops = ([] ++ [(moment, .get)]) ++ [(moment, .markAsRead .null)] from rfl, ran_snoc,
      ran_snoc, act_get, show ran NotificationTable.server start [] = start from rfl, hloaded,
      Op.act, hmark]
  intro hmirrors
  rw [hran] at hmirrors
  have hread : (loaded.world.feed.store read).cache.get? .null = some read := by
    rw [store, become_cache, NotificationCache.get?_put]
    exact if_pos rfl
  obtain ⟨r, hr, -, hid, -⟩ := (hmirrors.messages default .null read).mp hread
  obtain rfl := List.mem_singleton.mp hr
  exact absurd hid (by decide)

end Feed

end CustomerDedupe
