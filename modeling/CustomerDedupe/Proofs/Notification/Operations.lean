import CustomerDedupe.Proofs.Notification.Changes

/-!
# What each operation does to a feed and the table

One rule for each operation, for a server that serves requests or refuses them. Whatever the server
refuses, an operation leaves the feed and the table as they are, or it does to both what is said here.
-/

namespace CustomerDedupe.Feed

open Calendar (Instant)
open NotificationTable (Serving matching)

variable {σ α : Type} {table : σ → List NotificationRow} {f : Feed} {rows : List NotificationRow}

theorem store_user (f : Feed) (i : NotificationItem) : (f.store i).user = f.user :=
  become_user _ _

theorem store_cache (f : Feed) (i : NotificationItem) : (f.store i).cache = f.cache.put i.id i :=
  become_cache _ _

/-- A feed, and the rows of the table. -/
def At (table : σ → List NotificationRow) (f : Feed) (rows : List NotificationRow) (w : Kept σ) :
    Prop :=
  w.feed = f ∧ table w.outside = rows

/-- Looking up an identifier finds the message that is held, or that of the row with it, whosever the
row is. -/
def Finds (rows : List NotificationRow) (cache : NotificationCache) (now : Instant) (id : Uuid)
    (i : NotificationItem) : Prop :=
  cache.get? id = some i ∨ cache.get? id = none ∧ ∃ r ∈ rows, r.id = id ∧ r.toItem now = i

/-- What is found has the identifier. -/
theorem Finds.id_eq {cache : NotificationCache} (hkeyed : cache.Keyed) {now : Instant} {id : Uuid}
    {i : NotificationItem} (h : Finds rows cache now id i) : i.id = id := by
  rcases h with hi | ⟨-, r, -, hid, rfl⟩
  · exact (hkeyed.get_iff.mp hi).2
  · exact hid

section Rules

variable {Q : α → Kept σ → Prop} {E : Kept σ → Prop}

/-- An action goes on with the feed as it is. -/
theorem current_at {k : Feed → Action (Kept σ) α} (h : Action.Ensures (At table f rows) (k f) Q E) :
    Action.Ensures (At table f rows) (current >>= k) Q E := by
  rintro s ⟨rfl, hrows⟩
  rw [Action.run_bind_ok (run_current s)]
  exact h s ⟨rfl, hrows⟩

/-- What is done outside the feed changes only the table. -/
theorem outward_at {a : Action σ α} {R : α → σ → Prop}
    (h : Action.Ensures (fun w => table w = rows) a R fun w => table w = rows) :
    Action.Ensures (At table f rows) (outward a) (fun x w => w.feed = f ∧ R x w.outside)
      (At table f rows) := by
  rintro ⟨⟨feed, outside⟩, journal⟩ ⟨rfl, hrows⟩
  obtain ⟨hok, herror⟩ := h ⟨outside, journal⟩ hrows
  rw [run_outward]
  rcases hrun : a.run ⟨outside, journal⟩ with ⟨e | x, after⟩
  · refine ⟨?_, ?_⟩
    · rintro x last ⟨⟩
    · rintro e last ⟨⟩
      exact ⟨rfl, herror e after hrun⟩
  · refine ⟨?_, ?_⟩
    · rintro x last ⟨⟩
      exact ⟨rfl, hok x after hrun⟩
    · rintro e last ⟨⟩

/-- Storing a message. -/
theorem store_at (rows : List NotificationRow) (i : NotificationItem) :
    Action.Ensures (At table f rows) (modify fun f => f.store i)
      (fun _ => At table (f.store i) rows) E := by
  rintro s ⟨rfl, hrows⟩
  refine ⟨?_, ?_⟩
  · rintro x after ⟨⟩
    exact ⟨rfl, hrows⟩
  · rintro e after ⟨⟩

end Rules

section Operations

variable {ex : Rest.Exchange σ} {user : Uuid} {moment : Moment}

/-- Applying a change takes in what it means for the user. -/
theorem change_at (huser : f.user = some user) (now : Instant) (c : RealtimeChange) :
    Action.Ensures (At table f rows) (applyChange now c)
      (fun _ => At table (f.learn now (Delta.read user c)) rows) (At table f rows) := by
  rintro s ⟨rfl, hrows⟩
  obtain ⟨journal, hrun⟩ := apply_change_run huser now c
  rw [hrun]
  refine ⟨?_, ?_⟩
  · rintro x after ⟨⟩
    exact ⟨rfl, hrows⟩
  · rintro e after ⟨⟩

variable (hserving : Serving table ex rows)

include hserving

/-- Rows that are read are those that match. -/
theorem rows_at (filters : List Rest.Filter) (order : Option Rest.Order) :
    Action.Ensures (At table f rows) (Feed.rows ex filters order)
      (fun found w => At table f rows w ∧ found.Perm (matching filters rows))
      (At table f rows) :=
  (outward_at (NotificationTable.select_ensures hserving filters order)).weaken
    (fun _ h => h) (fun _ _ h => ⟨⟨h.1, h.2.1⟩, h.2.2⟩) fun _ h => h

/-- Looking up a message changes nothing. -/
theorem look_up_at (now : Instant) (id : Uuid) :
    Action.Ensures (At table f rows) (lookUp ex now id)
      (fun found w => At table f rows w ∧ ∀ i, found = some i → Finds rows f.cache now id i)
      (At table f rows) := by
  refine current_at ?_
  split
  next i hi =>
    refine .pure fun w hw => ⟨hw, ?_⟩
    rintro j ⟨⟩
    exact .inl hi
  next hnone =>
    refine (rows_at hserving _ _).bind fun found => .of_and fun hfound => ?_
    refine .pure fun w hw => ⟨hw, ?_⟩
    intro i hi
    obtain ⟨r, hhead, rfl⟩ := Option.map_eq_some_iff.mp hi
    have hr := hfound.mem_iff.mp (List.mem_of_mem_head? hhead)
    rw [NotificationTable.mem_matching, NotificationRow.kept_by_id] at hr
    exact .inr ⟨hnone, r, hr.1, hr.2, rfl⟩

/-- Loading takes over the user's rows. -/
theorem get_at (huser : f.user = some user) (now : Instant) :
    Action.Ensures (At table f rows) (get ex now)
      (fun _ w => ∃ found : List NotificationRow, found.Perm (matching [.eq "user_id" user.text] rows) ∧
        At table (f.load (found.map (NotificationRow.toItem now))) rows w)
      (At table f rows) := by
  rintro s hs
  have hrows := rows_at hserving [.eq "user_id" user.text] (some ⟨"created_at", false⟩) s hs
  obtain ⟨rfl, rfl⟩ := hs
  obtain ⟨r, after, hrun⟩ : ∃ r after, (rowsOf ex user).run s = (r, after) := ⟨_, _, rfl⟩
  cases r with
  | error e =>
      obtain ⟨herror, hworld⟩ := get_refused ex huser hrun now
      refine ⟨?_, ?_⟩
      · intro x last hlast
        rw [hlast] at herror
        cases herror
      · intro e' last hlast
        rw [hlast] at hworld
        rw [hworld]
        exact hrows.2 e after hrun
  | ok found =>
      obtain ⟨hok, hworld⟩ := get_answered ex huser hrun now
      obtain ⟨⟨hfeed, htable⟩, hfound⟩ := hrows.1 found after hrun
      refine ⟨?_, ?_⟩
      · intro x last hlast
        rw [hlast] at hworld
        rw [hworld]
        exact ⟨found, hfound,
          congrArg (fun f : Feed => f.load (found.map (NotificationRow.toItem now))) hfeed, htable⟩
      · intro e' last hlast
        rw [hlast] at hok
        cases hok

/-- Unread messages are counted among those held, or if there are none, on the server. -/
theorem unread_count_at (huser : f.user = some user) :
    Action.Ensures (At table f rows) (unreadCount ex)
      (fun n w => At table f rows w ∧ n = if f.cache.isEmpty then
        (matching [.eq "user_id" user.text, .eq "is_read" "false"] rows).length
        else f.cache.unread)
      (At table f rows) := by
  refine current_at ?_
  simp only [huser]
  split
  next hheld =>
    rw [if_neg (by simpa using hheld)]
    exact .pure fun w hw => ⟨hw, rfl⟩
  next hempty =>
    rw [if_pos (by simpa using hempty)]
    refine (rows_at hserving _ _).bind fun found => .of_and fun hfound => ?_
    exact .pure fun w hw => ⟨hw, hfound.length_eq⟩

/-- Adding a message stores its row and then the message, unless the identifier is known. -/
theorem add_at (huser : f.user = some user) (item : NotificationItem) :
    Action.Ensures (At table f rows) (add ex moment item)
      (fun _ w => At table f rows w ∨ ∃ r, NotificationRow.ofJson? (NotificationRow.ofItem moment user
          { item with timestamp := some (item.timestamp.getD moment.now) }).toJson = some r ∧
        r.id ∉ rows.map NotificationRow.id ∧
        At table (f.store (r.toItem moment.now)) (rows ++ [r]) w)
      (At table f rows) := by
  refine current_at ?_
  simp only [huser]
  refine ((outward_at (NotificationTable.insert_ensures hserving _)).weaken
    (fun _ h => h) (fun _ _ h => h) fun _ h => h).bind fun stored => ?_
  split
  next =>
    refine .pure ?_
    rintro w ⟨hfeed, ⟨htable, -⟩ | ⟨_, -, -, -, hstored⟩⟩
    · exact .inl ⟨hfeed, htable⟩
    · cases hstored
  next r rest =>
    refine Action.Ensures.weaken (.of_and fun hnew : NotificationRow.ofJson? _ = some r ∧
      r.id ∉ rows.map NotificationRow.id => (store_at (rows ++ [r]) _).weaken (fun _ h => h)
        (fun _ w h => .inr ⟨r, hnew.1, hnew.2, h⟩) fun _ h => h) ?_ (fun _ _ h => h) fun _ h => h
    rintro w ⟨hfeed, ⟨-, hstored⟩ | ⟨r', hr', hnew, htable, hstored⟩⟩
    · cases hstored
    · obtain ⟨rfl, -⟩ := List.cons.inj hstored
      exact ⟨⟨hfeed, htable⟩, hr', hnew⟩

/-- Marking a message as read, if one is found and has not been read, writes it to the rows with its
identifier and then stores it. -/
theorem mark_as_read_at (huser : f.user = some user) {id : Uuid}
    (Effect : NotificationRow → List NotificationRow → Prop)
    (hupdate : ∀ written : NotificationRow, Action.Ensures (fun w => table w = rows)
      (Rest.update ex Json.anything tableName [.eq "id" id.text] written.toJson)
      (fun _ w => Effect written (table w)) fun w => table w = rows) :
    Action.Ensures (At table f rows) (markAsRead ex moment id)
      (fun _ w => At table f rows w ∨ ∃ i after, Finds rows f.cache moment.now id i ∧
        i.isRead = false ∧
        Effect (NotificationRow.ofItem moment user { i with isRead := true }) after ∧
        At table (f.store { i with isRead := true }) after w)
      (At table f rows) := by
  refine current_at ?_
  simp only [huser]
  refine (look_up_at hserving moment.now id).bind fun found => .of_and fun hfound => ?_
  split
  next => exact .pure fun w hw => .inl hw
  next i =>
    split
    next => exact .pure fun w hw => .inl hw
    next hunread =>
      refine (outward_at (hupdate _)).bind fun _ => ?_
      refine Action.Ensures.weaken (.of_exists fun after => .of_and fun heffect =>
        (store_at after _).weaken (fun _ h => h)
          (fun _ w h => .inr ⟨i, after, hfound i rfl, by simpa using hunread, heffect, h⟩)
          fun _ h => h) (fun w hw => ⟨table w.outside, ⟨hw.1, rfl⟩, hw.2⟩) (fun _ _ h => h)
        fun _ h => h

end Operations

/-! ## Single runs -/

section Runs

variable {ex : Rest.Exchange σ} {moment : Moment} {s found after : Session (Kept σ)} {user id : Uuid}

/-- A message that is held is not asked for. -/
theorem look_up_held {i : NotificationItem} (now : Instant)
    (hheld : s.world.feed.cache.get? id = some i) :
    (lookUp ex now id).run s = (.ok (some i), s) := by
  unfold lookUp
  rw [Action.run_bind_ok (run_current s)]
  simp only [hheld]
  rfl

/-- A message that is not held is that of the first row with its identifier. -/
theorem look_up_fetched {now : Instant} {rs : List NotificationRow}
    (hnone : s.world.feed.cache.get? id = none)
    (hrows : (Feed.rows ex [.eq "id" id.text] none).run s = (.ok rs, after)) :
    (lookUp ex now id).run s = (.ok (rs.head?.map (NotificationRow.toItem now)), after) := by
  unfold lookUp
  rw [Action.run_bind_ok (run_current s)]
  simp only [hnone]
  rw [Action.run_bind_ok hrows]
  rfl

/-- Marking a message that is found as read, if the server takes it. -/
theorem mark_found_ok {i : NotificationItem} {js : List Json}
    (huser : s.world.feed.user = some user)
    (hlook : (lookUp ex moment.now id).run s = (.ok (some i), found)) (hunread : i.isRead = false)
    (hupdate : (outward (Rest.update ex Json.anything tableName [.eq "id" id.text]
      (NotificationRow.ofItem moment user { i with isRead := true }).toJson)).run found =
        (.ok js, after)) :
    (markAsRead ex moment id).run s = (.ok (), { after with
      world := { after.world with feed := after.world.feed.store { i with isRead := true } } }) := by
  unfold markAsRead
  rw [Action.run_bind_ok (run_current s)]
  simp only [huser]
  rw [Action.run_bind_ok hlook]
  simp only [hunread, Bool.false_eq_true, if_false]
  rw [Action.run_bind_ok hupdate]
  rfl

/-- Marking a message that is held as read, if the server takes it. -/
theorem mark_as_read_ok {i : NotificationItem} {js : List Json}
    (huser : s.world.feed.user = some user) (hi : s.world.feed.cache.get? id = some i)
    (hunread : i.isRead = false)
    (hupdate : (outward (Rest.update ex Json.anything tableName [.eq "id" id.text]
      (NotificationRow.ofItem moment user { i with isRead := true }).toJson)).run s =
        (.ok js, after)) :
    (markAsRead ex moment id).run s = (.ok (), { after with
      world := { after.world with feed := after.world.feed.store { i with isRead := true } } }) :=
  mark_found_ok huser (look_up_held moment.now hi) hunread hupdate

/-- Adding a message, if the server stores a row. -/
theorem add_stored {item : NotificationItem} {r : NotificationRow} {rest : List NotificationRow}
    (huser : s.world.feed.user = some user)
    (hinsert : (outward (Rest.insert ex (Rest.record NotificationRow.schema) tableName
      (NotificationRow.ofItem moment user
        { item with timestamp := some (item.timestamp.getD moment.now) }).toJson)).run s =
        (.ok (r :: rest), after)) :
    (add ex moment item).run s = (.ok (), { after with
      world := { after.world with feed := after.world.feed.store (r.toItem moment.now) } }) := by
  unfold add
  rw [Action.run_bind_ok (run_current s)]
  simp only [huser]
  rw [Action.run_bind_ok hinsert]
  rfl

end Runs

end CustomerDedupe.Feed
