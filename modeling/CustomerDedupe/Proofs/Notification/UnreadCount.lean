import CustomerDedupe.Proofs.Notification.Moves

/-!
# Counting unread messages

A feed counts unread messages among those that it holds, or asks the server if it holds none. Without
other writers, every unread message that it holds is that of an unread row of the user, and once it has
loaded, every unread row has its message (`Counted`). So it never counts too many, and once it has
loaded or while it holds nothing, it counts the user's unread rows (`unread_count_agrees`). A feed that
has added a message without having loaded counts that one only (`added_message_counted_alone`).
-/

namespace CustomerDedupe

open Calendar (Instant)

/-- Whether a row is an unread one of a user. -/
def NotificationRow.isUnreadOf (user : Uuid) (r : NotificationRow) : Bool :=
  r.userId == user && !r.isRead

/-- Whether an unread message is held under an identifier. -/
def NotificationCache.holdsUnread (cache : NotificationCache) (id : Uuid) : Bool :=
  (cache.get? id).any fun i => !i.isRead

/-- The number of unread rows of a user. -/
def NotificationTable.unreadOf (user : Uuid) (rows : List NotificationRow) : Nat :=
  rows.countP (NotificationRow.isUnreadOf user)

/-- The number of unread rows of a user whose messages are held, unread. -/
def NotificationTable.unreadHeld (user : Uuid) (rows : List NotificationRow)
    (cache : NotificationCache) : Nat :=
  rows.countP fun r => r.isUnreadOf user && cache.holdsUnread r.id

theorem NotificationRow.is_unread_of_iff {user : Uuid} {r : NotificationRow} :
    r.isUnreadOf user = true ↔ r.userId = user ∧ r.isRead = false := by
  rw [isUnreadOf, Bool.and_eq_true, beq_iff_eq, Bool.not_eq_true']

theorem NotificationCache.holds_unread_iff {cache : NotificationCache} {id : Uuid} :
    cache.holdsUnread id = true ↔ ∃ i, cache.get? id = some i ∧ i.isRead = false := by
  rw [holdsUnread, Option.any_eq_true]
  simp only [Bool.not_eq_true']

namespace NotificationTable

/-- The rows with which the server answers are the unread ones. -/
theorem unread_matching (user : Uuid) (rows : List NotificationRow) :
    (matching [.eq "user_id" user.text, .eq "is_read" "false"] rows).length =
      unreadOf user rows := by
  rw [unreadOf, List.countP_eq_length_filter, matching]
  refine congrArg List.length (List.filter_congr fun r _ => ?_)
  rw [Bool.eq_iff_iff, NotificationRow.is_unread_of_iff, List.all_cons, List.all_cons, List.all_nil,
    Bool.and_true, Bool.and_eq_true, NotificationRow.kept_by_user, NotificationRow.kept_by_unread]

/-- Not all unread rows need have their messages. -/
theorem unread_held_le (user : Uuid) (rows : List NotificationRow) (cache : NotificationCache) :
    unreadHeld user rows cache ≤ unreadOf user rows := by
  refine List.countP_mono_left fun r _ h => ?_
  exact (Bool.and_eq_true_iff.mp h).1

end NotificationTable

namespace Feed

open NotificationTable (Faithful AnswersReads Tidy tidyServer matching unreadOf unreadHeld unreadRow)

/-- Every unread message that is held is that of an unread row of the user, and every unread row has
its message if the feed has loaded. -/
structure Counted (user : Uuid) (loaded : Prop) (v : View) : Prop where
  sound : ∀ id i, v.cache.get? id = some i → i.isRead = false →
    ∃ r ∈ v.rows, r.isUnreadOf user = true ∧ r.id = id
  complete : loaded → ∀ r ∈ v.rows, r.isUnreadOf user = true → v.cache.holdsUnread r.id = true

namespace Counted

variable {user : Uuid} {loaded : Prop} {v : View}

/-- The unread messages are as many as the rows whose messages they are. -/
theorem unread_eq (h : Counted user loaded v) :
    v.cache.unread = unreadHeld user v.rows v.cache := by
  let held := (v.cache.items.filter fun i => !i.isRead).map NotificationItem.id
  let unread := (v.rows.filter fun r => r.isUnreadOf user && v.cache.holdsUnread r.id).map
    NotificationRow.id
  have hheld : held.Nodup :=
    (List.filter_sublist.map NotificationItem.id).nodup v.keyed.distinct
  have hunread : unread.Nodup := (List.filter_sublist.map NotificationRow.id).nodup v.distinct
  have hperm : held.Perm unread := by
    refine (List.perm_ext_iff_of_nodup hheld hunread).mpr fun id => ?_
    simp only [held, unread, List.mem_map, List.mem_filter, Bool.and_eq_true, Bool.not_eq_true']
    constructor
    · rintro ⟨i, ⟨hi, hread⟩, rfl⟩
      have hget := v.keyed.get_iff.mpr ⟨hi, rfl⟩
      obtain ⟨r, hr, hunread, hid⟩ := h.sound i.id i hget hread
      exact ⟨r, ⟨hr, hunread, NotificationCache.holds_unread_iff.mpr ⟨i, hid ▸ hget, hread⟩⟩, hid⟩
    · rintro ⟨r, ⟨hr, -, hholds⟩, rfl⟩
      obtain ⟨i, hget, hread⟩ := NotificationCache.holds_unread_iff.mp hholds
      obtain ⟨hi, hid⟩ := v.keyed.get_iff.mp hget
      exact ⟨i, ⟨hi, hread⟩, hid⟩
  rw [NotificationCache.unread, unreadHeld, List.countP_eq_length_filter,
    List.countP_eq_length_filter]
  simpa [held, unread] using hperm.length_eq

/-- Of a feed that has loaded all unread rows have their messages. -/
theorem held_eq (h : Counted user loaded v) (hloaded : loaded) :
    unreadHeld user v.rows v.cache = unreadOf user v.rows := by
  refine List.countP_congr fun r hr => ?_
  rw [Bool.and_eq_true]
  exact ⟨And.left, fun hunread => ⟨hunread, h.complete hloaded r hr hunread⟩⟩

/-- A feed that holds nothing has counted nothing. -/
theorem empty (hcache : v.cache = []) : Counted user False v where
  sound id i hi := by
    rw [hcache] at hi
    cases hi
  complete := False.elim

/-- It may be forgotten that a feed has loaded. -/
theorem forget (h : Counted user True v) : Counted user loaded v :=
  ⟨h.sound, fun _ => h.complete trivial⟩

end Counted

/-- What a number of unread messages says of the user's unread rows. -/
structure CountsUnread (user : Uuid) (loaded : Prop) (rows : List NotificationRow)
    (cache : NotificationCache) (n : Nat) : Prop where
  /-- A feed that holds nothing says how many there are. -/
  asked : cache = [] → n = unreadOf user rows
  /-- Otherwise it says how many there are whose messages it holds unread. -/
  held : cache ≠ [] → n = unreadHeld user rows cache
  le : n ≤ unreadOf user rows
  /-- A feed that has loaded says how many there are. -/
  loaded : loaded → n = unreadOf user rows

/-- The number that a feed gives, which asks the server only if it holds nothing. -/
theorem Counted.counts {user : Uuid} {loaded : Prop} {v : View} (h : Counted user loaded v) {n : Nat}
    (hn : n = if v.cache.isEmpty then
      (matching [.eq "user_id" user.text, .eq "is_read" "false"] v.rows).length
      else v.cache.unread) : CountsUnread user loaded v.rows v.cache n := by
  rw [NotificationTable.unread_matching, h.unread_eq] at hn
  by_cases hcache : v.cache = []
  · rw [if_pos (List.isEmpty_iff.mpr hcache)] at hn
    exact ⟨fun _ => hn, fun hheld => absurd hcache hheld, Nat.le_of_eq hn, fun _ => hn⟩
  · rw [if_neg (mt List.isEmpty_iff.mp hcache)] at hn
    exact ⟨fun hempty => absurd hempty hcache, fun _ => hn,
      hn ▸ NotificationTable.unread_held_le user v.rows v.cache,
      fun hloaded => hn.trans (h.held_eq hloaded)⟩

section Moves

variable {user : Uuid} {loaded : Prop}

/-- Once a feed has loaded, exactly the unread rows of the user have unread messages. -/
theorem load_counted : Leads user .get (Counted user loaded) (Counted user True) := by
  intro v v' _ hmove
  cases hmove with
  | @load found now hfound hrows hcache =>
      have hget := @NotificationTable.loaded_get_iff _ _ v.distinct user hfound now
      refine ⟨?_, ?_⟩
      · intro id i hi hunread
        rw [hcache] at hi
        obtain ⟨r, hr, huser, hid, rfl⟩ := hget.mp hi
        exact ⟨r, hrows ▸ hr, NotificationRow.is_unread_of_iff.mpr ⟨huser, hunread⟩, hid⟩
      · intro _ r hr hunread
        obtain ⟨huser, hread⟩ := NotificationRow.is_unread_of_iff.mp hunread
        rw [hcache]
        exact NotificationCache.holds_unread_iff.mpr
          ⟨_, hget.mpr ⟨r, hrows ▸ hr, huser, rfl, rfl⟩, hread⟩
  | mark hmarks => exact hmarks.elim

/-- A row of the user that is added gets its message. -/
theorem add_counted {item : NotificationItem} :
    Leads user (.add item) (Counted user loaded) (Counted user loaded) := by
  intro v v' h hmove
  cases hmove with
  | @add _ new now huser hrows hcache =>
      have hnew : new ∈ v'.rows := hrows ▸ List.mem_append_right _ List.mem_cons_self
      refine ⟨?_, ?_⟩
      · intro id i hi hunread
        rw [hcache, NotificationCache.get?_put] at hi
        split at hi
        next hid =>
          obtain rfl := Option.some.inj hi
          exact ⟨new, hnew, NotificationRow.is_unread_of_iff.mpr ⟨huser, hunread⟩, hid.symm⟩
        next =>
          obtain ⟨r, hr, hrest⟩ := h.sound id i hi hunread
          exact ⟨r, hrows ▸ List.mem_append_left _ hr, hrest⟩
      · intro hloaded r hr hunread
        rw [hcache, NotificationCache.holdsUnread, NotificationCache.get?_put]
        split
        next hid =>
          obtain rfl := List.inj_on_of_nodup_map v'.distinct hr hnew hid
          simpa [NotificationRow.toItem] using (NotificationRow.is_unread_of_iff.mp hunread).2
        next hid =>
          rcases List.mem_append.mp (hrows ▸ hr) with hr | hr
          · exact h.complete hloaded r hr hunread
          · exact absurd (congrArg NotificationRow.id (List.mem_singleton.mp hr)) hid
  | mark hmarks => exact hmarks.elim

/-- A row that is marked as read and its message are both not unread any more. -/
theorem mark_counted {v v' : View} {i : NotificationItem} {written : NotificationRow}
    (h : Counted user loaded v) (hread : written.isRead = true)
    (hrows : v'.rows = v.rows.map fun r => if r.id = i.id then written else r)
    (hcache : v'.cache = v.cache.put i.id { i with isRead := true }) : Counted user loaded v' := by
  refine ⟨?_, ?_⟩
  · intro id j hj hunread
    rw [hcache, NotificationCache.get?_put] at hj
    split at hj
    next =>
      obtain rfl := Option.some.inj hj
      cases hunread
    next hid =>
      obtain ⟨r, hr, hrest, rfl⟩ := h.sound id j hj hunread
      refine ⟨r, ?_, hrest, rfl⟩
      rw [hrows]
      exact List.mem_map.mpr ⟨r, hr, if_neg hid⟩
  · intro hloaded r hr hunread
    obtain ⟨old, hold, hwritten⟩ := List.mem_map.mp (hrows ▸ hr)
    split at hwritten
    next =>
      rw [← hwritten] at hunread
      rw [(NotificationRow.is_unread_of_iff.mp hunread).2] at hread
      cases hread
    next hid =>
      obtain rfl := hwritten
      rw [hcache, NotificationCache.holdsUnread, NotificationCache.get?_put, if_neg hid]
      exact h.complete hloaded old hold hunread

/-- An operation that is not a pushed change keeps unread messages counted. -/
theorem leads_counted {op : Op} (hop : ∀ c, op ≠ .change c) :
    Leads user op (Counted user loaded) (Counted user loaded) := by
  intro v v' h hmove
  cases op with
  | change c => exact absurd rfl (hop c)
  | get => exact (load_counted v v' h hmove).forget
  | add item => exact add_counted v v' h hmove
  | markAsRead | markAllRead | markEach | unreadCount =>
      cases hmove with
      | mark _ _ _ _ hread hrows hcache => exact mark_counted h hread hrows hcache

end Moves

variable {σ : Type} {table : σ → List NotificationRow} {ex : Rest.Exchange σ} {user : Uuid}

/-- Loading succeeds if reading does. -/
theorem get_ok (hfaithful : Faithful table ex) (hreads : AnswersReads ex) (now : Instant)
    {s : Session (Kept σ)} (huser : s.world.feed.user = some user) :
    ∃ items after, (get ex now).run s = (.ok items, after) := by
  obtain ⟨found, after, hrows⟩ :=
    hfaithful.rows_ok hreads [.eq "user_id" user.text] (some ⟨"created_at", false⟩) s
  exact ⟨_, _, Prod.ext (get_answered ex huser hrows now).1 rfl⟩

/-- So does counting. -/
theorem unread_count_ok (hfaithful : Faithful table ex) (hreads : AnswersReads ex)
    {s : Session (Kept σ)} (huser : s.world.feed.user = some user) :
    ∃ n after, (unreadCount ex).run s = (.ok n, after) := by
  obtain ⟨found, after, hrows⟩ :=
    hfaithful.rows_ok hreads [.eq "user_id" user.text, .eq "is_read" "false"] none s
  unfold unreadCount
  rw [Action.run_bind_ok (run_current s)]
  simp only [huser]
  split
  next => exact ⟨_, _, rfl⟩
  next =>
    rw [Action.run_bind_ok hrows]
    exact ⟨_, _, rfl⟩

/-- A run of a new feed keeps unread messages counted, and all of them once it has loaded. -/
theorem ran_counted (hfaithful : Faithful table ex) (hreads : AnswersReads ex) {outside : σ}
    (journal : List Written) {ops : List (Moment × Op)} (hops : ∀ step ∈ ops, ∀ c, step.2 ≠ .change c) :
    Sees table user (Counted user (∃ moment, (moment, .get) ∈ ops))
      (ran ex ⟨⟨new (some user), outside⟩, journal⟩ ops).world := by
  have hstart : Sees table user (Counted user False) (⟨new (some user), outside⟩ : Kept σ) :=
    new_sees hfaithful fun v _ hcache => .empty hcache
  by_cases hget : ∃ moment, (moment, .get) ∈ ops
  · obtain ⟨moment, hmem⟩ := hget
    obtain ⟨earlier, later, rfl⟩ := List.append_of_mem hmem
    have hbefore := ran_keeps hfaithful (s := ⟨⟨new (some user), outside⟩, journal⟩) hstart
      fun step hstep => leads_counted (hops step (List.mem_append_left _ hstep))
    generalize hs : ran ex ⟨⟨new (some user), outside⟩, journal⟩ earlier = s at hbefore
    obtain ⟨items, after, hrun⟩ := get_ok hfaithful hreads moment.now hbefore.1
    have hloaded := (get_leads hfaithful load_counted moment.now s hbefore).1 items after hrun
    have hafter := ran_keeps hfaithful hloaded fun step hstep =>
      leads_counted (hops step (List.mem_append_right _ (List.mem_cons_of_mem _ hstep)))
    have hran : ran ex ⟨⟨new (some user), outside⟩, journal⟩ (earlier ++ (moment, .get) :: later) =
        ran ex after later := by
      have hstep : ((Op.get.act ex moment).run s).2 = after := by rw [act_get, hrun]
      rw [ran_append, hs, ← hstep]
      rfl
    rw [hran]
    exact hafter.imp fun _ h => h.forget
  · refine (ran_keeps hfaithful (s := ⟨⟨new (some user), outside⟩, journal⟩) hstart
      fun step hstep => leads_counted (hops step hstep)).imp fun v h => ⟨h.sound, ?_⟩
    exact fun hloaded => absurd hloaded hget

/-- Whatever a new feed without other writers does, it says how many unread rows the user has if it
holds nothing or has loaded, and otherwise how many of them have messages that it holds. -/
theorem unread_count_agrees (hfaithful : Faithful table ex) (hreads : AnswersReads ex)
    (user : Uuid) (outside : σ) (journal : List Written) {ops : List (Moment × Op)}
    (hops : ∀ step ∈ ops, ∀ c, step.2 ≠ .change c) :
    let s := ran ex ⟨⟨new (some user), outside⟩, journal⟩ ops
    ∃ n after, (unreadCount ex).run s = (.ok n, after) ∧
      CountsUnread user (∃ moment, (moment, .get) ∈ ops) (table s.world.outside)
        s.world.feed.cache n := by
  intro s
  obtain ⟨huser, v, hrows, hcache, hcounted⟩ :
      Sees table user (Counted user (∃ moment, (moment, .get) ∈ ops)) s.world :=
    ran_counted hfaithful hreads journal hops
  obtain ⟨n, after, hrun⟩ := unread_count_ok hfaithful hreads huser
  have hn := ((unread_count_at hfaithful.serving huser s ⟨rfl, rfl⟩).1 n after hrun).2
  rw [← hrows, ← hcache] at hn ⊢
  exact ⟨n, after, hrun, hcounted.counts hn⟩

/-- A feed that has loaded an unread row and marked it as read. -/
theorem unread_count_after_marking :
    let user : Uuid := .ofNat 1
    let moment : Moment := ⟨.midnight (.newYear 2025), .ofNat 2⟩
    let start : { rows // Tidy rows } :=
      ⟨[unreadRow (.ofNat 3) (.ofNat 1), unreadRow (.ofNat 4) (.ofNat 1)], by decide⟩
    let ops : List (Moment × Op) := [(moment, .get), (moment, .markAsRead (.ofNat 3))]
    let s := ran tidyServer ⟨⟨new (some user), start⟩, []⟩ ops
    Faithful Subtype.val tidyServer ∧ AnswersReads tidyServer ∧
      (∀ step ∈ ops, ∀ c, step.2 ≠ .change c) ∧
      ∃ n after, (unreadCount tidyServer).run s = (.ok n, after) ∧
        n = unreadOf user s.world.outside.1 := by
  intro user moment start ops s
  have hops : ∀ step ∈ ops, ∀ c, step.2 ≠ .change c := by
    simp [ops]
  obtain ⟨n, after, hrun, hcounts⟩ := unread_count_agrees NotificationTable.tidy_server_faithful
    NotificationTable.tidy_server_answers_reads user start [] hops
  exact ⟨NotificationTable.tidy_server_faithful, NotificationTable.tidy_server_answers_reads, hops,
    n, after, hrun, hcounts.loaded ⟨moment, List.mem_cons_self⟩⟩

/-- A feed that has added a message without having loaded does not count what was there before. -/
theorem added_message_counted_alone :
    let user : Uuid := .ofNat 1
    let moment : Moment := ⟨.midnight (.newYear 2025), .ofNat 2⟩
    let item := (unreadRow (.ofNat 4) user).toItem moment.now
    let start : { rows // Tidy rows } := ⟨[unreadRow (.ofNat 3) (.ofNat 1)], by decide⟩
    let s := ran tidyServer ⟨⟨new (some user), start⟩, []⟩ [(moment, .add item)]
    Faithful Subtype.val tidyServer ∧ AnswersReads tidyServer ∧
      ((unreadCount tidyServer).run s).1 = .ok 1 ∧ unreadOf user s.world.outside.1 = 2 := by
  intro user moment item start s
  let written := NotificationRow.ofItem moment user
    { item with timestamp := some (item.timestamp.getD moment.now) }
  have hwritten : Tidy (start.1 ++ [written]) := by decide
  obtain ⟨journal, hinsert⟩ : ∃ journal, (outward (Rest.insert tidyServer
      (Rest.record NotificationRow.schema) tableName written.toJson)).run
        ⟨⟨new (some user), start⟩, []⟩ =
          (.ok [written], ⟨⟨new (some user), ⟨_, hwritten⟩⟩, journal⟩) := by
    obtain ⟨later, hrun⟩ := NotificationTable.tidy_server_insert_ok (by decide) hwritten []
    rw [run_outward, hrun]
    exact ⟨later, rfl⟩
  have hadd := add_stored rfl hinsert
  have hran : s = ⟨⟨(new (some user)).store (written.toItem moment.now), ⟨_, hwritten⟩⟩, journal⟩ := by
    have hact : ran tidyServer ⟨⟨new (some user), start⟩, []⟩ [(moment, .add item)] =
        ((add tidyServer moment item).run ⟨⟨new (some user), start⟩, []⟩).2 := ran_single _ _ _ _
    exact hact.trans (congrArg Prod.snd hadd)
  rw [hran]
  have htwo : unreadOf user (start.1 ++ [written]) = 2 := by decide
  have hone : ((new (some user)).store (written.toItem moment.now)).cache.unread = 1 := by decide
  refine ⟨NotificationTable.tidy_server_faithful, NotificationTable.tidy_server_answers_reads, ?_,
    htwo⟩
  rw [← hone]
  rfl

end Feed

end CustomerDedupe
