import Mathlib.Data.List.Induction
import Mathlib.Logic.Relation
import CustomerDedupe.Notification.Feed
import CustomerDedupe.Proofs.Action
import CustomerDedupe.Proofs.Notification.Cache
import CustomerDedupe.Proofs.Notification.Server

/-!
# What a feed announces

All that the operations of a feed do to it is to store and to remove messages one at a time
(`Write`), but for loading, which replaces them all. A feed is `Truthful` if what it announced last
is what it holds. Each write keeps it so and announces no number twice (`write_announces`), loading
keeps it so if the rows are loadable, and hence every run of operations does
(`announcements_tell_truth`).
-/

namespace CustomerDedupe

open Calendar (Instant)

def FeedEvent.unread? : FeedEvent → Option Nat
  | .unread count => some count
  | .feed _ => none

def FeedEvent.items? : FeedEvent → Option (List NotificationItem)
  | .unread _ => none
  | .feed items => some items

namespace Feed

/-- The number of unread messages announced last, or zero. -/
def announcedUnread (events : List FeedEvent) : Nat :=
  (events.findSome? FeedEvent.unread?).getD 0

/-- The messages announced last. -/
def announcedItems (events : List FeedEvent) : List NotificationItem :=
  (events.findSome? FeedEvent.items?).getD []

/-- What a feed announced last is what it holds. -/
structure Truthful (f : Feed) : Prop where
  unread : announcedUnread f.events = f.cache.unread
  perm : (announcedItems f.events).Perm f.cache.items
  newestFirst : NotificationCache.NewestFirst (announcedItems f.events)
  keyed : f.cache.Keyed

/-- No number of unread messages among the news, last first, is the one announced before it. -/
def NoRepeats (earlier : List FeedEvent) : List FeedEvent → Prop
  | [] => True
  | e :: news =>
    NoRepeats earlier news ∧ ∀ n, e = .unread n → n ≠ announcedUnread (news ++ earlier)

theorem NoRepeats.append {earlier news later : List FeedEvent} (h : NoRepeats earlier news)
    (hlater : NoRepeats (news ++ earlier) later) : NoRepeats earlier (later ++ news) := by
  induction later with
  | nil => exact h
  | cons e later ih =>
      obtain ⟨hrest, hnew⟩ := hlater
      rw [← List.append_assoc] at hnew
      exact ⟨ih hrest, hnew⟩

/-! ## Writes -/

/-- A message is stored in a feed or removed from it. -/
inductive Write : Feed → Feed → Prop
  | store (f : Feed) (i : NotificationItem) : Write f (f.store i)
  | remove (f : Feed) (id : Uuid) : Write f (f.remove id)

/-- What a feed announces has truly changed. -/
structure Announces (before after : Feed) : Prop where
  truthful : after.Truthful
  news : ∃ news, after.events = news ++ before.events ∧ NoRepeats before.events news

/-- The news of a changed copy. -/
theorem become_events (f : Feed) (cache : NotificationCache) :
    (f.become cache).events =
      .feed cache.snapshot ::
        (if cache.unread = f.cache.unread then [] else [.unread cache.unread]) ++ f.events := by
  unfold become
  split <;> rfl

theorem become_user (f : Feed) (cache : NotificationCache) : (f.become cache).user = f.user := by
  unfold become
  split <;> rfl

theorem become_cache (f : Feed) (cache : NotificationCache) : (f.become cache).cache = cache := by
  unfold become
  split <;> rfl

/-- Taking over a changed copy announces truly what has changed. -/
theorem Truthful.become {f : Feed} (h : f.Truthful) {cache : NotificationCache}
    (hkeyed : cache.Keyed) : Announces f (f.become cache) := by
  refine ⟨⟨?_, ?_, ?_, ?_⟩, _, become_events f cache, ?_⟩
  · rw [become_events, become_cache]
    split
    next hsame =>
      rw [hsame]
      exact h.unread
    next => rfl
  · rw [become_events, become_cache]
    exact cache.snapshot_perm
  · rw [become_events]
    exact cache.snapshot_newest_first
  · rw [become_cache]
    exact hkeyed
  · refine ⟨?_, by simp⟩
    split
    next => trivial
    next hdiffers =>
      refine ⟨trivial, ?_⟩
      intro n hn
      rw [List.nil_append, h.unread, ← FeedEvent.unread.inj hn]
      exact hdiffers

/-- A write is announced truly. -/
theorem write_announces {f g : Feed} (h : f.Truthful) (hwrite : Write f g) : Announces f g := by
  cases hwrite with
  | store i => exact h.become (h.keyed.put i)
  | remove id => exact h.become (h.keyed.remove id)

/-- So are writes one after another. -/
theorem writes_announce {f g : Feed} (h : f.Truthful) (hwrites : Relation.ReflTransGen Write f g) :
    Announces f g := by
  induction hwrites with
  | refl => exact ⟨h, [], rfl, trivial⟩
  | tail _ hlast ih =>
      obtain ⟨htruthful, news, hnews, hfresh⟩ := ih
      obtain ⟨htruthful', later, hlater, hfresh'⟩ := write_announces htruthful hlast
      refine ⟨htruthful', later ++ news, ?_, ?_⟩
      · rw [hlater, hnews, List.append_assoc]
      · rw [hnews] at hfresh'
        exact hfresh.append hfresh'

/-! ## Loading -/

/-- Rows with different identifiers, all with a time, from the newest to the oldest. -/
structure Loadable (rs : List NotificationRow) : Prop where
  distinct : (rs.map NotificationRow.id).Nodup
  newestFirst : rs.Pairwise fun a b =>
    ∃ t u, a.createdAt = some t ∧ b.createdAt = some u ∧ u ≤ t
  timed : ∀ r ∈ rs, r.createdAt.isSome = true

/-- Loaded messages are announced truly. -/
theorem load_truthful (f : Feed) (now : Instant) {rs : List NotificationRow} (h : Loadable rs) :
    (f.load (rs.map (NotificationRow.toItem now))).Truthful where
  unread := rfl
  perm := by
    have hids : (rs.map (NotificationRow.toItem now)).map NotificationItem.id =
        rs.map NotificationRow.id := by
      rw [List.map_map]
      rfl
    exact (NotificationCache.of_items_perm (hids ▸ h.distinct)).symm
  newestFirst := by
    refine List.pairwise_map.mpr (h.newestFirst.imp ?_)
    rintro a b ⟨t, u, ha, hb, hle⟩ v hv
    refine ⟨t, ?_, ?_⟩
    · rw [NotificationRow.toItem, ha, Option.getD_some]
    · rw [NotificationRow.toItem, hb, Option.getD_some] at hv
      exact Option.some.inj hv ▸ hle
  keyed := NotificationCache.Keyed.of_items _

/-! ## What actions write -/

variable {σ α β : Type}

/-- An action does nothing to the feed but write. -/
def Writes (a : Action (Kept σ) α) : Prop :=
  ∀ s, Relation.ReflTransGen Write s.world.feed (a.run s).2.world.feed

theorem run_current (s : Session (Kept σ)) : current.run s = (.ok s.world.feed, s) :=
  rfl

/-- What is done outside a feed leaves the feed. -/
theorem run_outward (a : Action σ α) (s : Session (Kept σ)) :
    (outward a).run s =
      let (r, after) := a.run ⟨s.world.outside, s.journal⟩
      (r, ⟨⟨s.world.feed, after.world⟩, after.journal⟩) := rfl

namespace Writes

theorem pure (x : α) : Writes (σ := σ) (Pure.pure x) :=
  fun _ => .refl

theorem note (level : Level) (message : String) : Writes (σ := σ) (note level message) :=
  fun _ => .refl

theorem current : Writes (σ := σ) current :=
  fun _ => .refl

theorem outward (a : Action σ α) : Writes (outward a) :=
  fun _ => .refl

theorem store (i : NotificationItem) : Writes (σ := σ) (modify fun f => f.store i) :=
  fun s => .single (.store s.world.feed i)

theorem remove (id : Uuid) : Writes (σ := σ) (modify fun f => f.remove id) :=
  fun s => .single (.remove s.world.feed id)

/-- Actions after one another write what each of them does, up to a failure. -/
theorem bind {a : Action (Kept σ) α} (ha : Writes a) {f : α → Action (Kept σ) β}
    (hf : ∀ x, Writes (f x)) : Writes (a >>= f) := by
  intro s
  rcases Action.run_bind_cases a f s with ⟨e, h⟩ | ⟨x, h⟩ <;> rw [h]
  · exact ha s
  · exact (ha s).trans (hf x _)

/-- The same action for each of some values. -/
theorem for_each {f : α → Action (Kept σ) PUnit} (hf : ∀ x, Writes (f x)) (xs : List α) :
    Writes (xs.forM f) := by
  induction xs with
  | nil => exact pure _
  | cons x xs ih => exact (hf x).bind fun _ => ih

end Writes

variable (ex : Rest.Exchange σ) (moment : Moment)

theorem rows_writes (filters : List Rest.Filter) (order : Option Rest.Order) :
    Writes (rows ex filters order) :=
  .outward _

theorem unread_count_writes : Writes (unreadCount ex) := by
  refine Writes.current.bind fun f => ?_
  split
  · exact .pure _
  · split
    · exact (Writes.note _ _).bind fun _ => .pure _
    · exact (rows_writes ex _ _).bind fun _ => .pure _

theorem look_up_writes (now : Instant) (id : Uuid) : Writes (lookUp ex now id) := by
  refine Writes.current.bind fun f => ?_
  split
  · exact .pure _
  · exact (rows_writes ex _ _).bind fun _ => .pure _

theorem mark_as_read_writes (id : Uuid) : Writes (markAsRead ex moment id) := by
  refine Writes.current.bind fun f => ?_
  split
  · exact .note _ _
  · refine (look_up_writes ex moment.now id).bind fun found => ?_
    split
    · exact .pure _
    · split
      · exact .pure _
      · exact (Writes.outward _).bind fun _ => .store _

theorem mark_all_read_writes : Writes (markAllRead ex moment) :=
  Writes.current.bind fun _ => .for_each (mark_as_read_writes ex moment) _

theorem add_writes (item : NotificationItem) : Writes (add ex moment item) := by
  refine Writes.current.bind fun f => ?_
  split
  · exact .note _ _
  · refine (Writes.outward _).bind fun stored => ?_
    split
    · exact .pure _
    · exact .store _

theorem apply_change_writes (now : Instant) (c : RealtimeChange) :
    Writes (σ := σ) (applyChange now c) := by
  refine Writes.current.bind fun f => ?_
  split
  · exact .pure _
  · split
    · exact .pure _
    · exact .note _ _
    · exact .store _
    · exact .remove _

/-- The rows of a user on the server, newest first. -/
def rowsOf (user : Uuid) : Action (Kept σ) (List NotificationRow) :=
  rows ex [.eq "user_id" user.text] (some ⟨"created_at", false⟩)

/-- Loading without a user leaves a feed as it is. -/
theorem get_of_no_user {s : Session (Kept σ)} (huser : s.world.feed.user = none) (now : Instant) :
    ((get ex now).run s).2.world = s.world := by
  unfold get
  rw [Action.run_bind_ok (run_current s), huser]
  rfl

section Answers

variable {s after : Session (Kept σ)} {user : Uuid} (huser : s.world.feed.user = some user)

include huser

/-- Loading fails if the server gives no rows. -/
theorem get_refused {e : Failure} (hrows : (rowsOf ex user).run s = (.error e, after))
    (now : Instant) :
    ((get ex now).run s).1 = .error e ∧ ((get ex now).run s).2.world = after.world := by
  unfold rowsOf at hrows
  unfold get
  rw [Action.run_bind_ok (run_current s), huser]
  simp only
  rw [Action.run_bind_ok (Action.run_outcome hrows)]
  exact ⟨rfl, rfl⟩

/-- Loading takes over the rows with which the server answers. -/
theorem get_answered {rs : List NotificationRow}
    (hrows : (rowsOf ex user).run s = (.ok rs, after)) (now : Instant) :
    ((get ex now).run s).1 = .ok (rs.map (NotificationRow.toItem now)) ∧
      ((get ex now).run s).2.world = { after.world with
        feed := after.world.feed.load (rs.map (NotificationRow.toItem now)) } := by
  unfold rowsOf at hrows
  unfold get
  rw [Action.run_bind_ok (run_current s), huser]
  simp only
  rw [Action.run_bind_ok (Action.run_outcome hrows)]
  exact ⟨rfl, rfl⟩

end Answers

/-- The server gives the rows of a tidy table. -/
theorem rows_of_server {s : Session (Kept (List NotificationRow))}
    (htidy : NotificationTable.Tidy s.world.outside) (user : Uuid) :
    ∃ journal, (rowsOf NotificationTable.server user).run s =
      (.ok (NotificationTable.arranged
        (NotificationTable.matching [.eq "user_id" user.text] s.world.outside)
        (some ⟨"created_at", false⟩)), ⟨s.world, journal⟩) := by
  have hwritable : ∀ r ∈ NotificationTable.arranged
      (NotificationTable.matching [.eq "user_id" user.text] s.world.outside)
      (some ⟨"created_at", false⟩), r.Writable := fun r hr =>
    htidy.writable r (List.mem_of_mem_filter ((NotificationTable.arranged_perm _ _).mem_iff.mp hr))
  obtain ⟨later, hrun⟩ := NotificationTable.server_rows_ok
    (r := ⟨.select, tableName, [.eq "user_id" user.text], some ⟨"created_at", false⟩⟩) rfl rfl htidy
    (NotificationTable.document_answers hwritable).rows s.journal
  unfold rowsOf rows Rest.select
  rw [run_outward, hrun]
  exact ⟨later, rfl⟩

/-- Asking for rows leaves a feed as it is. -/
theorem rows_of_feed {s after : Session (Kept σ)} {user : Uuid}
    {r : Except Failure (List NotificationRow)} (hrows : (rowsOf ex user).run s = (r, after)) :
    after.world.feed = s.world.feed := by
  obtain rfl : ((rowsOf ex user).run s).2 = after := congrArg Prod.snd hrows
  rfl

/-- Loading leaves a feed as it is, or it takes over the rows with which the server answers. -/
theorem get_loads (now : Instant) (s : Session (Kept σ)) :
    ((get ex now).run s).2.world.feed = s.world.feed ∨
      ∃ user rs, s.world.feed.user = some user ∧ ((rowsOf ex user).run s).1 = .ok rs ∧
        ((get ex now).run s).2.world.feed =
          s.world.feed.load (rs.map (NotificationRow.toItem now)) := by
  cases huser : s.world.feed.user with
  | none => exact .inl (congrArg Kept.feed (get_of_no_user ex huser now))
  | some user =>
      obtain ⟨r, after, hrows⟩ : ∃ r after, (rowsOf ex user).run s = (r, after) := ⟨_, _, rfl⟩
      have hfeed := rows_of_feed ex hrows
      cases r with
      | error e =>
          rw [(get_refused ex huser hrows now).2]
          exact .inl hfeed
      | ok rs =>
          rw [(get_answered ex huser hrows now).2, ← hfeed]
          exact .inr ⟨user, rs, rfl, congrArg Prod.fst hrows, rfl⟩

/-! ## Runs -/

/-- What can be done with a feed. -/
inductive Op where
  | get
  | add (item : NotificationItem)
  | markAsRead (id : Uuid)
  /-- Mark every message held as read, in ascending order of identifiers. -/
  | markAllRead
  /-- Mark messages as read one after another, in any order. -/
  | markEach (ids : List Uuid)
  | unreadCount
  /-- Apply a pushed change. -/
  | change (c : RealtimeChange)

/-- Carries out an operation. -/
def Op.act (moment : Moment) : Op → Action (Kept σ) Unit
  | .get => do
    let _ ← Feed.get ex moment.now
  | .add item => Feed.add ex moment item
  | .markAsRead id => Feed.markAsRead ex moment id
  | .markAllRead => Feed.markAllRead ex moment
  | .markEach ids => ids.forM (Feed.markAsRead ex moment)
  | .unreadCount => do
    let _ ← Feed.unreadCount ex
  | .change c => applyChange moment.now c

/-- What operations leave of a session, one after another, whether or not they fail. -/
def ran (s : Session (Kept σ)) (ops : List (Moment × Op)) : Session (Kept σ) :=
  ops.foldl (fun s step => ((step.2.act ex step.1).run s).2) s

theorem ran_single (s : Session (Kept σ)) (op : Op) :
    ran ex s [(moment, op)] = ((op.act ex moment).run s).2 :=
  rfl

theorem ran_append (s : Session (Kept σ)) (earlier later : List (Moment × Op)) :
    ran ex s (earlier ++ later) = ran ex (ran ex s earlier) later :=
  List.foldl_append

theorem ran_snoc (s : Session (Kept σ)) (ops : List (Moment × Op)) (op : Op) :
    ran ex s (ops ++ [(moment, op)]) = ((op.act ex moment).run (ran ex s ops)).2 :=
  List.foldl_concat _ _ _ _

/-- Whenever rows are loaded in a run, they are loadable. -/
def WellAnswered (s : Session (Kept σ)) (ops : List (Moment × Op)) : Prop :=
  ∀ earlier moment later, ops = earlier ++ (moment, .get) :: later → ∀ user rs,
    (ran ex s earlier).world.feed.user = some user →
    ((rowsOf ex user).run (ran ex s earlier)).1 = .ok rs → Loadable rs

/-- All operations but loading only write. -/
theorem act_writes {op : Op} (hop : op ≠ .get) : Writes (op.act ex moment) := by
  cases op with
  | get => exact absurd rfl hop
  | add item => exact add_writes ex moment item
  | markAsRead id => exact mark_as_read_writes ex moment id
  | markAllRead => exact mark_all_read_writes ex moment
  | markEach ids => exact .for_each (mark_as_read_writes ex moment) ids
  | unreadCount => exact (unread_count_writes ex).bind fun _ => .pure ()
  | change c => exact apply_change_writes moment.now c

theorem act_get (s : Session (Kept σ)) :
    ((Op.get.act ex moment).run s).2 = ((get ex moment.now).run s).2 := by
  rcases Action.run_bind_cases (get ex moment.now) (fun _ => pure ()) s with ⟨e, h⟩ | ⟨x, h⟩ <;>
    exact congrArg Prod.snd h

/-- A new feed has announced nothing and holds nothing. -/
theorem new_truthful (user : Option Uuid) : (new user).Truthful :=
  ⟨rfl, List.Perm.refl _, List.Pairwise.nil, .nil⟩

/-- A run whose rows are loadable keeps a feed truthful. -/
theorem ran_truthful {s : Session (Kept σ)} (hs : s.world.feed.Truthful)
    {ops : List (Moment × Op)} (h : WellAnswered ex s ops) :
    (ran ex s ops).world.feed.Truthful := by
  induction ops using List.reverseRecOn with
  | nil => exact hs
  | append_singleton ops step ih =>
      obtain ⟨moment, op⟩ := step
      have hbefore : (ran ex s ops).world.feed.Truthful := by
        refine ih ?_
        rintro earlier moment' later rfl
        exact h earlier moment' (later ++ [(moment, op)]) (by simp)
      rw [ran_snoc]
      by_cases hop : op = .get
      · subst hop
        rw [act_get]
        rcases get_loads ex moment.now (ran ex s ops) with hsame | ⟨user, rs, huser, hrows, hload⟩
        · rw [hsame]
          exact hbefore
        · rw [hload]
          exact load_truthful _ _ (h ops moment [] rfl user rs huser hrows)
      · exact (writes_announce hbefore (act_writes ex moment hop _)).truthful

/-- What a feed announces in a run. -/
structure TellsTruth (s : Session (Kept σ)) (ops : List (Moment × Op)) : Prop where
  /-- What it announced last is what it holds. -/
  truthful : (ran ex s ops).world.feed.Truthful
  /-- No operation but loading announces the number of unread messages announced before. -/
  fresh : ∀ moment op, op ≠ .get → ∃ news,
    (ran ex s (ops ++ [(moment, op)])).world.feed.events =
        news ++ (ran ex s ops).world.feed.events ∧
      NoRepeats (ran ex s ops).world.feed.events news

/-- The announcements of a new feed tell the truth in every run whose rows are loadable, whatever
else the server answers. -/
theorem announcements_tell_truth (user : Option Uuid) (outside : σ) (journal : List Written)
    (ops : List (Moment × Op)) (h : WellAnswered ex ⟨⟨new user, outside⟩, journal⟩ ops) :
    TellsTruth ex ⟨⟨new user, outside⟩, journal⟩ ops := by
  have htruthful := ran_truthful ex (new_truthful user) h
  refine ⟨htruthful, ?_⟩
  intro moment op hop
  rw [ran_snoc]
  exact (writes_announce htruthful (act_writes ex moment hop _)).news

/-- A message that is loaded and then marked as read. -/
theorem announcements_after_marking :
    let user : Uuid := .ofNat 1
    let moment : Moment := ⟨.midnight (.newYear 2025), .ofNat 2⟩
    let start : Session (Kept (List NotificationRow)) :=
      ⟨⟨new (some user), [NotificationTable.unreadRow (.ofNat 3) user]⟩, []⟩
    let ops : List (Moment × Op) := [(moment, .get), (moment, .markAsRead (.ofNat 3))]
    WellAnswered NotificationTable.server start ops ∧
      TellsTruth NotificationTable.server start ops := by
  intro user moment start ops
  have hanswered : WellAnswered NotificationTable.server start ops := by
    intro earlier moment' later hops user' rs huser hrows
    obtain rfl : earlier = [] := by
      match earlier with
      | [] => rfl
      | [_] => cases (List.cons.inj (List.cons.inj hops).2).1
      | _ :: _ :: earlier => exact absurd (congrArg List.length hops) (by simp [ops])
    obtain rfl := Option.some.inj huser
    obtain ⟨journal, hrun⟩ := rows_of_server (s := start) (by decide) user
    have hrow : NotificationTable.matching [.eq "user_id" user.text] start.world.outside =
        [NotificationTable.unreadRow (.ofNat 3) user] := by decide
    rw [hrow, NotificationTable.arranged_singleton] at hrun
    obtain rfl := Except.ok.inj (hrows.symm.trans (congrArg Prod.fst hrun))
    exact ⟨List.nodup_singleton _, List.pairwise_singleton _ _,
      by simp [NotificationTable.unreadRow]⟩
  exact ⟨hanswered, announcements_tell_truth _ _ _ _ _ hanswered⟩

end Feed

end CustomerDedupe
