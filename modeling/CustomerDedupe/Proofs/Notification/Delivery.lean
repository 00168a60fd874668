import Mathlib.Logic.Relation
import CustomerDedupe.Proofs.Notification.Changes
import CustomerDedupe.Proofs.Notification.Lookup

/-!
# Loading while changes come in

A server commits changes to a user's rows and pushes them in order, while a feed loads: its request
is answered with the rows of some moment, and the answer arrives whenever it does. `Step` is one move
of the server, the feed or the messages between them. When nothing is on its way, a feed that has
loaded holds what the rows are, but for those of which a change has overtaken the load
(`converged_unless_overtaken`): a change committed after the answer was given that comes before the
answer is lost with it (`overtaken_insertion_lost`).
-/

namespace CustomerDedupe

open Calendar (Instant)

namespace NotificationTable

variable {rows : List NotificationRow}

/-! ## Commits -/

/-- What the server commits. -/
inductive Commit where
  | insert (r : NotificationRow)
  | update (r : NotificationRow)
  | delete (id : Uuid)

namespace Commit

/-- The identifier of the row that a commit is about. -/
def id : Commit → Uuid
  | .insert r | .update r => r.id
  | .delete id => id

/-- The row after a commit. -/
def after? : Commit → Option NotificationRow
  | .insert r | .update r => some r
  | .delete _ => none

/-- The rows after a commit. -/
def apply (rows : List NotificationRow) : Commit → List NotificationRow
  | .insert r => rows ++ [r]
  | .update r => rows.map fun old => if old.id = r.id then r else old
  | .delete id => rows.filter fun r => r.id != id

/-- A row is inserted if there is none with its identifier, and otherwise updated or deleted. -/
def Possible (rows : List NotificationRow) : Commit → Prop
  | .insert r => r.id ∉ rows.map NotificationRow.id
  | .update r => r.id ∈ rows.map NotificationRow.id
  | .delete id => id ∈ rows.map NotificationRow.id

variable {c : Commit}

theorem ids_update (rows : List NotificationRow) (r : NotificationRow) :
    (apply rows (.update r)).map NotificationRow.id = rows.map NotificationRow.id := by
  rw [apply, List.map_map]
  refine List.map_congr_left fun old _ => ?_
  show (if old.id = r.id then r else old).id = old.id
  split
  next h => exact h.symm
  next => rfl

/-- Commits leave the identifiers different. -/
theorem distinct_apply (hpossible : c.Possible rows)
    (hdistinct : (rows.map NotificationRow.id).Nodup) :
    ((c.apply rows).map NotificationRow.id).Nodup := by
  cases c with
  | insert r =>
      rw [apply, List.map_append]
      exact hdistinct.append (List.nodup_singleton _) (List.disjoint_singleton.mpr hpossible)
  | update r => rwa [ids_update]
  | delete id => exact (List.filter_sublist.map NotificationRow.id).nodup hdistinct

/-- A commit changes the row that it is about and no other. -/
theorem row_apply (hpossible : c.Possible rows) (id : Uuid) :
    row? id (c.apply rows) = if c.id = id then c.after? else row? id rows := by
  cases c with
  | insert r =>
      show row? id (rows ++ [r]) = if r.id = id then some r else row? id rows
      rw [row?, List.find?_append, ← row?]
      split
      next h =>
        rw [row_eq_none (h ▸ hpossible), Option.none_or]
        exact List.find?_cons_of_pos (beq_iff_eq.mpr h)
      next h =>
        rw [List.find?_cons_of_neg (by simpa using h), List.find?_nil, Option.or_none]
  | update r =>
      show row? id (rows.map _) = if r.id = id then some r else row? id rows
      have hids : (fun old : NotificationRow => old.id == id) ∘
          (fun old => if old.id = r.id then r else old) = fun old => old.id == id := by
        funext old
        show ((if old.id = r.id then r else old).id == id) = _
        split
        next h => rw [h]
        next => rfl
      rw [row?, List.find?_map, hids, ← row?]
      split
      next h =>
        obtain ⟨old, hold⟩ := exists_row hpossible
        rw [← h, hold, Option.map_some, if_pos (id_of_row hold)]
      next h =>
        cases hold : row? id rows with
        | none => rfl
        | some old =>
            rw [Option.map_some, if_neg fun heq => h (heq.symm.trans (id_of_row hold))]
  | delete gone =>
      show row? id (rows.filter _) = if gone = id then none else row? id rows
      rw [row?, List.find?_filter]
      split
      next h =>
        subst h
        refine List.find?_eq_none.mpr fun r _ => ?_
        simp
      next h =>
        rw [row?]
        congr 1
        funext r
        by_cases hid : r.id = id
        · simp [hid, Ne.symm h]
        · simp [hid]

end Commit

end NotificationTable

namespace Feed

/-- A feed when the answer to its request for rows has come. -/
def answered (f : Feed) (now : Instant) (doc : Json.Document) : Feed :=
  ((get (fun _ => pure doc) now).run ⟨⟨f, ()⟩, []⟩).2.world.feed

/-- A feed when a pushed change has come. -/
def notified (f : Feed) (now : Instant) (c : RealtimeChange) : Feed :=
  ((applyChange now c).run ⟨⟨f, ()⟩, []⟩).2.world.feed

variable {f : Feed} {user : Uuid}

/-- An answer that is read as rows replaces what is held. -/
theorem answered_eq (huser : f.user = some user) {doc : Json.Document}
    {found : List NotificationRow}
    (hdoc : doc.decode (Json.list (Rest.record NotificationRow.schema)) = .ok found)
    (now : Instant) : f.answered now doc = f.load (found.map (NotificationRow.toItem now)) := by
  obtain ⟨journal, hrows⟩ : ∃ journal, (rowsOf (fun _ => pure doc) user).run ⟨⟨f, ()⟩, []⟩ =
      (.ok found, ⟨⟨f, ()⟩, journal⟩) := by
    unfold rowsOf rows Rest.select Rest.rows Rest.noteRequest
    rw [run_outward, Action.run_bind_ok (Action.run_log _ _ _ _),
      Action.run_bind_ok (show (pure doc : Action Unit Json.Document).run _ = (.ok doc, _) from rfl)]
    simp only [hdoc]
    exact ⟨_, rfl⟩
  exact congrArg Kept.feed (get_answered _ huser hrows now).2

/-- A pushed change is taken in. -/
theorem notified_eq (huser : f.user = some user) (now : Instant) (c : RealtimeChange) :
    f.notified now c = f.learn now (Delta.read user c) := by
  obtain ⟨journal, hrun⟩ := apply_change_run (s := ⟨⟨f, ()⟩, []⟩) huser now c
  rw [notified, hrun]

end Feed

open NotificationTable (row? Commit)

/-- A commit, and the change that tells the user of it. -/
structure Notice (user : Uuid) where
  commit : Commit
  change : RealtimeChange
  tells : change.Tells user commit.id commit.after?

/-- An answer, and how many commits there were when it was given. -/
structure Reply where
  upTo : Nat
  doc : Json.Document

/-- A load: how many commits there were when its answer was given, and how many changes had come
when the answer came. -/
structure Load where
  upTo : Nat
  arrived : Nat

/-- A user's rows on the server, a feed of the user, and the messages between them. -/
structure Traffic (user : Uuid) where
  /-- The rows before the first commit. -/
  start : List NotificationRow
  /-- The commits, first to last. -/
  log : List (Notice user)
  /-- How many changes have come. -/
  delivered : Nat
  /-- How many requests have not been answered. -/
  asked : Nat
  /-- The answers on their way. -/
  replies : List Reply
  feed : Feed
  /-- The last load that was completed. -/
  load : Option Load

namespace Traffic

variable {user : Uuid}

/-- A new feed, for which nothing is on its way. -/
def new (user : Uuid) (start : List NotificationRow) : Traffic user :=
  ⟨start, [], 0, 0, [], .new (some user), none⟩

/-- The rows after some commits. -/
def replay (start : List NotificationRow) (log : List (Notice user)) : List NotificationRow :=
  log.foldl (fun rows n => n.commit.apply rows) start

/-- The rows as they are. -/
def rows (t : Traffic user) : List NotificationRow :=
  replay t.start t.log

/-- The rows as they were after the first commits. -/
def rowsAfter (t : Traffic user) (count : Nat) : List NotificationRow :=
  replay t.start (t.log.take count)

/-- The changes on their way, first to last. -/
def pushed (t : Traffic user) : List (Notice user) :=
  t.log.drop t.delivered

/-- Nothing is on its way. -/
structure Quiet (t : Traffic user) : Prop where
  pushed : t.pushed = []
  asked : t.asked = 0
  replies : t.replies = []

/-- The server commits a change, answers a request with its rows in some order or refuses it; the
feed asks for the rows; the next change or any of the answers comes, or an answer is lost. -/
inductive Step (t : Traffic user) : Traffic user → Prop
  | commit (n : Notice user) (hpossible : n.commit.Possible t.rows) :
      Step t { t with log := t.log ++ [n] }
  | ask : Step t { t with asked := t.asked + 1 }
  | answer {asked : Nat} {doc : Json.Document} {found : List NotificationRow}
      (hasked : t.asked = asked + 1) (hfound : found.Perm t.rows)
      (hdoc : doc.decode (Json.list (Rest.record NotificationRow.schema)) = .ok found) :
      Step t { t with asked := asked, replies := t.replies ++ [⟨t.log.length, doc⟩] }
  | refuse {asked : Nat} (hasked : t.asked = asked + 1) : Step t { t with asked := asked }
  | notify {n : Notice user} {rest : List (Notice user)} (now : Instant)
      (hpushed : t.pushed = n :: rest) :
      Step t { t with delivered := t.delivered + 1, feed := t.feed.notified now n.change }
  | arrive {earlier later : List Reply} {reply : Reply} (now : Instant)
      (hreplies : t.replies = earlier ++ reply :: later) :
      Step t { t with
        replies := earlier ++ later
        feed := t.feed.answered now reply.doc
        load := some ⟨reply.upTo, t.delivered⟩ }
  | lose {earlier later : List Reply} {reply : Reply}
      (hreplies : t.replies = earlier ++ reply :: later) :
      Step t { t with replies := earlier ++ later }

/-- What can be reached from a new feed. -/
def Reached (start : List NotificationRow) : Traffic user → Prop :=
  Relation.ReflTransGen Step (new user start)

/-- A change of a row was committed after the answer of a load was given and came before the answer
did, and none of the row has come since. -/
def Overtaken (t : Traffic user) (l : Load) (id : Uuid) : Prop :=
  (∃ n ∈ (t.log.take l.arrived).drop l.upTo, n.commit.id = id) ∧
    ∀ n ∈ (t.log.take t.delivered).drop l.arrived, n.commit.id ≠ id

/-! ## What is held -/

/-- What some notices told last of the row with an identifier. -/
def lastTold (id : Uuid) (ns : List (Notice user)) : Option (Option NotificationRow) :=
  Feed.lastTold user id (ns.map Notice.change)

/-- A notice tells of its own row. -/
theorem told_of_notice (n : Notice user) (id : Uuid) :
    (Feed.Delta.read user n.change).told? id = if n.commit.id = id then some n.commit.after? else none := by
  have htells := Feed.Delta.told_read_iff.mpr n.tells
  split
  next h => exact h ▸ htells
  next h =>
    refine Option.eq_none_iff_forall_ne_some.mpr fun told htold => ?_
    exact h (Feed.Delta.told_id_unique htells htold)

theorem last_told_nil (id : Uuid) : lastTold id ([] : List (Notice user)) = none :=
  rfl

theorem last_told_snoc (id : Uuid) (ns : List (Notice user)) (n : Notice user) :
    lastTold id (ns ++ [n]) = if n.commit.id = id then some n.commit.after? else lastTold id ns := by
  rw [lastTold, List.map_append, Feed.last_told_append, List.map_singleton, Feed.last_told_cons,
    told_of_notice]
  split <;> rfl

theorem last_told_eq_none_iff {id : Uuid} {ns : List (Notice user)} :
    lastTold id ns = none ↔ ∀ n ∈ ns, n.commit.id ≠ id := by
  rw [lastTold, Feed.lastTold, List.findSome?_eq_none_iff]
  simp only [List.mem_reverse, List.forall_mem_map, told_of_notice, ite_eq_right_iff, reduceCtorEq,
    imp_false]

/-- What holds of everything that can be reached. -/
structure Sound (t : Traffic user) : Prop where
  user : t.feed.user = some user
  keyed : t.feed.cache.Keyed
  distinct : (t.rows.map NotificationRow.id).Nodup
  delivered : t.delivered ≤ t.log.length
  /-- Every row is what it was at any earlier moment, or what the commits since have made of it. -/
  replayed : ∀ count ≤ t.log.length, ∀ id,
    row? id t.rows = (lastTold id (t.log.drop count)).getD (row? id (t.rowsAfter count))
  replies : ∀ reply ∈ t.replies, reply.upTo ≤ t.log.length ∧ ∃ found,
    (found.map NotificationRow.id).Nodup ∧ (∀ id, row? id found = row? id (t.rowsAfter reply.upTo)) ∧
      reply.doc.decode (Json.list (Rest.record NotificationRow.schema)) = .ok found
  /-- The feed holds what it has loaded, and of every row what the changes since have told last. -/
  held : ∀ l, t.load = some l → l.upTo ≤ t.log.length ∧ l.arrived ≤ t.delivered ∧ ∀ id, ∃ now,
    t.feed.cache.get? id =
      ((lastTold id ((t.log.take t.delivered).drop l.arrived)).getD
        (row? id (t.rowsAfter l.upTo))).map (NotificationRow.toItem now)

theorem rows_after_commit (t : Traffic user) (n : Notice user) {count : Nat}
    (h : count ≤ t.log.length) :
    ({ t with log := t.log ++ [n] } : Traffic user).rowsAfter count = t.rowsAfter count := by
  rw [rowsAfter, List.take_append_of_le_length h]
  rfl

theorem rows_after_length (t : Traffic user) : t.rowsAfter t.log.length = t.rows := by
  rw [rowsAfter, List.take_length]
  rfl

theorem rows_commit (t : Traffic user) (n : Notice user) :
    ({ t with log := t.log ++ [n] } : Traffic user).rows = n.commit.apply t.rows :=
  List.foldl_concat _ _ _ _

namespace Sound

variable {t : Traffic user}

theorem new {start : List NotificationRow} (hdistinct : (start.map NotificationRow.id).Nodup) :
    Sound (Traffic.new user start) where
  user := rfl
  keyed := .nil
  distinct := hdistinct
  delivered := Nat.le_refl _
  replayed count hcount id := by
    obtain rfl : count = 0 := Nat.le_zero.mp hcount
    rfl
  replies := by simp [Traffic.new]
  held := nofun

theorem commit (h : Sound t) {n : Notice user} (hpossible : n.commit.Possible t.rows) :
    Sound { t with log := t.log ++ [n] } where
  user := h.user
  keyed := h.keyed
  distinct := by
    rw [rows_commit]
    exact NotificationTable.Commit.distinct_apply hpossible h.distinct
  delivered := by
    have := h.delivered
    simp only [List.length_append, List.length_singleton]
    omega
  replayed count hcount id := by
    rw [rows_commit, NotificationTable.Commit.row_apply hpossible]
    by_cases hlast : count ≤ t.log.length
    · rw [List.drop_append_of_le_length hlast, last_told_snoc, rows_after_commit t n hlast]
      split
      next => rfl
      next => exact h.replayed count hlast id
    · obtain rfl : count = (t.log ++ [n]).length := by
        simp only [List.length_append, List.length_singleton] at hcount ⊢
        omega
      rw [List.drop_length, last_told_nil, Option.getD_none,
        rows_after_length { t with log := t.log ++ [n] }, rows_commit,
        NotificationTable.Commit.row_apply hpossible]
  replies reply hreply := by
    obtain ⟨hupTo, found, hdistinct, hrows, hdoc⟩ := h.replies reply hreply
    refine ⟨?_, found, hdistinct, ?_, hdoc⟩
    · simp only [List.length_append, List.length_singleton]
      omega
    · intro id
      rw [hrows, rows_after_commit t n hupTo]
  held l hl := by
    obtain ⟨hupTo, harrived, hheld⟩ := h.held l hl
    refine ⟨?_, harrived, ?_⟩
    · simp only [List.length_append, List.length_singleton]
      omega
    · rw [rows_after_commit t n hupTo]
      show ∀ id, ∃ now, t.feed.cache.get? id =
        ((lastTold id (((t.log ++ [n]).take t.delivered).drop l.arrived)).getD _).map _
      rw [List.take_append_of_le_length h.delivered]
      exact hheld

theorem answer (h : Sound t) {asked : Nat} {doc : Json.Document} {found : List NotificationRow}
    (hfound : found.Perm t.rows)
    (hdoc : doc.decode (Json.list (Rest.record NotificationRow.schema)) = .ok found) :
    Sound { t with asked := asked, replies := t.replies ++ [⟨t.log.length, doc⟩] } where
  user := h.user
  keyed := h.keyed
  distinct := h.distinct
  delivered := h.delivered
  replayed := h.replayed
  replies reply hreply := by
    rcases List.mem_append.mp hreply with hreply | hreply
    · exact h.replies reply hreply
    · obtain rfl := List.mem_singleton.mp hreply
      refine ⟨Nat.le_refl _, found,
        (hfound.map NotificationRow.id).nodup_iff.mpr h.distinct, ?_, hdoc⟩
      intro id
      show row? id found = row? id (t.rowsAfter t.log.length)
      rw [rows_after_length, NotificationTable.row_of_perm hfound h.distinct]
  held := h.held

/-- Fewer requests and answers may be on their way. -/
theorem fewer (h : Sound t) (asked : Nat) {replies : List Reply} (hsub : replies ⊆ t.replies) :
    Sound { t with asked := asked, replies := replies } where
  user := h.user
  keyed := h.keyed
  distinct := h.distinct
  delivered := h.delivered
  replayed := h.replayed
  replies reply hreply := h.replies reply (hsub hreply)
  held := h.held

theorem notify (h : Sound t) {n : Notice user} {rest : List (Notice user)}
    (hpushed : t.pushed = n :: rest) (now : Instant) :
    Sound { t with delivered := t.delivered + 1, feed := t.feed.notified now n.change } := by
  have hlt : t.delivered < t.log.length := by
    have := congrArg List.length hpushed
    simp only [pushed, List.length_drop, List.length_cons] at this
    omega
  have hnext : t.log.take (t.delivered + 1) = t.log.take t.delivered ++ [n] := by
    have hget : t.log[t.delivered]? = some n := by
      rw [← List.head?_drop]
      exact congrArg List.head? hpushed
    rw [List.take_add_one, hget]
    rfl
  rw [Feed.notified_eq h.user]
  refine ⟨(Feed.learn_user _ _ _).trans h.user, Feed.learn_keyed h.keyed _ _, h.distinct, hlt,
    h.replayed, h.replies, ?_⟩
  intro l hl
  obtain ⟨hupTo, harrived, hheld⟩ := h.held l hl
  refine ⟨hupTo, Nat.le_succ_of_le harrived, ?_⟩
  intro id
  have harrived' : l.arrived ≤ (t.log.take t.delivered).length := by
    rw [List.length_take]
    omega
  rw [Feed.learn_get, hnext, List.drop_append_of_le_length harrived', last_told_snoc,
    told_of_notice]
  split
  next => exact ⟨now, rfl⟩
  next => exact hheld id

theorem arrive (h : Sound t) {earlier later : List Reply} {reply : Reply}
    (hreplies : t.replies = earlier ++ reply :: later) (now : Instant) :
    Sound { t with
      replies := earlier ++ later
      feed := t.feed.answered now reply.doc
      load := some ⟨reply.upTo, t.delivered⟩ } := by
  obtain ⟨hupTo, found, hdistinct, hrows, hdoc⟩ := h.replies reply (by simp [hreplies])
  rw [Feed.answered_eq h.user hdoc]
  refine ⟨h.user, .of_items _, h.distinct, h.delivered, h.replayed, ?_, ?_⟩
  · intro reply' hreply'
    refine h.replies reply' ?_
    rw [hreplies]
    exact ((List.sublist_cons_self _ _).append_left earlier).subset hreply'
  · rintro l ⟨⟩
    refine ⟨hupTo, Nat.le_refl _, fun id => ⟨now, ?_⟩⟩
    have hnone : (t.log.take t.delivered).drop t.delivered = [] :=
      List.drop_eq_nil_of_le (List.length_take_le _ _)
    show (NotificationCache.ofItems _).get? id =
      ((lastTold id ((t.log.take t.delivered).drop t.delivered)).getD
        (row? id (t.rowsAfter reply.upTo))).map _
    rw [NotificationTable.loaded_get hdistinct, hnone, last_told_nil, hrows]
    rfl

theorem step {t' : Traffic user} (h : Sound t) (hstep : Step t t') : Sound t' := by
  cases hstep with
  | commit n hpossible => exact h.commit hpossible
  | ask => exact h.fewer (t.asked + 1) (List.Subset.refl _)
  | answer hasked hfound hdoc => exact h.answer hfound hdoc
  | refuse hasked => exact h.fewer _ (List.Subset.refl _)
  | notify now hpushed => exact h.notify hpushed now
  | arrive now hreplies => exact h.arrive hreplies now
  | @lose earlier later reply hreplies =>
      refine h.fewer t.asked ?_
      rw [hreplies]
      exact ((List.sublist_cons_self _ _).append_left earlier).subset

theorem reached {start : List NotificationRow} (hdistinct : (start.map NotificationRow.id).Nodup)
    (h : Reached start t) : Sound t := by
  induction h with
  | refl => exact new hdistinct
  | tail _ hstep ih => exact ih.step hstep

end Sound

/-- What a feed holds of a user's rows when nothing is on its way: the rows as they are, but for
those of which a change has overtaken the load. These it holds as they were loaded. -/
structure Converged (t : Traffic user) (l : Load) : Prop where
  keyed : t.feed.cache.Keyed
  current : ∀ id, ¬ t.Overtaken l id → ∃ now,
    t.feed.cache.get? id = (row? id t.rows).map (NotificationRow.toItem now)
  stale : ∀ id, t.Overtaken l id → ∃ now,
    t.feed.cache.get? id = (row? id (t.rowsAfter l.upTo)).map (NotificationRow.toItem now)

/-- When nothing is on its way, a feed that has loaded holds exactly the user's rows, but for those
of which a change has overtaken the last load. -/
theorem converged_unless_overtaken {start : List NotificationRow}
    (hdistinct : (start.map NotificationRow.id).Nodup) {t : Traffic user} (h : Reached start t)
    (hquiet : t.Quiet) {l : Load} (hload : t.load = some l) : Converged t l := by
  have hsound := Sound.reached hdistinct h
  obtain ⟨hupTo, harrived, hheld⟩ := hsound.held l hload
  have hall : t.log.take t.delivered = t.log :=
    List.take_of_length_le (List.drop_eq_nil_iff.mp hquiet.pushed)
  rw [hall] at hheld
  refine ⟨hsound.keyed, ?_, ?_⟩
  · intro id hcurrent
    obtain ⟨now, hget⟩ := hheld id
    refine ⟨now, ?_⟩
    cases htold : lastTold id (t.log.drop l.arrived) with
    | some told =>
        have hrow := hsound.replayed l.arrived (Nat.le_trans harrived hsound.delivered) id
        rw [hget, hrow, htold]
        rfl
    | none =>
        have hlater := last_told_eq_none_iff.mp htold
        -- neither since the answer came nor between it and the rows that it holds
        have hnone : lastTold id (t.log.drop l.upTo) = none := by
          refine last_told_eq_none_iff.mpr fun n hn hid => ?_
          rw [← List.take_append_drop l.arrived t.log, List.drop_append] at hn
          rcases List.mem_append.mp hn with hn | hn
          · exact hcurrent ⟨⟨n, hn, hid⟩, by rwa [hall]⟩
          · exact hlater n (List.mem_of_mem_drop hn) hid
        rw [hget, htold, hsound.replayed l.upTo hupTo id, hnone]
  · rintro id ⟨-, hlater⟩
    rw [hall] at hlater
    obtain ⟨now, hget⟩ := hheld id
    rw [last_told_eq_none_iff.mpr hlater] at hget
    exact ⟨now, hget⟩

/-- The notice of a written row that is inserted. -/
def inserted (r : NotificationRow) (h : r.Writable) : Notice r.userId where
  commit := .insert r
  change := .ofRow .insert r
  tells := by
    have hrow := RealtimeChange.row_of_row h .insert
    refine .stored ?_ (fun hdelete => by cases hdelete) hrow
    intro owner howner
    rw [RealtimeChange.owner?, hrow] at howner
    exact (Option.some.inj howner).symm

section Orders

variable {n : Notice user} (hpossible : n.commit.Possible []) {doc : Json.Document}
  {found : List NotificationRow}
  (hdoc : doc.decode (Json.list (Rest.record NotificationRow.schema)) = .ok found) (now : Instant)

include hpossible hdoc

/-- A commit, a load that sees it, and the change that comes last. -/
theorem reached_load_first (hfound : found.Perm (n.commit.apply [])) :
    Reached [] (⟨[], [n], 1, 0, [],
      ((Feed.new (some user)).answered now doc).notified now n.change, some ⟨1, 0⟩⟩ :
        Traffic user) := by
  let committed : Traffic user := ⟨[], [n], 0, 0, [], .new (some user), none⟩
  have hcommit : Step (new user []) committed := .commit n hpossible
  have hask : Step committed { committed with asked := 1 } := .ask
  have hanswer : Step { committed with asked := 1 } { committed with replies := [⟨1, doc⟩] } :=
    .answer rfl hfound hdoc
  have harrive := @Step.arrive _ { committed with replies := [⟨1, doc⟩] } [] [] ⟨1, doc⟩ now rfl
  exact ((((Relation.ReflTransGen.single hcommit).tail hask).tail hanswer).tail harrive).tail
    (.notify now rfl)

/-- A load that does not see a commit, and whose answer comes after the change. -/
theorem reached_change_first (hfound : found.Perm []) :
    Reached [] (⟨[], [n], 1, 0, [],
      ((Feed.new (some user)).notified now n.change).answered now doc, some ⟨0, 1⟩⟩ :
        Traffic user) := by
  let answered : Traffic user := ⟨[], [], 0, 0, [⟨0, doc⟩], .new (some user), none⟩
  have hask : Step (new user []) { new user [] with asked := 1 } := .ask
  have hanswer : Step { new user [] with asked := 1 } answered := .answer rfl hfound hdoc
  have hcommit : Step answered { answered with log := [n] } := .commit n hpossible
  have hnotify := @Step.notify _ { answered with log := [n] } n [] now rfl
  have harrive := @Step.arrive _ { answered with
    log := [n], delivered := 1, feed := (Feed.new (some user)).notified now n.change }
    [] [] ⟨0, doc⟩ now rfl
  exact ((((Relation.ReflTransGen.single hask).tail hanswer).tail hcommit).tail hnotify).tail harrive

end Orders

/-- A row that is inserted before the request is answered, and whose change comes after the
answer. -/
theorem converged_after_insertion :
    let row := NotificationTable.unreadRow (.ofNat 3) (.ofNat 1)
    ∃ (t : Traffic row.userId) (l : Load),
      (([] : List NotificationRow).map NotificationRow.id).Nodup ∧ Reached [] t ∧ t.Quiet ∧
        t.load = some l ∧ t.rows = [row] ∧ Converged t l := by
  intro row
  have hwritable : row.Writable := by decide
  have hstart : (([] : List NotificationRow).map NotificationRow.id).Nodup := List.nodup_nil
  have hdoc := (NotificationTable.document_answers (List.forall_mem_singleton.mpr hwritable)).rows
  have hreached := reached_load_first (n := inserted row hwritable) List.not_mem_nil hdoc
    (.midnight (.newYear 2025)) (List.Perm.refl [row])
  exact ⟨_, ⟨1, 0⟩, hstart, hreached, ⟨rfl, rfl, rfl⟩, rfl, rfl,
    converged_unless_overtaken hstart hreached ⟨rfl, rfl, rfl⟩ rfl⟩

/-- A row that is inserted after the request has been answered is lost if its change comes before
the answer. -/
theorem overtaken_insertion_lost :
    let row := NotificationTable.unreadRow (.ofNat 3) (.ofNat 1)
    ∃ t : Traffic row.userId, Reached [] t ∧ t.Quiet ∧ t.load.isSome = true ∧ t.rows = [row] ∧
      t.feed.cache = [] := by
  intro row
  have hwritable : row.Writable := by decide
  let now : Instant := .midnight (.newYear 2025)
  let n := inserted row hwritable
  have hdoc := (NotificationTable.document_answers (List.forall_mem_nil _)).rows
  have hreached := reached_change_first (n := n) List.not_mem_nil hdoc now (List.Perm.refl [])
  refine ⟨_, hreached, ⟨rfl, rfl, rfl⟩, rfl, rfl, ?_⟩
  have huser : ((Feed.new (some row.userId)).notified now n.change).user = some row.userId :=
    (congrArg Feed.user (Feed.notified_eq rfl now n.change)).trans (Feed.learn_user _ _ _)
  exact congrArg Feed.cache (Feed.answered_eq huser hdoc now)

end Traffic

end CustomerDedupe
