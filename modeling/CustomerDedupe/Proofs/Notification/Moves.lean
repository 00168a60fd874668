import CustomerDedupe.Proofs.Notification.Faithful
import CustomerDedupe.Proofs.Notification.Lookup

/-!
# What a feed does, move by move

A `View` is what a feed of a user holds and the rows of the table. Everything that the operations of
the feed do to it against a faithful server they do in moves, of which `Move` lists the kinds. What
the moves of an operation keep, the operation keeps (`step_keeps`), and so do runs (`ran_keeps`).
-/

namespace CustomerDedupe.Feed

open Calendar (Instant)
open NotificationTable (Faithful matching)

/-- The rows of a table, no two of them with the same identifier, and what a feed holds, every
message under its own. -/
structure View where
  rows : List NotificationRow
  cache : NotificationCache
  distinct : (rows.map NotificationRow.id).Nodup
  keyed : cache.Keyed

/-- An operation is to mark the message with an identifier as read, given what is held. -/
def Op.Marks (cache : NotificationCache) (id : Uuid) : Op → Prop
  | .markAsRead marked => marked = id
  | .markEach ids => id ∈ ids
  | .markAllRead => (cache.get? id).isSome = true
  | _ => False

/-- What an operation of a user's feed does in one go. -/
inductive Move (user : Uuid) (v v' : View) : Op → Prop
  /-- The user's rows take the place of all that is held. -/
  | load {found : List NotificationRow} {now : Instant}
      (hfound : found.Perm (matching [.eq "user_id" user.text] v.rows)) (hrows : v'.rows = v.rows)
      (hcache : v'.cache = .ofItems (found.map (NotificationRow.toItem now))) : Move user v v' .get
  | add {item : NotificationItem} {r : NotificationRow} {now : Instant} (huser : r.userId = user)
      (hrows : v'.rows = v.rows ++ [r]) (hcache : v'.cache = v.cache.put r.id (r.toItem now)) :
      Move user v v' (.add item)
  /-- A read row of the user takes the place of the row with the identifier of an unread message. -/
  | mark {op : Op} {i : NotificationItem} {written : NotificationRow} {now : Instant}
      (hmarks : op.Marks v.cache i.id) (hfinds : Finds v.rows v.cache now i.id i)
      (hunread : i.isRead = false) (huser : written.userId = user) (hread : written.isRead = true)
      (hrows : v'.rows = v.rows.map fun r => if r.id = i.id then written else r)
      (hcache : v'.cache = v.cache.put i.id { i with isRead := true }) : Move user v v' op
  | store {c : RealtimeChange} {r : NotificationRow} {now : Instant}
      (htells : c.Tells user r.id (some r)) (hrows : v'.rows = v.rows)
      (hcache : v'.cache = v.cache.put r.id (r.toItem now)) : Move user v v' (.change c)
  | remove {c : RealtimeChange} {id : Uuid} (htells : c.Tells user id none)
      (hrows : v'.rows = v.rows) (hcache : v'.cache = v.cache.remove id) :
      Move user v v' (.change c)

/-- The moves of an operation lead from one property to another. -/
def Leads (user : Uuid) (op : Op) (P Q : View → Prop) : Prop :=
  ∀ v v', P v → Move user v v' op → Q v'

/-- What is held stays held when a message is marked as read. -/
theorem Move.held_mark_all {user : Uuid} {v v' : View} (h : Move user v v' .markAllRead) {id : Uuid}
    (hid : (v.cache.get? id).isSome = true) : (v'.cache.get? id).isSome = true := by
  cases h with
  | mark hmarks hfinds hunread huser hread hrows hcache =>
    rw [hcache, NotificationCache.get?_put]
    split
    next => rfl
    next => exact hid

variable {σ α : Type} {table : σ → List NotificationRow} {ex : Rest.Exchange σ} {f : Feed}
  {user : Uuid} {moment : Moment} {P Q : View → Prop}

/-- A feed of a user and its table that have a property. -/
def Sees (table : σ → List NotificationRow) (user : Uuid) (P : View → Prop) (w : Kept σ) : Prop :=
  w.feed.user = some user ∧ ∃ v : View, v.rows = table w.outside ∧ v.cache = w.feed.cache ∧ P v

theorem Sees.imp {w : Kept σ} (h : Sees table user P w) (hPQ : ∀ v, P v → Q v) :
    Sees table user Q w :=
  ⟨h.1, h.2.imp fun v hv => ⟨hv.1, hv.2.1, hPQ v hv.2.2⟩⟩

theorem of_sees {a : Action (Kept σ) α} {R : α → Kept σ → Prop} {E : Kept σ → Prop}
    (h : ∀ f v, f.user = some user → v.cache = f.cache → P v →
      Action.Ensures (At table f v.rows) a R E) : Action.Ensures (Sees table user P) a R E := by
  rintro s ⟨huser, v, hrows, hcache, hv⟩
  exact h s.world.feed v huser hcache hv s ⟨rfl, hrows.symm⟩

variable (table) in
theorem at_sees {v : View} (huser : f.user = some user) (hcache : v.cache = f.cache) (hv : P v)
    (w : Kept σ) (hw : At table f v.rows w) : Sees table user P w := by
  obtain ⟨rfl, hrows⟩ := hw
  exact ⟨huser, v, hrows.symm, hcache, hv⟩

section Operations

variable (hfaithful : Faithful table ex)

include hfaithful

/-- Whatever a feed and its table are, they are a view. -/
theorem sees_of_at {rows : List NotificationRow} (huser : f.user = some user)
    (hkeyed : f.cache.Keyed) (h : ∀ v : View, v.rows = rows → v.cache = f.cache → P v) (w : Kept σ)
    (hw : At table f rows w) : Sees table user P w := by
  obtain ⟨rfl, rfl⟩ := hw
  exact ⟨huser, ⟨table w.outside, w.feed.cache, hfaithful.distinct _, hkeyed⟩, rfl, rfl, h _ rfl rfl⟩

/-- So they are after a message has been stored. -/
theorem sees_of_store {v : View} {rows : List NotificationRow} {i : NotificationItem}
    (huser : f.user = some user) (hcache : v.cache = f.cache)
    (h : ∀ v' : View, v'.rows = rows → v'.cache = v.cache.put i.id i → P v') (w : Kept σ)
    (hw : At table (f.store i) rows w) : Sees table user P w := by
  refine sees_of_at hfaithful ((store_user f i).trans huser) ?_ ?_ w hw
  · rw [store_cache, ← hcache]
    exact v.keyed.put i
  · intro v' hrows' hcache'
    refine h v' hrows' ?_
    rw [hcache', store_cache, hcache]

theorem new_sees {outside : σ}
    (h : ∀ v : View, v.rows = table outside → v.cache = [] → P v) :
    Sees table user P ⟨new (some user), outside⟩ :=
  sees_of_at hfaithful (f := new (some user)) rfl .nil h _ ⟨rfl, rfl⟩

/-- Marking a message as read. -/
theorem mark_as_read_keeps {op : Op} {id : Uuid} (hkeeps : Leads user op P P)
    (hmarks : ∀ v, P v → op.Marks v.cache id) :
    Action.Ensures (Sees table user P) (markAsRead ex moment id) (fun _ => Sees table user P)
      (Sees table user P) := by
  refine of_sees fun f v huser hcache hv => ?_
  have hstays := at_sees table huser hcache hv
  refine (mark_as_read_at hfaithful.serving huser
    (fun written after => after = v.rows.map fun r => if r.id = id then written else r)
    (hfaithful.update_ensures id)).weaken (fun _ h => h) ?_ hstays
  rintro - w (hw | ⟨i, after, hfinds, hunread, rfl, hw⟩)
  · exact hstays w hw
  · rw [← hcache] at hfinds
    obtain rfl := hfinds.id_eq v.keyed
    exact sees_of_store hfaithful huser hcache (fun v' hrows' hcache' => hkeeps v v' hv
      (.mark (hmarks v hv) hfinds hunread rfl rfl hrows' hcache')) w hw

/-- Marking all messages as read. -/
theorem mark_all_read_keeps (hkeeps : Leads user .markAllRead P P) :
    Action.Ensures (Sees table user P) (markAllRead ex moment) (fun _ => Sees table user P)
      (Sees table user P) := by
  refine of_sees fun f v huser hcache hv => current_at ?_
  let ids := (f.cache.filter fun e => !e.2.isRead).map fun e => e.2.id
  -- all that are to be marked are held, and stay so
  let Held (v : View) : Prop := P v ∧ ∀ id ∈ ids, (v.cache.get? id).isSome = true
  have hheld : Leads user .markAllRead Held Held := fun v v' hv hmove =>
    ⟨hkeeps v v' hv.1 hmove, fun id hid => hmove.held_mark_all (hv.2 id hid)⟩
  have hstart : Held v := by
    refine ⟨hv, fun id hid => ?_⟩
    obtain ⟨e, he, rfl⟩ := List.mem_map.mp hid
    have hmem : e.2 ∈ v.cache.items :=
      hcache ▸ List.mem_map_of_mem (List.mem_of_mem_filter he)
    rw [v.keyed.get_iff.mpr ⟨hmem, rfl⟩]
    rfl
  exact (Action.Ensures.for_each fun id hid =>
    mark_as_read_keeps hfaithful hheld fun v hv => hv.2 id hid).weaken
      (at_sees table huser hcache hstart)
      (fun _ _ hw => hw.imp fun _ hv => hv.1) fun _ hw => hw.imp fun _ hv => hv.1

/-- Loading. -/
theorem get_leads (hleads : Leads user .get P Q) (now : Instant) :
    Action.Ensures (Sees table user P) (get ex now) (fun _ => Sees table user Q)
      (Sees table user P) := by
  refine of_sees fun f v huser hcache hv => ?_
  refine (get_at hfaithful.serving huser now).weaken (fun _ h => h) ?_ (at_sees table huser hcache hv)
  rintro - w ⟨found, hfound, hw⟩
  exact sees_of_at hfaithful (f := f.load _) huser (.of_items _)
    (fun v' hrows' hcache' => hleads v v' hv (.load hfound hrows' hcache')) w hw

/-- Adding a message. -/
theorem add_keeps {item : NotificationItem} (hkeeps : Leads user (.add item) P P) :
    Action.Ensures (Sees table user P) (add ex moment item) (fun _ => Sees table user P)
      (Sees table user P) := by
  refine of_sees fun f v huser hcache hv => ?_
  have hstays := at_sees table huser hcache hv
  refine (add_at hfaithful.serving huser item).weaken (fun _ h => h) ?_ hstays
  rintro - w (hw | ⟨r, hr, -, hw⟩)
  · exact hstays w hw
  · obtain ⟨-, rfl⟩ := NotificationRow.of_to_json_some hr
    exact sees_of_store hfaithful huser hcache
      (fun v' hrows' hcache' => hkeeps v v' hv (.add rfl hrows' hcache')) w hw

/-- Applying a pushed change. -/
theorem change_keeps {c : RealtimeChange} (hkeeps : Leads user (.change c) P P) (now : Instant) :
    Action.Ensures (Sees table user P) (applyChange now c) (fun _ => Sees table user P)
      (Sees table user P) := by
  refine of_sees fun f v huser hcache hv => ?_
  have hstays := at_sees table huser hcache hv
  refine (change_at huser now c).weaken (fun _ h => h) ?_ hstays
  rintro - w hw
  have htold : ∀ {id told}, (Delta.read user c).told? id = some told → c.Tells user id told :=
    Delta.told_read_iff.mp
  cases hread : Delta.read user c with
  | none | unreadable =>
      rw [hread] at hw
      exact hstays w hw
  | store r =>
      rw [hread] at hw htold
      exact sees_of_store hfaithful huser hcache (fun v' hrows' hcache' =>
        hkeeps v v' hv (.store (htold (if_pos rfl)) hrows' hcache')) w hw
  | remove id =>
      rw [hread] at hw htold
      refine sees_of_at hfaithful (f := f.remove id) ((become_user _ _).trans huser) ?_ ?_ w hw
      · rw [remove, become_cache, ← hcache]
        exact v.keyed.remove id
      · intro v' hrows' hcache'
        rw [remove, become_cache, ← hcache] at hcache'
        exact hkeeps v v' hv (.remove (htold (if_pos rfl)) hrows' hcache')

/-- Counting unread messages. -/
theorem unread_count_keeps :
    Action.Ensures (Sees table user P) (unreadCount ex) (fun _ => Sees table user P)
      (Sees table user P) :=
  of_sees fun _ _ huser hcache hv => (unread_count_at hfaithful.serving huser).weaken
    (fun _ h => h) (fun _ w hw => at_sees table huser hcache hv w hw.1)
    (at_sees table huser hcache hv)

/-- An operation keeps what its moves keep. -/
theorem step_keeps {op : Op} (hkeeps : Leads user op P P) :
    Action.Ensures (Sees table user P) (op.act ex moment) (fun _ => Sees table user P)
      (Sees table user P) := by
  cases op with
  | get => exact (get_leads hfaithful hkeeps moment.now).bind fun _ => .pure fun _ h => h
  | add item => exact add_keeps hfaithful hkeeps
  | markAsRead id => exact mark_as_read_keeps hfaithful hkeeps fun _ _ => rfl
  | markAllRead => exact mark_all_read_keeps hfaithful hkeeps
  | markEach ids => exact .for_each fun id hid => mark_as_read_keeps hfaithful hkeeps fun _ _ => hid
  | unreadCount => exact (unread_count_keeps hfaithful).bind fun _ => .pure fun _ h => h
  | change c => exact change_keeps hfaithful hkeeps moment.now

/-- A run keeps what all moves of its operations keep. -/
theorem ran_keeps {s : Session (Kept σ)} (hs : Sees table user P s.world)
    {ops : List (Moment × Op)} (h : ∀ step ∈ ops, Leads user step.2 P P) :
    Sees table user P (ran ex s ops).world := by
  induction ops generalizing s with
  | nil => exact hs
  | cons step ops ih =>
      refine ih ?_ fun _ hstep => h _ (List.mem_cons_of_mem _ hstep)
      exact (step_keeps hfaithful (h step List.mem_cons_self)).world hs

end Operations

end CustomerDedupe.Feed
