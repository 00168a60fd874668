import CustomerDedupe.Proofs.Notification.Operations

/-!
# Reading the messages that are held

What becomes of a feed when it stores messages as read, one after another (`readInTurn`). While the
messages are different ones that it holds unread (`Waiting`), each leaves one less, so that the
numbers announced count down (`read_counts`), and nothing but the marks of these messages changes
(`read_cache`). With all of them read, all messages are (`read_unread_items`).
-/

namespace CustomerDedupe

namespace NotificationCache

variable {cache : NotificationCache} {id : Uuid} {i : NotificationItem}

/-- The messages that have not been read. -/
def unreadItems (cache : NotificationCache) : List NotificationItem :=
  (cache.filter fun e => !e.2.isRead).map Prod.snd

/-- A cache in which the messages with some identifiers are read. -/
def read (ids : List Uuid) (cache : NotificationCache) : NotificationCache :=
  cache.map fun e => if e.1 ∈ ids then (e.1, { e.2 with isRead := true }) else e

theorem read_nil (cache : NotificationCache) : cache.read [] = cache := by
  simp [read]

/-- Messages may be read one after another. -/
theorem read_append (first second : List Uuid) (cache : NotificationCache) :
    cache.read (first ++ second) = (cache.read first).read second := by
  unfold read
  rw [List.map_map]
  refine List.map_congr_left fun e _ => ?_
  by_cases hfirst : e.1 ∈ first <;> by_cases hsecond : e.1 ∈ second <;>
    simp [hfirst, hsecond]

theorem read_of_not_mem {ids : List Uuid} (h : ∀ e ∈ cache, e.1 ∉ ids) : cache.read ids = cache := by
  unfold read
  conv => rhs; rw [← List.map_id cache]
  exact List.map_congr_left fun e he => if_neg (h e he)

theorem get_read (ids : List Uuid) (cache : NotificationCache) (id : Uuid) :
    (cache.read ids).get? id =
      (cache.get? id).map fun i => if id ∈ ids then { i with isRead := true } else i := by
  induction cache with
  | nil => rfl
  | cons e rest ih =>
      obtain ⟨k, i⟩ := e
      have hcons : read ids ((k, i) :: rest) =
          (k, if k ∈ ids then { i with isRead := true } else i) :: read ids rest := by
        rw [read, List.map_cons]
        split <;> rfl
      rw [hcons, get?_cons, get?_cons, ih]
      by_cases hid : id = k
      · subst hid
        rw [if_pos rfl, if_pos rfl, Option.map_some]
      · rw [if_neg hid, if_neg hid]

namespace Keyed

theorem read (h : Keyed cache) (ids : List Uuid) : Keyed (cache.read ids) := by
  have hkey (e : Uuid × NotificationItem) :
      (if e.1 ∈ ids then (e.1, { e.2 with isRead := true }) else e).1 = e.1 := by
    split <;> rfl
  refine ⟨List.pairwise_map.mpr (h.ascending.imp fun hlt => ?_), fun e he => ?_⟩
  · rwa [hkey, hkey]
  · obtain ⟨e', he', rfl⟩ := List.mem_map.mp he
    rw [hkey, ← h.own e' he']
    split <;> rfl

/-- The identifiers before a message are smaller, and those after it are greater. -/
theorem around (h : Keyed cache) (hi : cache.get? id = some i) :
    ∃ before after, cache = before ++ (id, i) :: after ∧
      (∀ e ∈ before, e.1.value < id.value) ∧ ∀ e ∈ after, id.value < e.1.value := by
  obtain ⟨hmem, rfl⟩ := h.get_iff.mp hi
  obtain ⟨e, he, rfl⟩ := List.mem_map.mp hmem
  obtain ⟨before, after, rfl⟩ := List.append_of_mem he
  have hown : e = (e.2.id, e.2) := Prod.ext (h.own e he).symm rfl
  obtain ⟨-, hafter, hbefore⟩ := List.pairwise_append.mp h.ascending
  rw [h.own e he]
  refine ⟨before, after, rfl, fun e' he' => hbefore e' he' e List.mem_cons_self, ?_⟩
  exact (List.pairwise_cons.mp hafter).1

end Keyed

/-- A message takes the place of the one under its identifier. -/
theorem put_at {before : NotificationCache} (hbefore : ∀ e ∈ before, e.1.value < id.value)
    (item i : NotificationItem) (after : NotificationCache) :
    put id item (before ++ (id, i) :: after) = before ++ (id, item) :: after := by
  induction before with
  | nil => rw [List.nil_append, put, if_pos rfl, List.nil_append]
  | cons e before ih =>
      obtain ⟨k, j⟩ := e
      have hlt : k.value < id.value := hbefore (k, j) List.mem_cons_self
      have hne : id ≠ k := fun heq => Nat.ne_of_lt hlt (congrArg Uuid.value heq.symm)
      rw [List.cons_append, put, if_neg hne, if_neg (Nat.lt_asymm hlt),
        ih fun e he => hbefore e (List.mem_cons_of_mem _ he), List.cons_append]

/-- So does the message marked as read. -/
theorem read_at {before after : NotificationCache} (hbefore : ∀ e ∈ before, e.1.value < id.value)
    (hafter : ∀ e ∈ after, id.value < e.1.value) (i : NotificationItem) :
    read [id] (before ++ (id, i) :: after) =
      before ++ (id, { i with isRead := true }) :: after := by
  have hothers (e : Uuid × NotificationItem) (hne : e.1.value ≠ id.value) : e.1 ∉ [id] :=
    fun hmem => hne (congrArg Uuid.value (List.mem_singleton.mp hmem))
  have hread := read_of_not_mem fun e he => hothers e (Nat.ne_of_lt (hbefore e he))
  have hread' := read_of_not_mem fun e he => hothers e (Nat.ne_of_gt (hafter e he))
  unfold read at hread hread' ⊢
  rw [List.map_append, List.map_cons, hread, hread', if_pos List.mem_cons_self]

/-- Storing a message marked as read. -/
theorem Keyed.put_read (h : Keyed cache) (hi : cache.get? id = some i) :
    cache.put id { i with isRead := true } = cache.read [id] := by
  obtain ⟨before, after, rfl, hbefore, hafter⟩ := h.around hi
  rw [put_at hbefore, read_at hbefore hafter]

/-- Of the messages one less is unread. -/
theorem Keyed.unread_read (h : Keyed cache) (hi : cache.get? id = some i)
    (hunread : i.isRead = false) : (cache.read [id]).unread + 1 = cache.unread := by
  obtain ⟨before, after, rfl, hbefore, hafter⟩ := h.around hi
  rw [read_at hbefore hafter]
  simp only [unread, items, List.map_append, List.map_cons, List.countP_append, List.countP_cons,
    hunread]
  simp
  omega

theorem unread_eq_length (cache : NotificationCache) : cache.unread = cache.unreadItems.length := by
  rw [unread, items, List.countP_map, List.countP_eq_length_filter, unreadItems, List.length_map]
  rfl

/-- An unread message is held under its identifier. -/
theorem Keyed.mem_unread_items (h : Keyed cache) :
    i ∈ cache.unreadItems ↔ cache.get? i.id = some i ∧ i.isRead = false := by
  rw [h.get_iff, items, unreadItems, List.mem_map, List.mem_map]
  constructor
  · rintro ⟨e, he, rfl⟩
    obtain ⟨hmem, hunread⟩ := List.mem_filter.mp he
    exact ⟨⟨⟨e, hmem, rfl⟩, rfl⟩, by simpa using hunread⟩
  · rintro ⟨⟨⟨e, he, rfl⟩, -⟩, hunread⟩
    exact ⟨e, List.mem_filter.mpr ⟨he, by simpa using hunread⟩, rfl⟩

/-- No two unread messages have the same identifier. -/
theorem Keyed.unread_items_distinct (h : Keyed cache) :
    (cache.unreadItems.map NotificationItem.id).Nodup := by
  refine (List.Sublist.map NotificationItem.id ?_).nodup h.distinct
  exact List.filter_sublist.map Prod.snd

/-- A cache in which all messages are read. -/
def allRead (cache : NotificationCache) : NotificationCache :=
  cache.map fun e => (e.1, { e.2 with isRead := true })

theorem read_of_mem_all_read (h : i ∈ cache.allRead.items) : i.isRead = true := by
  obtain ⟨e, he, rfl⟩ := List.mem_map.mp h
  obtain ⟨e', -, rfl⟩ := List.mem_map.mp he
  rfl

/-- With all unread messages read, all messages are. -/
theorem Keyed.read_unread_items (h : Keyed cache) {order : List NotificationItem}
    (horder : order.Perm cache.unreadItems) :
    cache.read (order.map NotificationItem.id) = cache.allRead := by
  refine List.map_congr_left fun e he => ?_
  split
  next => rfl
  next hother =>
    -- a message that is not among the unread ones is read
    have hread : e.2.isRead = true := by
      by_contra hunread
      have hmem : e.2 ∈ cache.unreadItems :=
        List.mem_map_of_mem (List.mem_filter.mpr ⟨he, by simpa using hunread⟩)
      refine hother (h.own e he ▸ ?_)
      exact List.mem_map_of_mem (horder.mem_iff.mpr hmem)
    obtain ⟨key, id, title, message, timestamp, isRead, kind⟩ := e
    obtain rfl : isRead = true := hread
    rfl

end NotificationCache

namespace Feed

/-- A feed after messages have been stored as read, one after another. -/
def readInTurn (f : Feed) (order : List NotificationItem) : Feed :=
  order.foldl (fun f i => f.store { i with isRead := true }) f

/-- What is announced when messages are read one after another, first of all first. -/
def readNews (cache : NotificationCache) : List Uuid → List FeedEvent
  | [] => []
  | id :: ids =>
    .unread (cache.read [id]).unread :: .feed (cache.read [id]).snapshot ::
      readNews (cache.read [id]) ids

/-- Different messages that a feed holds unread. -/
structure Waiting (f : Feed) (order : List NotificationItem) : Prop where
  keyed : f.cache.Keyed
  distinct : (order.map NotificationItem.id).Nodup
  unread : ∀ i ∈ order, f.cache.get? i.id = some i ∧ i.isRead = false

namespace Waiting

variable {f : Feed} {i : NotificationItem} {order : List NotificationItem}

/-- All unread messages, in any order. -/
theorem of_perm (hkeyed : f.cache.Keyed) (horder : order.Perm f.cache.unreadItems) :
    Waiting f order where
  keyed := hkeyed
  distinct := (horder.map NotificationItem.id).nodup_iff.mpr hkeyed.unread_items_distinct
  unread _ hi := hkeyed.mem_unread_items.mp (horder.mem_iff.mp hi)

theorem left {rest : List NotificationItem} (h : Waiting f (order ++ rest)) : Waiting f order where
  keyed := h.keyed
  distinct := ((List.sublist_append_left order rest).map NotificationItem.id).nodup h.distinct
  unread i hi := h.unread i (List.mem_append_left rest hi)

theorem store_cache (h : Waiting f (i :: order)) :
    (f.store { i with isRead := true }).cache = f.cache.read [i.id] := by
  rw [Feed.store_cache]
  exact h.keyed.put_read (h.unread i List.mem_cons_self).1

/-- The others go on waiting when the first message has been read. -/
theorem store (h : Waiting f (i :: order)) : Waiting (f.store { i with isRead := true }) order := by
  obtain ⟨hother, hdistinct⟩ := List.nodup_cons.mp h.distinct
  refine ⟨?_, hdistinct, fun j hj => ?_⟩
  · rw [h.store_cache]
    exact h.keyed.read [i.id]
  · have hne : j.id ∉ [i.id] := fun hmem =>
      hother (List.mem_singleton.mp hmem ▸ List.mem_map_of_mem hj)
    obtain ⟨hheld, hunread⟩ := h.unread j (List.mem_cons_of_mem _ hj)
    rw [h.store_cache, NotificationCache.get_read, hheld, Option.map_some, if_neg hne]
    exact ⟨rfl, hunread⟩

/-- One message less is unread. -/
theorem unread_store (h : Waiting f (i :: order)) :
    (f.store { i with isRead := true }).cache.unread + 1 = f.cache.unread := by
  obtain ⟨hheld, hunread⟩ := h.unread i List.mem_cons_self
  rw [h.store_cache, h.keyed.unread_read hheld hunread]

/-- Reading a message announces the number of those that are left, and the feed. -/
theorem store_events (h : Waiting f (i :: order)) :
    (f.store { i with isRead := true }).events =
      .feed (f.cache.read [i.id]).snapshot :: .unread (f.cache.read [i.id]).unread :: f.events := by
  have hcache := h.store_cache
  have hunread := h.unread_store
  rw [Feed.store, become_cache] at hcache hunread
  rw [Feed.store, become_events, if_neg (by omega), hcache]
  rfl

theorem read_cache (h : Waiting f order) :
    (f.readInTurn order).cache = f.cache.read (order.map NotificationItem.id) := by
  induction order generalizing f with
  | nil => exact (NotificationCache.read_nil _).symm
  | cons i order ih =>
      rw [readInTurn, List.foldl_cons, ← readInTurn, ih h.store, h.store_cache,
        ← NotificationCache.read_append]
      rfl

theorem read_events (h : Waiting f order) :
    (f.readInTurn order).events =
      (readNews f.cache (order.map NotificationItem.id)).reverse ++ f.events := by
  induction order generalizing f with
  | nil => rfl
  | cons i order ih =>
      rw [readInTurn, List.foldl_cons, ← readInTurn, ih h.store, h.store_events, h.store_cache]
      simp [readNews]

/-- The numbers that are announced count down. -/
theorem read_counts (h : Waiting f order) {left : Nat}
    (hleft : f.cache.unread = order.length + left) :
    (readNews f.cache (order.map NotificationItem.id)).filterMap FeedEvent.unread? =
      (List.range order.length).reverse.map (· + left) := by
  induction order generalizing f with
  | nil => rfl
  | cons i order ih =>
      have hcount := h.unread_store
      rw [List.length_cons] at hleft
      have hnext : (f.cache.read [i.id]).unread = order.length + left := by
        rw [← h.store_cache]
        omega
      have hrest := ih h.store (by rw [h.store_cache, hnext])
      rw [h.store_cache] at hrest
      rw [List.map_cons, readNews, List.length_cons, List.range_succ, List.reverse_append]
      simp only [List.filterMap_cons, FeedEvent.unread?, hrest, hnext, List.reverse_singleton,
        List.map_cons, List.singleton_append]

end Waiting

end Feed

end CustomerDedupe
