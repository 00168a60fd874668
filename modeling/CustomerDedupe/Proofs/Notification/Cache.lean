import Mathlib.Data.List.Basic
import CustomerDedupe.Notification.Cache
import CustomerDedupe.Proofs.Order.Stable
import CustomerDedupe.Proofs.Uuid

/-!
# The copy that a feed holds

A cache is `Keyed` if its identifiers ascend and every message stands under its own. Storing and
removing messages keep it so. The messages of a cache made of messages with different identifiers
are these (`of_items_perm`), and a snapshot lists the messages from the newest to the oldest
(`snapshot_newest_first`).
-/

namespace CustomerDedupe

namespace NotificationCache

/-- The identifiers of a cache ascend, and every message stands under its own. -/
structure Keyed (cache : NotificationCache) : Prop where
  ascending : cache.Pairwise fun a b => a.1.value < b.1.value
  own : ∀ e ∈ cache, e.2.id = e.1

variable {cache : NotificationCache} {id : Uuid} {item : NotificationItem}

/-- Storing a message adds no other. -/
theorem mem_of_mem_put {e : Uuid × NotificationItem} (h : e ∈ put id item cache) :
    e = (id, item) ∨ e ∈ cache := by
  induction cache with
  | nil => exact .inl (List.mem_singleton.mp h)
  | cons first rest ih =>
      obtain ⟨k, i⟩ := first
      rw [put] at h
      split at h
      next =>
        rcases List.mem_cons.mp h with h | h
        · exact .inl h
        · exact .inr (List.mem_cons_of_mem _ h)
      next =>
        split at h
        next => exact List.mem_cons.mp h
        next =>
          rcases List.mem_cons.mp h with h | h
          · exact .inr (h ▸ List.mem_cons_self)
          · exact (ih h).imp_right (List.mem_cons_of_mem _)

/-- Storing a message keeps identifiers ascending. -/
theorem ascending_put (h : cache.Pairwise fun a b => a.1.value < b.1.value) :
    (put id item cache).Pairwise fun a b => a.1.value < b.1.value := by
  induction cache with
  | nil => exact List.pairwise_singleton _ _
  | cons first rest ih =>
      obtain ⟨k, i⟩ := first
      obtain ⟨hfirst, hrest⟩ := List.pairwise_cons.mp h
      rw [put]
      split
      next hsame =>
        subst hsame
        exact List.pairwise_cons.mpr ⟨hfirst, hrest⟩
      next hother =>
        split
        next hbefore =>
          refine List.pairwise_cons.mpr ⟨?_, h⟩
          intro e he
          rcases List.mem_cons.mp he with rfl | he
          · exact hbefore
          · exact Nat.lt_trans hbefore (hfirst e he)
        next hafter =>
          refine List.pairwise_cons.mpr ⟨?_, ih hrest⟩
          intro e he
          rcases mem_of_mem_put he with rfl | he
          · have hne : k.value ≠ id.value := fun heq => hother (Uuid.value_injective heq.symm)
            exact Nat.lt_of_le_of_ne (Nat.not_lt.mp hafter) hne
          · exact hfirst e he

/-- A message under an identifier that is not there yet is one more. -/
theorem put_perm (h : id ∉ cache.map Prod.fst) :
    (put id item cache).Perm ((id, item) :: cache) := by
  induction cache with
  | nil => exact List.Perm.refl _
  | cons first rest ih =>
      obtain ⟨k, i⟩ := first
      rw [List.map_cons, List.mem_cons, not_or] at h
      rw [put, if_neg h.1]
      split
      next => exact List.Perm.refl _
      next => exact ((ih h.2).cons _).trans (List.Perm.swap _ _ _)

/-- Removing a message empties its place and no other. -/
theorem get_remove (id key : Uuid) (cache : NotificationCache) :
    get? key (remove id cache) = if key = id then none else get? key cache := by
  induction cache with
  | nil => simp [remove]
  | cons first rest ih =>
      obtain ⟨k, i⟩ := first
      rw [remove, List.filter_cons]
      by_cases hk : k = id
      · subst hk
        rw [if_neg (by simp), ← remove, ih, get?_cons]
        by_cases hkey : key = k <;> simp [hkey]
      · rw [if_pos (by simpa using hk), get?_cons, get?_cons, ← remove, ih]
        by_cases hkey : key = k
        · subst hkey
          simp [hk]
        · simp [hkey]

/-- Removing a message leaves the others. -/
theorem mem_remove {e : Uuid × NotificationItem} : e ∈ remove id cache ↔ e ∈ cache ∧ e.1 ≠ id := by
  rw [remove, List.mem_filter, bne_iff_ne]

namespace Keyed

theorem nil : Keyed [] :=
  ⟨List.Pairwise.nil, by simp⟩

theorem put (h : Keyed cache) (item : NotificationItem) : Keyed (cache.put item.id item) where
  ascending := ascending_put h.ascending
  own e he := by
    rcases mem_of_mem_put he with rfl | he
    · rfl
    · exact h.own e he

theorem remove (h : Keyed cache) (id : Uuid) : Keyed (cache.remove id) where
  ascending := h.ascending.filter _
  own e he := h.own e (mem_remove.mp he).1

/-- Storing messages one after another keeps a cache keyed. -/
theorem stored (h : Keyed cache) (is : List NotificationItem) :
    Keyed (is.foldl (fun cache i => cache.put i.id i) cache) := by
  induction is generalizing cache with
  | nil => exact h
  | cons i is ih => exact ih (h.put i)

theorem of_items (is : List NotificationItem) : Keyed (ofItems is) :=
  nil.stored is

/-- The message under an identifier is the one that has it. -/
theorem get_iff (h : Keyed cache) :
    cache.get? id = some item ↔ item ∈ cache.items ∧ item.id = id := by
  obtain ⟨hascending, hown⟩ := h
  induction cache with
  | nil => simp [items]
  | cons first rest ih =>
      obtain ⟨k, i⟩ := first
      obtain ⟨hfirst, hrest⟩ := List.pairwise_cons.mp hascending
      have hi : i.id = k := hown (k, i) List.mem_cons_self
      have hrestown : ∀ e ∈ rest, e.2.id = e.1 := fun e he => hown e (List.mem_cons_of_mem _ he)
      rw [get?_cons, items, List.map_cons, List.mem_cons, ← items]
      by_cases hid : id = k
      · rw [if_pos hid, Option.some.injEq]
        constructor
        · rintro rfl
          exact ⟨.inl rfl, hi.trans hid.symm⟩
        · rintro ⟨rfl | hmem, hitem⟩
          · rfl
          · -- the identifiers of all other messages are greater
            obtain ⟨e, he, rfl⟩ := List.mem_map.mp hmem
            have hlt := hfirst e he
            rw [← hrestown e he, hitem, hid] at hlt
            exact absurd hlt (Nat.lt_irrefl _)
      · rw [if_neg hid, ih hrest hrestown]
        constructor
        · rintro ⟨hmem, hitem⟩
          exact ⟨.inr hmem, hitem⟩
        · rintro ⟨rfl | hmem, hitem⟩
          · exact absurd (hitem.symm.trans hi) hid
          · exact ⟨hmem, hitem⟩

/-- No two messages have the same identifier. -/
theorem distinct (h : Keyed cache) : (cache.items.map NotificationItem.id).Nodup := by
  have hids : cache.items.map NotificationItem.id = cache.map Prod.fst := by
    rw [items, List.map_map]
    exact List.map_congr_left fun e he => h.own e he
  rw [hids]
  refine List.pairwise_map.mpr (h.ascending.imp ?_)
  intro a b hlt heq
  exact Nat.ne_of_lt hlt (congrArg Uuid.value heq)

end Keyed

open scoped List in
/-- Messages under identifiers that are not there yet are that many more. -/
theorem stored_perm {is : List NotificationItem} (hnew : ∀ i ∈ is, i.id ∉ cache.map Prod.fst)
    (hdistinct : (is.map NotificationItem.id).Nodup) :
    (is.foldl (fun cache i => cache.put i.id i) cache).items.Perm (is ++ cache.items) := by
  induction is generalizing cache with
  | nil => exact List.Perm.refl _
  | cons i is ih =>
      obtain ⟨hother, hrest⟩ := List.nodup_cons.mp hdistinct
      have hput : (put i.id i cache).Perm ((i.id, i) :: cache) :=
        put_perm (hnew i List.mem_cons_self)
      have hnew' : ∀ j ∈ is, j.id ∉ (cache.put i.id i).map Prod.fst := by
        intro j hj hmem
        rcases List.mem_cons.mp ((hput.map Prod.fst).mem_iff.mp hmem) with heq | hmem
        · exact hother (List.mem_map.mpr ⟨j, hj, heq⟩)
        · exact hnew j (List.mem_cons_of_mem _ hj) hmem
      calc (is.foldl (fun cache i => cache.put i.id i) (cache.put i.id i)).items
        _ ~ is ++ (cache.put i.id i).items := ih hnew' hrest
        _ ~ is ++ i :: cache.items := (hput.map Prod.snd).append_left is
        _ ~ i :: is ++ cache.items := List.perm_middle

/-- A cache of messages with different identifiers holds these. -/
theorem of_items_perm {is : List NotificationItem}
    (hdistinct : (is.map NotificationItem.id).Nodup) : (ofItems is).items.Perm is := by
  have hstored : (ofItems is).items.Perm (is ++ items []) := stored_perm (by simp) hdistinct
  rwa [show items [] = [] from rfl, List.append_nil] at hstored

/-! ## Newest first -/

/-- The time of the first message is not before that of the second one. Messages without a time
are the oldest. -/
def NotBefore (a b : NotificationItem) : Prop :=
  ∀ u, b.timestamp = some u → ∃ t, a.timestamp = some t ∧ u ≤ t

theorem newer_or_same_iff {a b : NotificationItem} : newerOrSame a b = true ↔ NotBefore a b := by
  unfold newerOrSame NotBefore
  cases a.timestamp <;> cases b.timestamp <;> simp

/-- The newer message is preferred. -/
theorem newer_preference : Order.Preference newerOrSame where
  trans a b c hab hbc := by
    rw [newer_or_same_iff] at hab hbc ⊢
    intro u hu
    obtain ⟨t, ht, hut⟩ := hbc u hu
    obtain ⟨s, hs, hts⟩ := hab t ht
    exact ⟨s, hs, Calendar.Instant.le_trans hut hts⟩
  total a b := by
    unfold newerOrSame
    cases a.timestamp <;> cases b.timestamp <;> simp [Calendar.Instant.le_total]

/-- Messages from the newest to the oldest. -/
def NewestFirst (is : List NotificationItem) : Prop :=
  is.Pairwise NotBefore

theorem snapshot_perm (cache : NotificationCache) : cache.snapshot.Perm cache.items :=
  List.mergeSort_perm _ _

/-- A snapshot lists the newest message first. -/
theorem snapshot_newest_first (cache : NotificationCache) : NewestFirst cache.snapshot :=
  (newer_preference.sorted_merge_sort cache.items).imp newer_or_same_iff.mp

end NotificationCache

end CustomerDedupe
