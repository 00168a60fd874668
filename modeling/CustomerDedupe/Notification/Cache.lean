import CustomerDedupe.Notification.Basic

/-!
# Cached notifications

The messages that a feed holds, each under its identifier, in ascending order of identifiers.
`get?_put` says what storing a message changes.
-/

namespace CustomerDedupe

/-- Messages by identifier, in ascending order. -/
abbrev NotificationCache :=
  List (Uuid × NotificationItem)

namespace NotificationCache

/-- Stores a message under an identifier, in place of one that is there. -/
def put (id : Uuid) (item : NotificationItem) : NotificationCache → NotificationCache
  | [] => [(id, item)]
  | (k, i) :: rest =>
    if id = k then (id, item) :: rest
    else if id.value < k.value then (id, item) :: (k, i) :: rest
    else (k, i) :: put id item rest

/-- Removes the message under an identifier. -/
def remove (id : Uuid) (cache : NotificationCache) : NotificationCache :=
  cache.filter fun e => e.1 != id

/-- The message under an identifier. -/
def get? (id : Uuid) (cache : NotificationCache) : Option NotificationItem :=
  cache.lookup id

/-- The messages, in ascending order of identifiers. -/
def items (cache : NotificationCache) : List NotificationItem :=
  cache.map Prod.snd

/-- The number of messages that have not been read. -/
def unread (cache : NotificationCache) : Nat :=
  (items cache).countP fun i => !i.isRead

/-- Whether a message is at least as new as another. Messages without a time are the oldest. -/
def newerOrSame (a b : NotificationItem) : Bool :=
  match a.timestamp, b.timestamp with
  | _, none => true
  | none, some _ => false
  | some t, some u => u ≤ t

/-- The messages, newest first. -/
def snapshot (cache : NotificationCache) : List NotificationItem :=
  (items cache).mergeSort newerOrSame

/-- The cache of some messages, of which the last with an identifier counts. -/
def ofItems (is : List NotificationItem) : NotificationCache :=
  is.foldl (fun cache i => put i.id i cache) []

@[simp] theorem get?_nil (key : Uuid) : get? key [] = none := rfl

@[simp] theorem get?_cons (key id : Uuid) (item : NotificationItem) (rest : NotificationCache) :
    get? key ((id, item) :: rest) = if key = id then some item else get? key rest := by
  by_cases h : key = id
  · simp [get?, h]
  · have hne : (key == id) = false := by simpa using h
    simp [get?, List.lookup_cons, hne, h]

/-- Storing a message changes what is under its identifier and nothing else. -/
theorem get?_put (id key : Uuid) (item : NotificationItem) (cache : NotificationCache) :
    get? key (put id item cache) = if key = id then some item else get? key cache := by
  induction cache with
  | nil => simp [put]
  | cons e rest ih =>
    obtain ⟨k, i⟩ := e
    simp only [put]
    split
    · rename_i hk
      subst hk
      by_cases h : key = id <;> simp [h]
    · rename_i hk
      split
      · simp
      · by_cases h : key = k
        · subst h
          have hk' : ¬key = id := fun e => hk e.symm
          simp [hk']
        · simp [h, ih]

end NotificationCache

end CustomerDedupe
