import CustomerDedupe.Notification.Cache
import CustomerDedupe.Notification.Realtime
import CustomerDedupe.Rest.Request

/-!
# The notification feed

A user's feed keeps a copy of the user's rows on the server. Loading replaces the copy; adding,
marking as read and pushed changes keep it current, the last write for a message counting.
Every change is announced: the number of unread messages if it differs, and the whole feed.
-/

namespace CustomerDedupe

open Calendar (Instant)

/-- What a feed announces. -/
inductive FeedEvent where
  | unread (count : Nat)
  | feed (items : List NotificationItem)
  deriving DecidableEq, Repr

/-- A feed of a user, if one is signed in, with its copy of the rows and its announcements,
last first. -/
structure Feed where
  user : Option Uuid
  cache : NotificationCache
  events : List FeedEvent

namespace Feed

/-- A feed that has loaded nothing. -/
def new (user : Option Uuid) : Feed :=
  ⟨user, [], []⟩

/-- Announces something. -/
def emit (f : Feed) (e : FeedEvent) : Feed :=
  { f with events := e :: f.events }

/-- Takes over a changed copy and announces what has changed. -/
def become (f : Feed) (cache : NotificationCache) : Feed :=
  let changed : Feed := { f with cache := cache }
  let told :=
    if cache.unread = f.cache.unread then changed
    else changed.emit (.unread cache.unread)
  told.emit (.feed cache.snapshot)

/-- Stores a message. -/
def store (f : Feed) (i : NotificationItem) : Feed :=
  f.become (f.cache.put i.id i)

/-- Removes a message. -/
def remove (f : Feed) (id : Uuid) : Feed :=
  f.become (f.cache.remove id)

/-- Takes over loaded messages, in place of all others. -/
def load (f : Feed) (items : List NotificationItem) : Feed :=
  let cache := NotificationCache.ofItems items
  ({ f with cache := cache }.emit (.unread cache.unread)).emit (.feed items)

/-- What a pushed change means for a user's feed. -/
inductive Delta where
  | none
  /-- The change names a row that cannot be decoded. -/
  | unreadable (event : ChangeEvent)
  | store (row : NotificationRow)
  | remove (id : Uuid)
  deriving DecidableEq, Repr

/-- Reads a pushed change for a user. Changes of other users mean nothing. -/
def Delta.read (user : Uuid) (c : RealtimeChange) : Delta :=
  let row := RealtimeChange.record? NotificationRow.schema c.new
  let key := (RealtimeChange.record? NotificationKey.schema c.old).getD ⟨.none, .none⟩
  let owner := (row.map NotificationRow.userId).or key.userId
  if owner.any fun u => u != user then .none
  else
    match c.event, row, key.id with
    | .delete, _, some id => .remove id
    | .delete, _, .none => .none
    | _, some r, _ => .store r
    | e, .none, _ => .unreadable e

/-- A feed in a world. -/
structure Kept (σ : Type) where
  feed : Feed
  outside : σ

/-- The name of the table. -/
def tableName : String :=
  "notification_feed"

variable {σ α : Type}

/-- Writes a log entry. -/
def note (level : Level) (message : String) : Action (Kept σ) Unit :=
  .log level .notifications message

/-- Does something outside the feed. -/
def outward (a : Action σ α) : Action (Kept σ) α :=
  a.zoom Kept.outside fun w o => { w with outside := o }

/-- Changes the feed. -/
def modify (g : Feed → Feed) : Action (Kept σ) Unit :=
  .change fun w => { w with feed := g w.feed }

/-- The feed as it is. -/
def current : Action (Kept σ) Feed := do
  return (← Action.world).feed

/-- Reads rows of the table. -/
def rows (ex : Rest.Exchange σ) (filters : List Rest.Filter) (order : Option Rest.Order) :
    Action (Kept σ) (List NotificationRow) :=
  outward (Rest.select ex (Rest.record NotificationRow.schema) tableName filters order)

/-- Loads the user's messages, newest first. -/
def get (ex : Rest.Exchange σ) (now : Instant) : Action (Kept σ) (List NotificationItem) := do
  match (← current).user with
  | none =>
    note .warn "No authenticated user; returning empty notification feed"
    pure []
  | some user =>
    match ← (rows ex [.eq "user_id" user.text] (some ⟨"created_at", false⟩)).outcome with
    | .error e =>
      note .error ("❌ Failed to load notification feed: " ++ e.message)
      throw e
    | .ok rs =>
      let items := rs.map (NotificationRow.toItem now)
      modify fun f => f.load items
      note .debug ("Loaded " ++ Text.showNat items.length ++ " notification(s), " ++
        Text.showNat (NotificationCache.ofItems items).unread ++ " unread")
      pure items

/-- The number of unread messages: among those held, or on the server if none are held. -/
def unreadCount (ex : Rest.Exchange σ) : Action (Kept σ) Nat := do
  let f ← current
  if !f.cache.isEmpty then pure f.cache.unread
  else
    match f.user with
    | none =>
      note .debug "No authenticated user; unread count is 0"
      pure 0
    | some user =>
      let rs ← rows ex [.eq "user_id" user.text, .eq "is_read" "false"] none
      pure rs.length

/-- The message under an identifier: the one held, or the one on the server. -/
def lookUp (ex : Rest.Exchange σ) (now : Instant) (id : Uuid) :
    Action (Kept σ) (Option NotificationItem) := do
  match (← current).cache.get? id with
  | some i => pure (some i)
  | none =>
    let rs ← rows ex [.eq "id" id.text] none
    pure (rs.head?.map (NotificationRow.toItem now))

/-- Marks a message as read, unless it is unknown or has been read. -/
def markAsRead (ex : Rest.Exchange σ) (moment : Moment) (id : Uuid) : Action (Kept σ) Unit := do
  match (← current).user with
  | none => note .debug "No authenticated user; skipping mark-as-read"
  | some user =>
    match ← lookUp ex moment.now id with
    | none => pure ()
    | some i =>
      if i.isRead then pure ()
      else
        let updated := { i with isRead := true }
        let _ ← outward (Rest.update ex Json.anything tableName [.eq "id" id.text]
          (NotificationRow.ofItem moment user updated).toJson)
        modify fun f => f.store updated

/-- Marks every message held as read, one after another. -/
def markAllRead (ex : Rest.Exchange σ) (moment : Moment) : Action (Kept σ) Unit := do
  let unread := ((← current).cache.filter fun e => !e.2.isRead).map fun e => e.2.id
  unread.forM fun id => markAsRead ex moment id

/-- Adds a message. What the server has stored is taken over. -/
def add (ex : Rest.Exchange σ) (moment : Moment) (item : NotificationItem) :
    Action (Kept σ) Unit := do
  match (← current).user with
  | none => note .debug "No authenticated user; skipping notification insert"
  | some user =>
    let timed := { item with timestamp := some (item.timestamp.getD moment.now) }
    let stored ← outward (Rest.insert ex (Rest.record NotificationRow.schema) tableName
      (NotificationRow.ofItem moment user timed).toJson)
    match stored with
    | [] => pure ()
    | r :: _ => modify fun f => f.store (r.toItem moment.now)

/-- Applies a pushed change. -/
def applyChange (now : Instant) (c : RealtimeChange) : Action (Kept σ) Unit := do
  match (← current).user with
  | none => pure ()
  | some user =>
    match Delta.read user c with
    | .none => pure ()
    | .unreadable e => note .warn ("Realtime " ++ e.name ++ " without a decodable row")
    | .store r => modify fun f => f.store (r.toItem now)
    | .remove id => modify fun f => f.remove id

/-- Applies pushed changes until there are no more. -/
def listen (now : Instant) (changes : List RealtimeChange) : Action (Kept σ) Unit := do
  changes.forM (applyChange now)
  note .debug "Notification realtime listener finished"

/-- How many announcements wait for a subscriber who does not take them. -/
def eventCapacity : Nat :=
  64

/-- What a subscriber receives of some announcements: how many were lost, and the rest. -/
def received (events : List FeedEvent) : Nat × List FeedEvent :=
  let lost := events.length - eventCapacity
  (lost, events.drop lost)

end Feed

end CustomerDedupe
