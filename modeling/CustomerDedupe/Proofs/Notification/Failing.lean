import CustomerDedupe.Proofs.Notification.Marking

/-!
# Operations that fail

An operation of a feed that fails leaves the feed as it was: it asks the server before it touches
what is held, and nothing fails after that (`FailsIdle`). Marking several messages as read is no such
operation. It leaves those marked whose requests have been accepted before the one that has failed
(`StopsAt`).
-/

namespace CustomerDedupe.Feed

open Calendar (Instant)
open Rest (Answered Accepted logged)

variable {σ α : Type}

/-- An action that fails leaves the feed as it was, with all that it holds and has announced. -/
def FailsIdle (a : Action (Kept σ) α) : Prop :=
  ∀ s e after, a.run s = (.error e, after) → after.world.feed = s.world.feed

theorem FailsIdle.of_ensures {a : Action (Kept σ) α}
    (h : ∀ f, Action.Ensures (fun w => w.feed = f) a (fun _ _ => True) fun w => w.feed = f) :
    FailsIdle a :=
  fun s e after hrun => (h s.world.feed s rfl).2 e after hrun

section Steps

variable {P E : Kept σ → Prop} {f : Feed}

theorem current_ensures : Action.Ensures P current (fun _ => P) E := by
  intro s hs
  refine ⟨?_, ?_⟩
  · rintro x after ⟨⟩
    exact hs
  · rintro e after ⟨⟩

theorem modify_ensures (g : Feed → Feed) : Action.Ensures P (modify g) (fun _ _ => True) E := by
  intro s _
  refine ⟨fun _ _ _ => trivial, ?_⟩
  rintro e after ⟨⟩

theorem note_ensures (level : Level) (message : String) :
    Action.Ensures P (note level message) (fun _ => P) E :=
  .log fun _ h => h

/-- What is done outside the feed leaves it as it is, whether or not it fails. -/
theorem outward_idle (a : Action σ α) :
    Action.Ensures (fun w => w.feed = f) (outward a) (fun _ w => w.feed = f) fun w => w.feed = f := by
  rintro s rfl
  have hfeed : ((outward a).run s).2.world.feed = s.world.feed := rfl
  refine ⟨fun x after hrun => ?_, fun e after hrun => ?_⟩
  · rwa [hrun] at hfeed
  · rwa [hrun] at hfeed

theorem outcome_ensures {a : Action (Kept σ) α} (h : Action.Ensures P a (fun _ => P) P) :
    Action.Ensures P a.outcome (fun _ => P) E := by
  intro s hs
  have hrun : a.outcome.run s = (.ok (a.run s).1, (a.run s).2) := Action.run_outcome rfl
  rw [hrun]
  refine ⟨?_, ?_⟩
  · rintro x after ⟨⟩
    exact h.world hs
  · rintro e after ⟨⟩

end Steps

/-! ## Single operations -/

variable (ex : Rest.Exchange σ)

theorem get_fails_idle (now : Instant) : FailsIdle (get ex now) := by
  refine .of_ensures fun f => current_ensures.bind fun _ => ?_
  split
  next => exact (note_ensures _ _).bind fun _ => .pure fun _ _ => trivial
  next user =>
    refine (outcome_ensures (outward_idle _)).bind fun answer => ?_
    split
    next e => exact (note_ensures _ _).bind fun _ => .throw fun _ h => h
    next rs =>
      -- nothing fails once the rows have been received
      refine (modify_ensures _).bind fun _ => ?_
      exact (note_ensures _ _).bind fun _ => .pure fun _ h => h

theorem unread_count_fails_idle : FailsIdle (unreadCount ex) := by
  refine .of_ensures fun f => current_ensures.bind fun _ => ?_
  split
  next => exact .pure fun _ _ => trivial
  next =>
    split
    next => exact (note_ensures _ _).bind fun _ => .pure fun _ _ => trivial
    next user => exact (outward_idle _).bind fun _ => .pure fun _ _ => trivial

theorem look_up_idle (now : Instant) (id : Uuid) (f : Feed) :
    Action.Ensures (fun w => w.feed = f) (lookUp ex now id) (fun _ w => w.feed = f)
      fun w => w.feed = f := by
  refine current_ensures.bind fun _ => ?_
  split
  next => exact .pure fun _ h => h
  next => exact (outward_idle _).bind fun _ => .pure fun _ h => h

theorem mark_as_read_fails_idle (moment : Moment) (id : Uuid) :
    FailsIdle (markAsRead ex moment id) := by
  refine .of_ensures fun f => current_ensures.bind fun _ => ?_
  split
  next => exact .log fun _ _ => trivial
  next user =>
    refine (look_up_idle ex _ _ f).bind fun found => ?_
    split
    next => exact .pure fun _ _ => trivial
    next i =>
      split
      next => exact .pure fun _ _ => trivial
      next => exact (outward_idle _).bind fun _ => modify_ensures _

theorem add_fails_idle (moment : Moment) (item : NotificationItem) :
    FailsIdle (add ex moment item) := by
  refine .of_ensures fun f => current_ensures.bind fun _ => ?_
  split
  next => exact .log fun _ _ => trivial
  next user =>
    refine (outward_idle _).bind fun stored => ?_
    split
    next => exact .pure fun _ _ => trivial
    next r rest => exact modify_ensures _

/-! ## Marking in turn -/

/-- Marking messages in turn has stopped at the request for one of them. Those before it are read, and
nothing else has changed. -/
structure StopsAt (moment : Uuid → Moment) (user : Uuid) (done : List NotificationItem)
    (i : NotificationItem) (s after : Session (Kept (σ × List Answered))) : Prop where
  /-- The request for the message has failed, and the ones before it have been accepted. -/
  log : ∃ (sent : List Answered) (answer : Except Failure Json.Document),
    requestLog after = (readRequest (moment i.id) user i, answer) :: sent.reverse ++ requestLog s ∧
    sent.map Prod.fst = (done.map fun i => readRequest (moment i.id) user i) ∧
    (∀ a ∈ sent, Accepted Json.anything a.2) ∧ ¬ Accepted Json.anything answer
  cache : after.world.feed.cache = s.world.feed.cache.read (done.map NotificationItem.id)
  events : after.world.feed.events =
    (readNews s.world.feed.cache (done.map NotificationItem.id)).reverse ++ s.world.feed.events

/-- Without a user nothing fails. -/
theorem mark_in_turn_of_no_user {s : Session (Kept σ)} (huser : s.world.feed.user = none)
    (moment : Uuid → Moment) (order : List NotificationItem) :
    ∃ after, (markInTurn ex moment order).run s = (.ok (), after) := by
  induction order generalizing s with
  | nil => exact ⟨s, rfl⟩
  | cons i order ih =>
      obtain ⟨noted, hnoted, hworld⟩ : ∃ noted,
          (markAsRead ex (moment i.id) i.id).run s = (.ok (), noted) ∧ noted.world = s.world := by
        unfold markAsRead
        rw [Action.run_bind_ok (run_current s)]
        simp only [huser]
        exact ⟨_, rfl, rfl⟩
      obtain ⟨after, hrun⟩ := ih (s := noted) (by rw [hworld, huser])
      exact ⟨after, (Action.run_bind_ok hnoted _).trans hrun⟩

/-- Marking messages in turn that fails has stopped at one of them. -/
theorem mark_in_turn_stops {moment : Uuid → Moment} {order : List NotificationItem}
    {s after : Session (Kept (σ × List Answered))} {e : Failure}
    (hkeyed : s.world.feed.cache.Keyed) (horder : order.Perm s.world.feed.cache.unreadItems)
    (hrun : (markInTurn (logged ex) moment order).run s = (.error e, after)) :
    ∃ user done i rest, s.world.feed.user = some user ∧ order = done ++ i :: rest ∧
      StopsAt moment user done i s after := by
  cases huser : s.world.feed.user with
  | none =>
      obtain ⟨after', hok⟩ := mark_in_turn_of_no_user (logged ex) huser moment order
      rw [hrun] at hok
      cases hok
  | some user =>
      have hwaiting := Waiting.of_perm hkeyed horder
      obtain ⟨done, rest, sent, mid, rfl, hmid, hend⟩ := mark_in_turn_cases ex huser moment hwaiting
      rw [hrun] at hend
      rcases hend with ⟨-, hend⟩ | ⟨i, later, e, answer, failed, rfl, hend, hfeed, hlog, hrefused⟩
      · cases hend
      · obtain ⟨-, rfl⟩ := Prod.mk.inj hend
        refine ⟨user, done, i, later, rfl, rfl, ⟨sent, answer, ?_, hmid.requests, hmid.accepted,
          hrefused⟩, ?_, ?_⟩
        · rw [hlog, hmid.log]
          rfl
        · rw [hfeed, hmid.feed, hwaiting.left.read_cache]
        · rw [hfeed, hmid.feed, hwaiting.left.read_events]

/-- An operation that fails leaves the feed as it was, but for marking all messages as read, which
leaves those marked that come before the one whose request has failed. -/
theorem failing_operation_leaves_feed (ex : Rest.Exchange σ) :
    ((∀ now, FailsIdle (get ex now)) ∧ FailsIdle (unreadCount ex) ∧
      (∀ moment id, FailsIdle (markAsRead ex moment id)) ∧
      ∀ moment item, FailsIdle (add ex moment item)) ∧
    ∀ s : Session (Kept (σ × List Answered)), s.world.feed.cache.Keyed →
      (∀ moment, (markAllRead (logged ex) moment).run s =
        (markInTurn (logged ex) (fun _ => moment) s.world.feed.cache.unreadItems).run s) ∧
      ∀ moment order e after, order.Perm s.world.feed.cache.unreadItems →
        (markInTurn (logged ex) moment order).run s = (.error e, after) →
        ∃ user done i rest, s.world.feed.user = some user ∧ order = done ++ i :: rest ∧
          StopsAt moment user done i s after := by
  refine ⟨⟨get_fails_idle ex, unread_count_fails_idle ex, mark_as_read_fails_idle ex,
    add_fails_idle ex⟩, fun s hkeyed => ⟨fun moment => mark_all_read_run _ moment s, ?_⟩⟩
  exact fun _ _ _ _ horder hrun => mark_in_turn_stops ex hkeyed horder hrun

/-- A server that takes a number of requests and refuses all others. -/
def takesOnly : Rest.Exchange Nat := fun _ =>
  .perform fun n =>
    match n with
    | 0 => (.error (.refused 503 "Service Unavailable"), 0)
    | n + 1 => (.ok (.ofJson (.arr [])), n)

/-- Of two messages marked as read in turn the second one is refused. -/
theorem second_marking_refused :
    let first : NotificationItem := ⟨.ofNat 4, "New customers", "", none, false, ""⟩
    let second : NotificationItem := ⟨.ofNat 3, "Duplicates found", "", none, false, ""⟩
    let s : Session (Kept (Nat × List Answered)) :=
      ⟨⟨⟨some (.ofNat 1), [(.ofNat 3, second), (.ofNat 4, first)], []⟩, (1, [])⟩, []⟩
    s.world.feed.cache.Keyed ∧ [first, second].Perm s.world.feed.cache.unreadItems ∧
      ∃ e after, (markInTurn (logged takesOnly) (fun _ => ⟨default, .ofNat 2⟩)
          [first, second]).run s = (.error e, after) ∧
        ∃ user done i rest, s.world.feed.user = some user ∧
          [first, second] = done ++ i :: rest ∧
          StopsAt (fun _ => ⟨default, .ofNat 2⟩) user done i s after := by
  intro first second s
  have hkeyed : s.world.feed.cache.Keyed := (NotificationCache.Keyed.nil.put first).put second
  have horder : [first, second].Perm s.world.feed.cache.unreadItems := List.Perm.swap _ _ _
  refine ⟨hkeyed, horder, _, _, rfl, ?_⟩
  exact ((failing_operation_leaves_feed takesOnly).2 s hkeyed).2 _ _ _ _ horder rfl

end CustomerDedupe.Feed
