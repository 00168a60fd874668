import CustomerDedupe.Proofs.Notification.ReadMessages
import CustomerDedupe.Proofs.Rest.Logged

/-!
# Marking messages as read in turn

Marking all messages as read takes the unread ones one after another, in whatever order they come
(`markInTurn`). Each takes one request, and where its answer is accepted the message is read
(`mark_held_run`); the first one that fails ends the run, and those before it stay read
(`mark_in_turn_cases`). With all answers accepted there is one request for each unread message, all
messages are read and the numbers announced count down to zero (`all_marked_once`).
-/

namespace CustomerDedupe.Feed

open Rest (Answered Accepted logged)

variable {σ : Type}

/-- Marks messages as read in turn, each at a moment of its own. -/
def markInTurn (ex : Rest.Exchange σ) (moment : Uuid → Moment) (order : List NotificationItem) :
    Action (Kept σ) Unit :=
  order.forM fun i => markAsRead ex (moment i.id) i.id

/-- Marking all messages as read marks the unread ones in turn. -/
theorem mark_all_read_run (ex : Rest.Exchange σ) (moment : Moment) (s : Session (Kept σ)) :
    (markAllRead ex moment).run s =
      (markInTurn ex (fun _ => moment) s.world.feed.cache.unreadItems).run s := by
  unfold markAllRead markInTurn
  rw [Action.run_bind_ok (run_current s), NotificationCache.unreadItems]
  simp only [List.forM_eq_forM, List.forM_map]

/-- The request that marks a user's message as read. -/
def readRequest (moment : Moment) (user : Uuid) (i : NotificationItem) : Rest.Request :=
  ⟨.update (NotificationRow.ofItem moment user { i with isRead := true }).toJson, tableName,
    [.eq "id" i.id.text], none⟩

/-- The requests that have been sent, with their answers, last first. -/
def requestLog (s : Session (Kept (σ × List Answered))) : List Answered :=
  s.world.outside.2

section Runs

variable (ex : Rest.Exchange σ) {user : Uuid} {i : NotificationItem}

/-- Marking an unread message that is held is to send its row and to store it. -/
theorem mark_held_eq {s : Session (Kept σ)} (huser : s.world.feed.user = some user)
    (moment : Moment) (hheld : s.world.feed.cache.get? i.id = some i) (hunread : i.isRead = false) :
    (markAsRead ex moment i.id).run s =
      (outward (Rest.rows ex Json.anything (readRequest moment user i)) >>= fun _ =>
        modify fun f => f.store { i with isRead := true }).run s := by
  unfold markAsRead
  rw [Action.run_bind_ok (run_current s)]
  simp only [huser]
  rw [Action.run_bind_ok (look_up_held moment.now hheld)]
  simp only [hunread, Bool.false_eq_true, if_false]
  rfl

/-- Marking an unread message that is held takes one request. If its answer is accepted the message
is read, and otherwise the feed stays as it is. -/
theorem mark_held_run {s : Session (Kept (σ × List Answered))}
    (huser : s.world.feed.user = some user) (moment : Moment)
    (hheld : s.world.feed.cache.get? i.id = some i) (hunread : i.isRead = false) :
    ∃ outcome answer after, (markAsRead (logged ex) moment i.id).run s = (outcome, after) ∧
      requestLog after = (readRequest moment user i, answer) :: requestLog s ∧
      (outcome = .ok () ∧ Accepted Json.anything answer ∧
          after.world.feed = s.world.feed.store { i with isRead := true } ∨
        (∃ e, outcome = .error e) ∧ ¬ Accepted Json.anything answer ∧
          after.world.feed = s.world.feed) := by
  obtain ⟨outcome, answer, after, hrun, hlog, hcases⟩ := Rest.rows_logged_cases ex Json.anything
    (readRequest moment user i) ⟨s.world.outside, s.journal⟩
  have hsent : (outward (Rest.rows (logged ex) Json.anything (readRequest moment user i))).run s =
      (outcome, ⟨⟨s.world.feed, after.world⟩, after.journal⟩) := by
    rw [run_outward, hrun]
  rw [mark_held_eq _ huser moment hheld hunread]
  rcases hcases with ⟨⟨xs, rfl⟩, haccepted⟩ | ⟨⟨e, rfl⟩, hrefused⟩
  · rw [Action.run_bind_ok hsent]
    exact ⟨_, answer, ⟨⟨s.world.feed.store { i with isRead := true }, after.world⟩, after.journal⟩,
      rfl, hlog, .inl ⟨rfl, haccepted, rfl⟩⟩
  · rw [Action.run_bind_error hsent]
    exact ⟨_, answer, ⟨⟨s.world.feed, after.world⟩, after.journal⟩, rfl, hlog,
      .inr ⟨⟨e, rfl⟩, hrefused, rfl⟩⟩

/-- Messages have been marked as read in turn, each by a request that has been accepted. -/
structure MarkedInTurn (moment : Uuid → Moment) (user : Uuid) (done : List NotificationItem)
    (sent : List Answered) (s after : Session (Kept (σ × List Answered))) : Prop where
  feed : after.world.feed = s.world.feed.readInTurn done
  log : requestLog after = sent.reverse ++ requestLog s
  requests : sent.map Prod.fst = done.map fun i => readRequest (moment i.id) user i
  accepted : ∀ a ∈ sent, Accepted Json.anything a.2

/-- Marking messages in turn ends with the first whose request fails, and otherwise with the last. -/
theorem mark_in_turn_cases {s : Session (Kept (σ × List Answered))}
    (huser : s.world.feed.user = some user) (moment : Uuid → Moment)
    {order : List NotificationItem} (h : Waiting s.world.feed order) :
    ∃ done rest sent mid, order = done ++ rest ∧ MarkedInTurn moment user done sent s mid ∧
      (rest = [] ∧ (markInTurn (logged ex) moment order).run s = (.ok (), mid) ∨
        ∃ i later e answer after, rest = i :: later ∧
          (markInTurn (logged ex) moment order).run s = (.error e, after) ∧
          after.world.feed = mid.world.feed ∧
          requestLog after = (readRequest (moment i.id) user i, answer) :: requestLog mid ∧
          ¬ Accepted Json.anything answer) := by
  induction order generalizing s with
  | nil =>
      exact ⟨[], [], [], s, rfl, ⟨rfl, rfl, rfl, List.forall_mem_nil _⟩, .inl ⟨rfl, rfl⟩⟩
  | cons i order ih =>
      obtain ⟨hheld, hunread⟩ := h.unread i List.mem_cons_self
      obtain ⟨outcome, answer, next, hrun, hlog, hcases⟩ :=
        mark_held_run ex huser (moment i.id) hheld hunread
      have hcons : markInTurn (logged ex) moment (i :: order) =
          markAsRead (logged ex) (moment i.id) i.id >>= fun _ =>
            markInTurn (logged ex) moment order := rfl
      rw [hcons]
      rcases hcases with ⟨rfl, haccepted, hfeed⟩ | ⟨⟨e, rfl⟩, hrefused, hfeed⟩
      · have huser' : next.world.feed.user = some user := by rw [hfeed, store_user, huser]
        have hwaiting : Waiting next.world.feed order := hfeed ▸ h.store
        obtain ⟨done, rest, sent, mid, rfl, hmid, hend⟩ := ih huser' hwaiting
        rw [Action.run_bind_ok hrun]
        refine ⟨i :: done, rest, (readRequest (moment i.id) user i, answer) :: sent, mid, rfl,
          ⟨?_, ?_, ?_, ?_⟩, hend⟩
        · rw [hmid.feed, hfeed]
          rfl
        · rw [hmid.log, hlog, List.reverse_cons, List.append_assoc]
          rfl
        · rw [List.map_cons, List.map_cons, hmid.requests]
        · exact List.forall_mem_cons.mpr ⟨haccepted, hmid.accepted⟩
      · rw [Action.run_bind_error hrun]
        refine ⟨[], i :: order, [], s, rfl, ⟨rfl, rfl, rfl, List.forall_mem_nil _⟩, .inr ?_⟩
        exact ⟨i, order, e, answer, next, rfl, rfl, hfeed, hlog, hrefused⟩

/-- A message that is held as read is not marked again. -/
theorem mark_read_again {s : Session (Kept σ)} (huser : s.world.feed.user = some user)
    (moment : Moment) {id : Uuid} (hheld : s.world.feed.cache.get? id = some i)
    (hread : i.isRead = true) : (markAsRead ex moment id).run s = (.ok (), s) := by
  unfold markAsRead
  rw [Action.run_bind_ok (run_current s)]
  simp only [huser]
  rw [Action.run_bind_ok (look_up_held moment.now hheld)]
  simp only [hread, if_true]
  rfl

/-- Where all messages have been read, nothing is marked. -/
theorem nothing_to_mark {s : Session (Kept σ)} (huser : s.world.feed.user = some user)
    (hkeyed : s.world.feed.cache.Keyed)
    (hread : ∀ i ∈ s.world.feed.cache.items, i.isRead = true) (moment : Moment) :
    (markAllRead ex moment).run s = (.ok (), s) ∧
      ∀ id, (s.world.feed.cache.get? id).isSome = true →
        (markAsRead ex moment id).run s = (.ok (), s) := by
  have hnone : s.world.feed.cache.unreadItems = [] := by
    rw [NotificationCache.unreadItems, List.map_eq_nil_iff, List.filter_eq_nil_iff]
    intro e he
    simp [hread e.2 (List.mem_map_of_mem he)]
  refine ⟨?_, fun id hid => ?_⟩
  · rw [mark_all_read_run, hnone]
    rfl
  · obtain ⟨i, hi⟩ := Option.isSome_iff_exists.mp hid
    exact mark_read_again ex huser moment hi (hread i (hkeyed.get_iff.mp hi).1)

end Runs

/-- What marking all messages of a feed as read has done, of which none of the requests has failed. -/
structure AllMarked (moment : Uuid → Moment) (user : Uuid) (order : List NotificationItem)
    (s after : Session (Kept (σ × List Answered))) : Prop where
  /-- There is one request for each unread message, and no other. -/
  requests : (requestLog after).reverse.map Prod.fst =
    order.map fun i => readRequest (moment i.id) user i
  number : (requestLog after).length = s.world.feed.cache.unread
  /-- All messages are as they were, but read. -/
  cache : after.world.feed.cache = s.world.feed.cache.allRead
  /-- The numbers that are announced, last first, count up from zero. -/
  counts : ∃ news, after.world.feed.events = news ++ s.world.feed.events ∧
    news.filterMap FeedEvent.unread? = List.range s.world.feed.cache.unread
  /-- Nothing is left to be done. -/
  again : ∀ (τ : Type) (ex : Rest.Exchange τ) (later : Session (Kept τ)) (moment : Moment),
    later.world.feed = after.world.feed →
      (markAllRead ex moment).run later = (.ok (), later) ∧
        ∀ id, (after.world.feed.cache.get? id).isSome = true →
          (markAsRead ex moment id).run later = (.ok (), later)

theorem read_in_turn_user (f : Feed) (order : List NotificationItem) :
    (f.readInTurn order).user = f.user := by
  induction order generalizing f with
  | nil => rfl
  | cons i order ih => exact (ih _).trans (store_user f _)

/-- Marking all unread messages in turn marks all. -/
theorem MarkedInTurn.all {moment : Uuid → Moment} {user : Uuid} {order : List NotificationItem}
    {sent : List Answered} {s after : Session (Kept (σ × List Answered))}
    (h : MarkedInTurn moment user order sent s after) (huser : s.world.feed.user = some user)
    (hkeyed : s.world.feed.cache.Keyed) (horder : order.Perm s.world.feed.cache.unreadItems)
    (hstart : requestLog s = []) : AllMarked moment user order s after := by
  have hwaiting := Waiting.of_perm hkeyed horder
  have hlength : s.world.feed.cache.unread = order.length := by
    rw [NotificationCache.unread_eq_length, horder.length_eq]
  have hlog : requestLog after = sent.reverse := by rw [h.log, hstart, List.append_nil]
  have hread : after.world.feed.cache =
      s.world.feed.cache.read (order.map NotificationItem.id) := by
    rw [h.feed, hwaiting.read_cache]
  have hcache := hread.trans (hkeyed.read_unread_items horder)
  have hcounts : (readNews s.world.feed.cache (order.map NotificationItem.id)).reverse.filterMap
      FeedEvent.unread? = List.range s.world.feed.cache.unread := by
    rw [List.filterMap_reverse, hwaiting.read_counts (by rw [hlength, Nat.add_zero]), hlength]
    simp
  refine ⟨?_, ?_, hcache, ⟨_, by rw [h.feed, hwaiting.read_events], hcounts⟩, ?_⟩
  · rw [hlog, List.reverse_reverse, h.requests]
  · rw [hlog, List.length_reverse, hlength, ← List.length_map Prod.fst, h.requests,
      List.length_map]
  · intro τ ex later moment' hfeed
    have huser' : later.world.feed.user = some user := by
      rw [hfeed, h.feed, read_in_turn_user, huser]
    have hkeyed' : later.world.feed.cache.Keyed := by
      rw [hfeed, hread]
      exact hkeyed.read _
    rw [← hfeed]
    refine nothing_to_mark ex huser' hkeyed' (fun i hi => ?_) moment'
    rw [hfeed, hcache] at hi
    exact NotificationCache.read_of_mem_all_read hi

/-- Marking all messages of a user as read, whatever their order, takes one request for each that is
unread if none of the requests fails. -/
theorem all_marked_once (ex : Rest.Exchange σ) {user : Uuid}
    {s : Session (Kept (σ × List Answered))} (huser : s.world.feed.user = some user)
    (hkeyed : s.world.feed.cache.Keyed) (hstart : requestLog s = []) :
    (∀ moment, (markAllRead (logged ex) moment).run s =
      (markInTurn (logged ex) (fun _ => moment) s.world.feed.cache.unreadItems).run s) ∧
    ∀ moment order outcome after, order.Perm s.world.feed.cache.unreadItems →
      (markInTurn (logged ex) moment order).run s = (outcome, after) →
      (∀ a ∈ requestLog after, Accepted Json.anything a.2) →
      outcome = .ok () ∧ AllMarked moment user order s after := by
  refine ⟨fun moment => mark_all_read_run _ moment s, ?_⟩
  intro moment order outcome after horder hrun haccepted
  obtain ⟨done, rest, sent, mid, rfl, hmid, hend⟩ :=
    mark_in_turn_cases ex huser moment (Waiting.of_perm hkeyed horder)
  rw [hrun] at hend
  rcases hend with ⟨rfl, hend⟩ | ⟨i, later, e, answer, failed, -, hend, -, hlog, hrefused⟩
  · obtain ⟨rfl, rfl⟩ := Prod.mk.inj hend
    rw [List.append_nil] at horder ⊢
    exact ⟨rfl, hmid.all huser hkeyed horder hstart⟩
  · -- the request that has failed is among those that have been accepted
    obtain ⟨-, rfl⟩ := Prod.mk.inj hend
    exact absurd (haccepted _ (hlog ▸ List.mem_cons_self)) hrefused

/-- A server that takes every request. -/
def takesAll : Rest.Exchange Unit := fun _ =>
  pure (.ofJson (.arr []))

/-- Of three messages two are unread, and are marked as read in descending order. -/
theorem two_of_three_marked :
    let user : Uuid := .ofNat 1
    let moment : Uuid → Moment := fun _ => ⟨default, .ofNat 2⟩
    let first : NotificationItem := ⟨.ofNat 5, "New customers", "", none, false, ""⟩
    let second : NotificationItem := ⟨.ofNat 3, "Duplicates found", "", none, false, ""⟩
    let old : NotificationItem := ⟨.ofNat 4, "Welcome", "", none, true, ""⟩
    let s : Session (Kept (Unit × List Answered)) :=
      ⟨⟨⟨some user, [(.ofNat 3, second), (.ofNat 4, old), (.ofNat 5, first)], []⟩, ((), [])⟩, []⟩
    s.world.feed.cache.Keyed ∧ [first, second].Perm s.world.feed.cache.unreadItems ∧
      ∃ after, (markInTurn (logged takesAll) moment [first, second]).run s = (.ok (), after) ∧
        (∀ a ∈ requestLog after, Accepted Json.anything a.2) ∧
        AllMarked moment user [first, second] s after := by
  intro user moment first second old s
  have hkeyed : s.world.feed.cache.Keyed :=
    ((NotificationCache.Keyed.nil.put first).put old).put second
  have horder : [first, second].Perm s.world.feed.cache.unreadItems := List.Perm.swap _ _ _
  let answer : Except Failure Json.Document := .ok (.ofJson (.arr []))
  obtain ⟨after, hrun, hlog⟩ : ∃ after,
      (markInTurn (logged takesAll) moment [first, second]).run s = (.ok (), after) ∧
        requestLog after = [(readRequest (moment (.ofNat 3)) user second, answer),
          (readRequest (moment (.ofNat 5)) user first, answer)] := ⟨_, rfl, rfl⟩
  have haccepted : ∀ a ∈ requestLog after, Accepted Json.anything a.2 := by
    have hanswer : Accepted Json.anything answer := ⟨_, [], rfl, rfl⟩
    rw [hlog]
    simpa using hanswer
  exact ⟨hkeyed, horder, after, hrun, haccepted,
    ((all_marked_once takesAll rfl hkeyed rfl).2 _ _ _ _ horder hrun haccepted).2⟩

end CustomerDedupe.Feed
