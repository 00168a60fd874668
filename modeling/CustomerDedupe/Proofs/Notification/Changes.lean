import CustomerDedupe.Proofs.Notification.Announced

/-!
# Following pushed changes

What a feed makes of the changes that the server pushes. A change `Tells` the user of a row what it
is now, or that it is gone; other users' changes and those that cannot be read tell nothing. After
any changes a feed holds under each identifier what the last change told of it
(`changes_last_told_wins`).
-/

namespace CustomerDedupe

open Calendar (Instant)

namespace RealtimeChange

/-- The row after a change, if it can be read. -/
def row? (c : RealtimeChange) : Option NotificationRow :=
  record? NotificationRow.schema c.new

/-- What can be read of the row before a change. -/
def key (c : RealtimeChange) : NotificationKey :=
  (record? NotificationKey.schema c.old).getD ⟨none, none⟩

/-- The user whose row a change is about, if that is known: the user of the row after it, or else
of the row before it. -/
def owner? (c : RealtimeChange) : Option Uuid :=
  (c.row?.map NotificationRow.userId).or c.key.userId

/-- What a change tells a user of the row with an identifier: what it is now, or that it is gone.
It tells nothing to others than the owner, if the owner is known. -/
inductive Tells (user : Uuid) (c : RealtimeChange) : Uuid → Option NotificationRow → Prop
  | stored {r : NotificationRow} (howner : ∀ owner, c.owner? = some owner → owner = user)
      (hevent : c.event ≠ .delete) (hrow : c.row? = some r) : Tells user c r.id (some r)
  | removed {id : Uuid} (howner : ∀ owner, c.owner? = some owner → owner = user)
      (hevent : c.event = .delete) (hid : c.key.id = some id) : Tells user c id none

/-- A change tells a user nothing. -/
def Idle (user : Uuid) (c : RealtimeChange) : Prop :=
  ∀ id told, ¬ c.Tells user id told

/-- Two changes do not tell a user of the same row. -/
def Apart (user : Uuid) (c d : RealtimeChange) : Prop :=
  ∀ id told other, c.Tells user id told → ¬ d.Tells user id other

/-- The row after a change has a time, if it can be read. -/
def Timed (c : RealtimeChange) : Prop :=
  ∀ r, c.row? = some r → r.createdAt.isSome = true

/-- The change that says what a row is now. -/
def ofRow (event : ChangeEvent) (r : NotificationRow) : RealtimeChange :=
  ⟨event, none, some Feed.tableName, r.toJson, .obj []⟩

/-- A written row is read from its change. -/
theorem row_of_row {r : NotificationRow} (h : r.Writable) (event : ChangeEvent) :
    (ofRow event r).row? = some r :=
  NotificationRow.of_to_json h

end RealtimeChange

namespace Feed

namespace Delta

/-- What a change means for the row with an identifier. -/
def told? (id : Uuid) : Delta → Option (Option NotificationRow)
  | .none | .unreadable _ => Option.none
  | .store r => if r.id = id then some (some r) else Option.none
  | .remove gone => if gone = id then some Option.none else Option.none

/-- A change means something for one row at most. -/
theorem told_id_unique {d : Delta} {id other : Uuid} {told told' : Option NotificationRow}
    (h : d.told? id = some told) (hother : d.told? other = some told') : id = other := by
  cases d with
  | none | unreadable => cases h
  | store r =>
      rw [told?, Option.ite_none_right_eq_some] at h hother
      exact h.1.symm.trans hother.1
  | remove gone =>
      rw [told?, Option.ite_none_right_eq_some] at h hother
      exact h.1.symm.trans hother.1

section Read

variable {user : Uuid} {c : RealtimeChange}

theorem read_eq (user : Uuid) (c : RealtimeChange) :
    read user c = if c.owner?.any fun u => u != user then .none
      else
        match c.event, c.row?, c.key.id with
        | .delete, _, some id => .remove id
        | .delete, _, .none => .none
        | _, some r, _ => .store r
        | e, .none, _ => .unreadable e := rfl

theorem other_owner_iff :
    c.owner?.any (fun u => u != user) = true ↔ ¬ ∀ owner, c.owner? = some owner → owner = user := by
  cases c.owner? <;> simp

/-- Changes of other users' rows mean nothing. -/
theorem read_of_other (howner : ¬ ∀ owner, c.owner? = some owner → owner = user) :
    read user c = .none := by
  rw [read_eq, if_pos (other_owner_iff.mpr howner)]

/-- A deletion removes the row that it names. -/
theorem read_of_delete (howner : ∀ owner, c.owner? = some owner → owner = user)
    (hevent : c.event = .delete) : read user c = c.key.id.elim .none .remove := by
  rw [read_eq, if_neg (mt other_owner_iff.mp (not_not.mpr howner)), hevent]
  cases c.key.id <;> rfl

/-- Any other change stores the row after it. -/
theorem read_of_write (howner : ∀ owner, c.owner? = some owner → owner = user)
    (hevent : c.event ≠ .delete) : read user c = c.row?.elim (.unreadable c.event) .store := by
  rw [read_eq, if_neg (mt other_owner_iff.mp (not_not.mpr howner))]
  cases h : c.event with
  | delete => exact absurd h hevent
  | insert | update => cases c.row? <;> rfl

/-- What a change means is what it tells. -/
theorem told_read_iff {id : Uuid} {told : Option NotificationRow} :
    (read user c).told? id = some told ↔ c.Tells user id told := by
  by_cases howner : ∀ owner, c.owner? = some owner → owner = user
  · by_cases hevent : c.event = .delete
    · rw [read_of_delete howner hevent]
      constructor
      · intro h
        cases hid : c.key.id with
        | none => simp [hid, told?] at h
        | some gone =>
            simp only [hid, Option.elim_some, told?, Option.ite_none_right_eq_some,
              Option.some.injEq] at h
            obtain ⟨rfl, rfl⟩ := h
            exact .removed howner hevent hid
      · rintro (⟨-, hwrite, -⟩ | ⟨-, -, hid⟩)
        · exact absurd hevent hwrite
        · rw [hid]
          exact if_pos rfl
    · rw [read_of_write howner hevent]
      constructor
      · intro h
        cases hrow : c.row? with
        | none => simp [hrow, told?] at h
        | some r =>
            simp only [hrow, Option.elim_some, told?, Option.ite_none_right_eq_some,
              Option.some.injEq] at h
            obtain ⟨rfl, rfl⟩ := h
            exact .stored howner hevent hrow
      · rintro (⟨-, -, hrow⟩ | ⟨-, hdelete, -⟩)
        · rw [hrow]
          exact if_pos rfl
        · exact absurd hdelete hevent
  · rw [read_of_other howner]
    constructor
    · nofun
    · rintro (⟨hown, -, -⟩ | ⟨hown, -, -⟩) <;> exact absurd hown howner

end Read

end Delta

/-! ## Taking changes in -/

/-- A feed that has taken in what a change means. -/
def learn (f : Feed) (now : Instant) : Delta → Feed
  | .none | .unreadable _ => f
  | .store r => f.store (r.toItem now)
  | .remove id => f.remove id

theorem learn_user (f : Feed) (now : Instant) (d : Delta) : (f.learn now d).user = f.user := by
  cases d with
  | none | unreadable => rfl
  | store | remove => exact become_user _ _

theorem learn_keyed {f : Feed} (h : f.cache.Keyed) (now : Instant) (d : Delta) :
    (f.learn now d).cache.Keyed := by
  cases d with
  | none | unreadable => exact h
  | store r =>
      rw [learn, store, become_cache]
      exact h.put _
  | remove id =>
      rw [learn, remove, become_cache]
      exact h.remove id

/-- Under every identifier a feed then holds what the change told of it, if it told anything. -/
theorem learn_get (f : Feed) (now : Instant) (d : Delta) (id : Uuid) :
    (f.learn now d).cache.get? id =
      (d.told? id).elim (f.cache.get? id) (Option.map (NotificationRow.toItem now)) := by
  cases d with
  | none | unreadable => rfl
  | store r =>
      rw [learn, store, become_cache, NotificationCache.get?_put, Delta.told?]
      by_cases hid : r.id = id
      · rw [if_pos (show id = (r.toItem now).id from hid.symm), if_pos hid]
        rfl
      · rw [if_neg (show ¬ id = (r.toItem now).id from fun h => hid h.symm), if_neg hid]
        rfl
  | remove gone =>
      rw [learn, remove, become_cache, NotificationCache.get_remove, Delta.told?]
      by_cases hid : gone = id
      · rw [if_pos hid.symm, if_pos hid]
        rfl
      · rw [if_neg fun h => hid h.symm, if_neg hid]
        rfl

/-- A change that tells nothing leaves a feed as it is. -/
theorem learn_idle (f : Feed) (now : Instant) {user : Uuid} {c : RealtimeChange}
    (h : c.Idle user) : f.learn now (Delta.read user c) = f := by
  have hnone : ∀ id, (Delta.read user c).told? id = none := by
    intro id
    cases htold : (Delta.read user c).told? id with
    | none => rfl
    | some told => exact absurd (Delta.told_read_iff.mp htold) (h id told)
  cases hread : Delta.read user c with
  | none | unreadable => rfl
  | store r =>
      have := hnone r.id
      rw [hread, Delta.told?, if_pos rfl] at this
      cases this
  | remove id =>
      have := hnone id
      rw [hread, Delta.told?, if_pos rfl] at this
      cases this

variable {σ : Type} {s : Session (Kept σ)} {user : Uuid}

/-- Applying a change takes in what it means for the user, and does nothing else. -/
theorem apply_change_run (huser : s.world.feed.user = some user) (now : Instant)
    (c : RealtimeChange) :
    ∃ journal, (applyChange now c).run s =
      (.ok (), ⟨⟨s.world.feed.learn now (Delta.read user c), s.world.outside⟩, journal⟩) := by
  unfold applyChange
  rw [Action.run_bind_ok (run_current s)]
  simp only [huser]
  cases Delta.read user c <;> exact ⟨_, rfl⟩

/-- Applies changes one after another, each when it comes. -/
def follow (steps : List (Instant × RealtimeChange)) : Action (Kept σ) Unit :=
  steps.forM fun step => applyChange step.1 step.2

/-- A feed that has taken in changes one after another. -/
def learnAll (user : Uuid) (f : Feed) (steps : List (Instant × RealtimeChange)) : Feed :=
  steps.foldl (fun f step => f.learn step.1 (Delta.read user step.2)) f

/-- Applying changes takes in what they mean, and does nothing else. -/
theorem follow_run (huser : s.world.feed.user = some user)
    (steps : List (Instant × RealtimeChange)) :
    ∃ journal, (follow steps).run s =
      (.ok (), ⟨⟨learnAll user s.world.feed steps, s.world.outside⟩, journal⟩) := by
  induction steps generalizing s with
  | nil => exact ⟨s.journal, rfl⟩
  | cons step steps ih =>
      obtain ⟨journal, hstep⟩ := apply_change_run huser step.1 step.2
      obtain ⟨later, hsteps⟩ := ih (s := ⟨⟨s.world.feed.learn step.1 (Delta.read user step.2),
        s.world.outside⟩, journal⟩) ((learn_user _ _ _).trans huser)
      refine ⟨later, ?_⟩
      show (applyChange step.1 step.2 >>= fun _ => follow steps).run s = _
      rw [Action.run_bind_ok hstep]
      exact hsteps

/-- What some changes told last of the row with an identifier. -/
def lastTold (user id : Uuid) (cs : List RealtimeChange) : Option (Option NotificationRow) :=
  cs.reverse.findSome? fun c => (Delta.read user c).told? id

theorem last_told_append (user id : Uuid) (earlier later : List RealtimeChange) :
    lastTold user id (earlier ++ later) = (lastTold user id later).or (lastTold user id earlier) := by
  rw [lastTold, List.reverse_append, List.findSome?_append]
  rfl

theorem last_told_cons (user id : Uuid) (c : RealtimeChange) (cs : List RealtimeChange) :
    lastTold user id (c :: cs) =
      (lastTold user id cs).or ((Delta.read user c).told? id) := by
  rw [← List.singleton_append, last_told_append]
  congr 1
  exact List.findSome?_singleton

/-- A row with a time has the same message whenever it comes. -/
theorem told_item_timed {c : RealtimeChange} (h : c.Timed) {id : Uuid}
    {told : Option NotificationRow} (htold : c.Tells user id told) (now later : Instant) :
    told.map (NotificationRow.toItem now) = told.map (NotificationRow.toItem later) := by
  cases htold with
  | stored howner hevent hrow =>
      obtain ⟨t, ht⟩ := Option.isSome_iff_exists.mp (h _ hrow)
      simp only [Option.map_some, NotificationRow.toItem, ht, Option.getD_some]
  | removed => rfl

/-- After some changes a feed holds what they told last of every row. -/
theorem learn_all_get (f : Feed) {steps : List (Instant × RealtimeChange)}
    (h : ∀ step ∈ steps, step.2.Timed) (id : Uuid) (now : Instant) :
    (learnAll user f steps).cache.get? id =
      (lastTold user id (steps.map Prod.snd)).elim (f.cache.get? id)
        (Option.map (NotificationRow.toItem now)) := by
  induction steps generalizing f with
  | nil => rfl
  | cons step steps ih =>
      rw [List.map_cons, last_told_cons]
      refine (ih _ fun step hstep => h step (List.mem_cons_of_mem _ hstep)).trans ?_
      cases lastTold user id (steps.map Prod.snd) with
      | some told => rfl
      | none =>
          rw [Option.none_or, Option.elim_none, learn_get]
          cases htold : (Delta.read user step.2).told? id with
          | none => rfl
          | some told =>
              exact told_item_timed (h step List.mem_cons_self) (Delta.told_read_iff.mp htold) _ _

/-- A feed after some changes have been applied to it. -/
def followed (s : Session (Kept σ)) (steps : List (Instant × RealtimeChange)) : Feed :=
  ((follow steps).run s).2.world.feed

theorem followed_eq (huser : s.world.feed.user = some user)
    (steps : List (Instant × RealtimeChange)) :
    followed s steps = learnAll user s.world.feed steps := by
  obtain ⟨journal, hrun⟩ := follow_run huser steps
  rw [followed, hrun]

/-- What changes make of a feed, each taking the place of what was told of the same row before. -/
structure LastToldWins (user : Uuid) (s : Session (Kept σ))
    (steps : List (Instant × RealtimeChange)) : Prop where
  /-- Applying changes does not fail, and does nothing outside the feed. -/
  applied : ∃ journal,
    (follow steps).run s = (.ok (), ⟨⟨followed s steps, s.world.outside⟩, journal⟩)
  /-- Under an identifier stands what the last change that tells of it told. -/
  told : ∀ earlier step later id told, steps = earlier ++ step :: later →
    step.2.Tells user id told → (∀ step' ∈ later, ∀ told', ¬ step'.2.Tells user id told') →
    ∀ now, (followed s steps).cache.get? id = told.map (NotificationRow.toItem now)
  /-- What no change tells of stays as it was. -/
  untold : ∀ id, (∀ step ∈ steps, ∀ told, ¬ step.2.Tells user id told) →
    (followed s steps).cache.get? id = s.world.feed.cache.get? id
  /-- A change that tells nothing alters nothing and announces nothing. -/
  idle : ∀ earlier step later, steps = earlier ++ step :: later → step.2.Idle user →
    followed s (earlier ++ later) = followed s steps
  /-- Neighbouring changes that tell of different rows may come in either order. -/
  swapped : ∀ earlier first second later, steps = earlier ++ first :: second :: later →
    first.2.Apart user second.2 → ∀ id,
      (followed s (earlier ++ second :: first :: later)).cache.get? id =
        (followed s steps).cache.get? id
  /-- A change may come twice in a row. -/
  repeated : ∀ earlier step later again, steps = earlier ++ step :: later → ∀ id,
    (followed s (earlier ++ step :: (again, step.2) :: later)).cache.get? id =
      (followed s steps).cache.get? id

/-- Changes that tell last of every row what others do make the same of a feed. -/
theorem learn_all_congr (f : Feed) {steps others : List (Instant × RealtimeChange)}
    (h : ∀ step ∈ steps, step.2.Timed) (hothers : ∀ step ∈ others, step.2.Timed) {id : Uuid}
    (hlast : lastTold user id (steps.map Prod.snd) = lastTold user id (others.map Prod.snd)) :
    (learnAll user f steps).cache.get? id = (learnAll user f others).cache.get? id := by
  rw [learn_all_get f h id default, learn_all_get f hothers id default, hlast]

/-- The last change that tells of a row is the one after which none does. -/
theorem last_told_of_last {earlier later : List RealtimeChange} {c : RealtimeChange} {id : Uuid}
    {told : Option NotificationRow} (htold : c.Tells user id told)
    (hlater : ∀ d ∈ later, ∀ told', ¬ d.Tells user id told') :
    lastTold user id (earlier ++ c :: later) = some told := by
  have hnone : lastTold user id later = none := by
    refine List.findSome?_eq_none_iff.mpr fun d hd => ?_
    refine Option.eq_none_iff_forall_ne_some.mpr fun told' htold' => ?_
    exact hlater d (List.mem_reverse.mp hd) told' (Delta.told_read_iff.mp htold')
  rw [last_told_append, last_told_cons, hnone, Option.none_or, Delta.told_read_iff.mpr htold]
  rfl

/-- Pushed changes make of a feed what the last of them tells of every row, if the rows that can be
read have times. -/
theorem changes_last_told_wins (huser : s.world.feed.user = some user)
    {steps : List (Instant × RealtimeChange)} (htimed : ∀ step ∈ steps, step.2.Timed) :
    LastToldWins user s steps where
  applied := by
    obtain ⟨journal, hrun⟩ := follow_run huser steps
    exact ⟨journal, by rw [hrun, followed_eq huser]⟩
  told := by
    rintro earlier step later id told rfl htold hlater now
    rw [followed_eq huser, learn_all_get _ htimed id now, List.map_append, List.map_cons,
      last_told_of_last htold ?_]
    · rfl
    · intro d hd told'
      obtain ⟨step', hstep', rfl⟩ := List.mem_map.mp hd
      exact hlater step' hstep' told'
  untold := by
    intro id huntold
    have hnone : lastTold user id (steps.map Prod.snd) = none := by
      refine List.findSome?_eq_none_iff.mpr fun d hd => ?_
      obtain ⟨step, hstep, rfl⟩ := List.mem_map.mp (List.mem_reverse.mp hd)
      exact Option.eq_none_iff_forall_ne_some.mpr fun told htold =>
        huntold step hstep told (Delta.told_read_iff.mp htold)
    rw [followed_eq huser, learn_all_get _ htimed id default, hnone]
    rfl
  idle := by
    rintro earlier step later rfl hidle
    rw [followed_eq huser, followed_eq huser, learnAll, learnAll, List.foldl_append,
      List.foldl_append, List.foldl_cons, learn_idle _ _ hidle]
  swapped := by
    rintro earlier first second later rfl hapart id
    rw [followed_eq huser, followed_eq huser]
    refine learn_all_congr _ (fun step hstep => htimed step ?_) htimed ?_
    · have hperm : (earlier ++ second :: first :: later).Perm
          (earlier ++ first :: second :: later) :=
        (List.Perm.swap first second later).append_left earlier
      exact hperm.mem_iff.mp hstep
    · simp only [List.map_append, List.map_cons, last_told_append, last_told_cons]
      -- at most one of the two changes tells of the row
      cases hfirst : (Delta.read user first.2).told? id with
      | none => simp
      | some told =>
          have hsecond : (Delta.read user second.2).told? id = none :=
            Option.eq_none_iff_forall_ne_some.mpr fun other hother =>
              hapart id told other (Delta.told_read_iff.mp hfirst) (Delta.told_read_iff.mp hother)
          simp [hsecond]
  repeated := by
    rintro earlier step later again rfl id
    rw [followed_eq huser, followed_eq huser]
    refine learn_all_congr _ ?_ htimed ?_
    · intro step' hstep'
      simp only [List.mem_append, List.mem_cons] at hstep'
      rcases hstep' with hstep' | rfl | rfl | hstep'
      · exact htimed step' (List.mem_append_left _ hstep')
      · exact htimed step' (List.mem_append_right _ List.mem_cons_self)
      · exact htimed step (List.mem_append_right _ List.mem_cons_self)
      · exact htimed step' (List.mem_append_right _ (List.mem_cons_of_mem _ hstep'))
    · simp only [List.map_append, List.map_cons, last_told_append, last_told_cons]
      cases (Delta.read user step.2).told? id <;> simp

/-- A message that is stored, followed by another user's, and then marked as read elsewhere. -/
theorem last_told_of_own_message :
    let user : Uuid := .ofNat 1
    let now : Instant := .midnight (.newYear 2025)
    let own := NotificationTable.unreadRow (.ofNat 3) user
    let other := NotificationTable.unreadRow (.ofNat 4) (.ofNat 5)
    let start : Session (Kept Unit) := ⟨⟨new (some user), ()⟩, []⟩
    let steps : List (Instant × RealtimeChange) :=
      [(now, .ofRow .insert own), (now, .ofRow .insert other),
        (now, .ofRow .update { own with isRead := true })]
    start.world.feed.user = some user ∧ (∀ step ∈ steps, step.2.Timed) ∧
      LastToldWins user start steps := by
  intro user now own other start steps
  have htimed : ∀ step ∈ steps, step.2.Timed := by
    have hrow : ∀ (event : ChangeEvent) (r : NotificationRow), r.Writable →
        r.createdAt.isSome = true → (RealtimeChange.ofRow event r).Timed := by
      intro event r hwritable hr r' hr'
      obtain rfl := Option.some.inj ((RealtimeChange.row_of_row hwritable event).symm.trans hr')
      exact hr
    intro step hstep
    simp only [steps, List.mem_cons, List.not_mem_nil, or_false] at hstep
    rcases hstep with rfl | rfl | rfl <;> exact hrow _ _ (by decide) rfl
  exact ⟨rfl, htimed, changes_last_told_wins rfl htimed⟩

end Feed

end CustomerDedupe
