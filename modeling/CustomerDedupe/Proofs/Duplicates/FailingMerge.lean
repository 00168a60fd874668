import CustomerDedupe.Proofs.Customer.FallibleStore
import CustomerDedupe.Proofs.Duplicates.MergeTable

/-!
# A failing merge loses no customer

Any request of a merge may fail before it has done anything. `MergePlan.Ends` lists the ways in
which carrying out a plan can then end, and `MergeEnds` those of a whole merge, and `merge_ends`
says that there are no others. A deletion comes after the update, so the worst that a failure
leaves behind is the merged customer beside its duplicates. This is the main result,
`failing_merge_loses_no_customer`.
-/

namespace CustomerDedupe.Duplicates

/-- How carrying out a plan over some rows can end: the result, the requests made, last first,
each with whether it was served, and the rows then. -/
inductive MergePlan.Ends (removed : List Int) (rows : List Customer) :
    MergePlan → Except Failure Unit → List (StoreCall × Bool) → List Customer → Prop
  | nothing : Ends removed rows .nothing (.ok ()) [] rows
  | not_removed (e : Failure) :
      Ends removed rows .removeOnly (.error e) [(.delete removed, false)] rows
  | removed :
      Ends removed rows .removeOnly (.ok ()) [(.delete removed, true)] (Table.delete removed rows)
  | not_updated (e : Failure) (merged : Customer) (count : Nat) :
      Ends removed rows (.fold merged count) (.error e) [(.update merged, false)] rows
  | only_updated (e : Failure) (merged : Customer) (count : Nat) :
      Ends removed rows (.fold merged count) (.error e)
        [(.delete removed, false), (.update merged, true)] (Table.replace merged rows)
  | folded (merged : Customer) (count : Nat) :
      Ends removed rows (.fold merged count) (.ok ())
        [(.delete removed, true), (.update merged, true)]
        (Table.delete removed (Table.replace merged rows))

/-- How a merge over some rows can end. -/
inductive MergeEnds (primary : Int) (ids : List Int) (rows : List Customer) :
    Except Failure Unit → List (StoreCall × Bool) → List Customer → Prop
  | skipped (h : primary ≤ 0 ∨ duplicateIds primary ids = []) :
      MergeEnds primary ids rows (.ok ()) [] rows
  | not_found (e : Failure) :
      MergeEnds primary ids rows (.error e)
        [(.byContactIds (duplicateIds primary ids ++ [primary]), false)] rows
  | planned {result : Except Failure Unit} {requests : List (StoreCall × Bool)}
      {after : List Customer}
      (h : (mergePlan primary ids rows).Ends (duplicateIds primary ids) rows result requests
        after) :
      MergeEnds primary ids rows result
        (requests ++ [(.byContactIds (duplicateIds primary ids ++ [primary]), true)]) after

section Run

variable {σ : Type} {store : CustomerStore σ} {v : StoreView σ} (hstore : store.Fallible v)

include hstore

/-- Carrying out a plan over a store whose requests may fail ends in one of these ways. -/
theorem carry_out_ends (primary : Int) (removed : List Int) (plan : MergePlan) (s : Session σ) :
    let finish := (carryOut store primary removed plan).run s
    ∃ requests, v.requests finish.2.world = requests ++ v.requests s.world ∧
      plan.Ends removed (v.rows s.world) finish.1 requests (v.rows finish.2.world) := by
  intro finish
  cases plan with
  | nothing => exact ⟨[], rfl, .nothing⟩
  | removeOnly =>
      have hrun : finish = _ := Action.run_bind_ok (Action.run_log _ _ _ _) _
      rw [hrun]
      rcases hstore.delete removed _ with
        ⟨e, after, hdelete, hrows, hnoted⟩ | ⟨after, hdelete, hrows, hnoted⟩
      · rw [hdelete, hrows]
        exact ⟨_, hnoted, .not_removed e⟩
      · rw [hdelete, hrows]
        exact ⟨_, hnoted, .removed⟩
  | fold merged count =>
      rcases hstore.update merged s with
        ⟨e, after, hupdate, hrows, hnoted⟩ | ⟨updated, hupdate, hrows, hnoted⟩
      · have hrun : finish = _ := Action.run_bind_error hupdate _
        rw [hrun, hrows]
        exact ⟨_, hnoted, .not_updated e merged count⟩
      · have hrun : finish = _ := Action.run_bind_ok hupdate _
        rw [hrun]
        rcases hstore.delete removed updated with
          ⟨e, after, hdelete, hrows', hnoted'⟩ | ⟨after, hdelete, hrows', hnoted'⟩
        · rw [Action.run_bind_error hdelete, hrows', hrows]
          rw [hnoted] at hnoted'
          exact ⟨_, hnoted', .only_updated e merged count⟩
        · rw [Action.run_bind_ok hdelete]
          change ∃ requests, v.requests after.world = _ ∧
            MergePlan.Ends removed _ _ _ _ (v.rows after.world)
          rw [hrows', hrows]
          rw [hnoted] at hnoted'
          exact ⟨_, hnoted', .folded merged count⟩

/-- A merge over a store whose requests may fail ends in one of these ways. -/
theorem merge_ends (primary : Int) (ids : List Int) (s : Session σ) :
    let finish := (merge store primary ids).run s
    ∃ requests, v.requests finish.2.world = requests ++ v.requests s.world ∧
      MergeEnds primary ids (v.rows s.world) finish.1 requests (v.rows finish.2.world) := by
  intro finish
  by_cases hskip : primary ≤ 0 ∨ duplicateIds primary ids = []
  · have hrun : finish = (.ok (), s) := by
      simp only [finish, merge, List.isEmpty_iff, if_pos hskip]
      rfl
    rw [hrun]
    exact ⟨[], rfl, .skipped hskip⟩
  · have hmerge : finish = (store.byContactIds (duplicateIds primary ids ++ [primary]) >>=
        fun found => carryOut store primary (duplicateIds primary ids)
          (.make primary (duplicateIds primary ids) found)).run s := by
      simp only [finish, merge, List.isEmpty_iff, if_neg hskip]
    rw [hmerge]
    rcases hstore.byContactIds (duplicateIds primary ids ++ [primary]) s with
      ⟨e, after, hfind, hrows, hnoted⟩ | ⟨after, hfind, hrows, hnoted⟩
    · rw [Action.run_bind_error hfind, hrows]
      exact ⟨_, hnoted, .not_found e⟩
    · rw [Action.run_bind_ok hfind]
      obtain ⟨requests, hrequests, hends⟩ := carry_out_ends hstore primary
        (duplicateIds primary ids) (.make primary (duplicateIds primary ids)
          (Table.select (duplicateIds primary ids ++ [primary]) (v.rows s.world))) after
      rw [hnoted, List.append_cons requests] at hrequests
      rw [hrows] at hends
      refine ⟨_, hrequests, .planned ?_⟩
      rw [mergePlan, if_neg hskip]
      exact hends

end Run

/-- A merge keeps customers safe, whichever of its requests fail. -/
structure LosesNoCustomer (primary : Int) (removed : List Int) (duplicates before : List Customer)
    (result : Except Failure Unit) (requests : List (StoreCall × Bool))
    (after : List Customer) : Prop where
  /-- It returns an error exactly if a request has failed. -/
  error_iff : (∃ e, result = .error e) ↔ ∃ call, (call, false) ∈ requests
  /-- After an error the table is as it was, or the duplicates are folded into the row of the
  contact that is kept and nothing else has changed. Then the deletion failed, right after the
  update was served. -/
  on_error : ∀ e, result = .error e → after = before ∨
    ∃ c ∈ before, c.contactId = primary ∧
      (after = before.map fun d =>
        if d.contactId = primary then mergeInto c duplicates else d) ∧
      ∃ earlier, requests =
        (.delete removed, false) :: (.update (mergeInto c duplicates), true) :: earlier
  /-- If the contact that is kept is stored, a deletion is asked for only after the update of its
  row has been served. -/
  update_first : ∀ c ∈ before, c.contactId = primary → ∀ gone served earlier,
    (.delete gone, served) :: earlier <:+ requests →
      (.update (mergeInto c duplicates), true) ∈ earlier

/-- Carrying out a plan returns an error exactly if a request has failed. -/
theorem MergePlan.Ends.error_iff {removed : List Int} {rows after : List Customer}
    {plan : MergePlan} {result : Except Failure Unit} {requests : List (StoreCall × Bool)}
    (h : plan.Ends removed rows result requests after) :
    (∃ e, result = .error e) ↔ ∃ call, (call, false) ∈ requests := by
  cases h <;> simp

/-- A merge returns an error exactly if a request has failed. -/
theorem MergeEnds.error_iff {primary : Int} {ids : List Int} {before after : List Customer}
    {result : Except Failure Unit} {requests : List (StoreCall × Bool)}
    (h : MergeEnds primary ids before result requests after) :
    (∃ e, result = .error e) ↔ ∃ call, (call, false) ∈ requests := by
  cases h with
  | skipped _ => simp
  | not_found e => simp
  | planned hends => simpa using hends.error_iff

/-- Of the requests of a merge that has updated a row, a deletion comes only after the update. -/
theorem update_before_delete {merged : Customer} {removed found : List Int} {done : Bool}
    {gone : List Int} {served : Bool} {earlier : List (StoreCall × Bool)}
    (h : (.delete gone, served) :: earlier <:+
      [(.delete removed, done), (.update merged, true), (.byContactIds found, true)]) :
    (.update merged, true) ∈ earlier := by
  rcases List.suffix_cons_iff.mp h with heq | hlater
  · rw [(List.cons.inj heq).2]
    exact List.mem_cons_self
  · -- neither the update nor the look-up is a deletion
    simp [List.suffix_cons_iff] at hlater

/-- However a merge ends, it loses no customer. -/
theorem MergeEnds.loses_no_customer {primary : Int} {ids : List Int} {before after : List Customer}
    {result : Except Failure Unit} {requests : List (StoreCall × Bool)}
    (hids : (before.map Customer.id).Nodup) (hcontacts : (before.map Customer.contactId).Nodup)
    (h : MergeEnds primary ids before result requests after) :
    LosesNoCustomer primary (duplicateIds primary ids) (duplicateRows primary ids before) before
      result requests after := by
  have herror := h.error_iff
  cases h with
  | skipped _ => exact ⟨herror, nofun, by simp⟩
  | not_found e => exact ⟨herror, fun _ _ => .inl rfl, by simp [List.suffix_cons_iff]⟩
  | planned hends =>
      rcases merge_plan_cases hcontacts primary ids with
        hplan | ⟨hplan, habsent⟩ | ⟨c, hc, hcontact, hplan⟩
      · rw [hplan] at hends
        cases hends
        exact ⟨herror, nofun, by simp [List.suffix_cons_iff]⟩
      · rw [hplan] at hends
        cases hends with
        | not_removed e =>
            exact ⟨herror, fun _ _ => .inl rfl, fun c hc h => absurd h (habsent c hc)⟩
        | removed => exact ⟨herror, nofun, fun c hc h => absurd h (habsent c hc)⟩
      · have honly : ∀ d ∈ before, d.contactId = primary → d = c := by
          intro d hd h
          exact List.inj_on_of_nodup_map hcontacts hd hc (h.trans hcontact.symm)
        rw [hplan] at hends
        cases hends with
        | not_updated e =>
            exact ⟨herror, fun _ _ => .inl rfl, by simp [List.suffix_cons_iff]⟩
        | only_updated e =>
            refine ⟨herror, fun _ _ => .inr ⟨c, hc, hcontact, ?_, _, rfl⟩, ?_⟩
            · rw [← hcontact]
              exact Table.replace_contact hids hcontacts hc (merge_into_id c _)
            · intro d hd hd' gone served earlier h
              rw [honly d hd hd']
              exact update_before_delete h
        | folded =>
            refine ⟨herror, nofun, ?_⟩
            intro d hd hd' gone served earlier h
            rw [honly d hd hd']
            exact update_before_delete h

/-- Take a merge over a store of distinct identifiers and contacts, any of whose requests may
fail before it has done anything. The merge returns an error exactly if one of its requests has
failed. After an error the table is as it was, unless the deletion failed after the update was
served; then the duplicates are folded into the row of the contact that is kept, and every other
row is as it was. If this contact is stored, no deletion is asked for before the update of its
row with the merged customer has been served. -/
theorem failing_merge_loses_no_customer {σ : Type} {store : CustomerStore σ} {v : StoreView σ}
    (hstore : store.Fallible v) {s : Session σ}
    (hids : ((v.rows s.world).map Customer.id).Nodup)
    (hcontacts : ((v.rows s.world).map Customer.contactId).Nodup) (primary : Int)
    (ids : List Int) :
    let removed := (ids.filter fun id => 0 < id ∧ id ≠ primary).eraseDups
    let duplicates := (v.rows s.world).filter fun c => c.contactId ∈ removed
    let finish := (merge store primary ids).run s
    ∃ requests, v.requests finish.2.world = requests ++ v.requests s.world ∧
      LosesNoCustomer primary removed duplicates (v.rows s.world) finish.1 requests
        (v.rows finish.2.world) := by
  intro removed duplicates finish
  have hremoved : duplicateIds primary ids = removed := duplicate_ids_eq primary ids
  have hduplicates : duplicateRows primary ids (v.rows s.world) = duplicates := by
    rw [duplicateRows, hremoved]
  obtain ⟨requests, hrequests, hends⟩ := merge_ends hstore primary ids s
  have hsafe := hends.loses_no_customer hids hcontacts
  rw [hremoved, hduplicates] at hsafe
  exact ⟨requests, hrequests, hsafe⟩

theorem merged_customer_beside_duplicate :
    let kept := numberedRow 1 (some "A")
    let copy := numberedRow 2 (some "B")
    let s : Session MemoryStore :=
      ⟨{ MemoryStore.ofRows [kept, copy] with failing := some .delete }, []⟩
    let finish := (merge MemoryStore.store 1 [2]).run s
    MemoryStore.store.Fallible MemoryStore.view ∧
      ((MemoryStore.view.rows s.world).map Customer.id).Nodup ∧
      ((MemoryStore.view.rows s.world).map Customer.contactId).Nodup ∧
      finish.1 = .error (.refused 500 "delete failed") ∧
      finish.2.world.rows = [mergeInto kept [copy], copy] := by
  intro kept copy s finish
  have hids : ((MemoryStore.view.rows s.world).map Customer.id).Nodup := by decide
  have hcontacts : ((MemoryStore.view.rows s.world).map Customer.contactId).Nodup := by decide
  have hfailed : finish.1 = .error (.refused 500 "delete failed") := by rfl
  obtain ⟨requests, -, hsafe⟩ :=
    failing_merge_loses_no_customer MemoryStore.fallible hids hcontacts 1 [2]
  have hdup : ((MemoryStore.view.rows s.world).filter fun c => c.contactId ∈
      (([2] : List Int).filter fun id => 0 < id ∧ id ≠ 1).eraseDups) = [copy] := by
    decide +kernel
  rw [hdup] at hsafe
  refine ⟨MemoryStore.fallible, hids, hcontacts, hfailed, ?_⟩
  rcases hsafe.on_error _ hfailed with hsame | ⟨c, hc, hcontact, hrows, -⟩
  · exact absurd hsame (by decide +kernel)
  · have hrow : c = kept ∨ c = copy := by
      simpa [MemoryStore.view, s, MemoryStore.ofRows] using hc
    rcases hrow with rfl | rfl
    · exact hrows
    · exact absurd hcontact (by decide)

end CustomerDedupe.Duplicates
