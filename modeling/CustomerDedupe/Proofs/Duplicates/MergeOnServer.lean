import CustomerDedupe.Customer.Remote
import CustomerDedupe.Proofs.Duplicates.MergeTable
import CustomerDedupe.Proofs.Rest.Recorded

/-!
# What a merge writes to the server

On the server a merge is one look-up, one update of the row that is kept and one deletion. The
update sends the whole row, made of the customer that was read from it, so a column in which the
row is not as customers are written is overwritten as well. `merge_writes_customer_row` says what
becomes of each column, and which columns stay as they were stored.
-/

namespace CustomerDedupe

open Calendar (Instant)

namespace Json

/-- An object without the members of some names. -/
def without (names : List String) : Json → Json
  | .obj members => .obj (members.filter fun m => m.1 ∉ names)
  | j => j

theorem lookup_filter_names {names : List String} {name : String} (h : name ∉ names)
    (members : List (String × Json)) :
    (members.filter fun m => m.1 ∉ names).lookup name = members.lookup name := by
  induction members with
  | nil => rfl
  | cons first rest ih =>
      obtain ⟨k, v⟩ := first
      by_cases hk : k ∈ names
      · have hne : (name == k) = false := beq_false_of_ne fun heq => h (heq ▸ hk)
        rw [List.filter_cons_of_neg (by simpa using hk), ih, List.lookup_cons, hne]
      · rw [List.filter_cons_of_pos (by simpa using hk), List.lookup_cons, List.lookup_cons, ih]

/-- Leaving members out leaves those of other names. -/
theorem member_without {names : List String} {name : String} (h : name ∉ names) (j : Json) :
    (j.without names).member? name = j.member? name := by
  cases j with
  | obj members => exact lookup_filter_names h members
  | _ => rfl

end Json

/-! ## The columns of a written row -/

/-- The columns of the details that duplicates are compared in. -/
def detailColumns : List String :=
  ["address", "car_join_date", "db_price", "gender", "headquarters", "insurance_name",
    "job_title", "marital_status", "notes", "proof_number"]

/-- The details of a customer are written in their columns. -/
theorem without_details_json (c : Customer) :
    c.withoutDetails.toJson.without detailColumns = c.toJson.without detailColumns := rfl

/-- Customers that agree but for their details are written alike but for the columns of the
details. -/
theorem member_eq_of_without_details {c d : Customer} (h : c.withoutDetails = d.withoutDetails)
    {column : String} (hcolumn : column ∉ detailColumns) :
    c.toJson.member? column = d.toJson.member? column := by
  rw [← Json.member_without hcolumn c.toJson, ← Json.member_without hcolumn d.toJson,
    ← without_details_json c, ← without_details_json d, h]

namespace CustomerRow

/-- The columns whose value a customer has in any case, while a row may lack it. -/
def defaultedColumns : List String :=
  ["assigned_date", "is_archived", "is_starred", "last_contact_date", "status"]

/-- A row has a value in a column that a customer can be written with. Those of the columns that
are not named here all are such values. -/
def IsDefinite (row : CustomerRow) : String → Prop
  | "assigned_date" => row.assignedDate ≠ none
  | "last_contact_date" => row.lastContactDate ≠ none
  | "status" => ∃ s : Status, row.status = some s.text
  | "is_starred" => row.isStarred ≠ none
  | "is_archived" => row.isArchived ≠ none
  | _ => True

/-- The customer of a row is written as the row but for the columns that a row may lack. -/
theorem without_defaulted_json (now : Instant) (row : CustomerRow) :
    (row.toCustomer now).toJson.without defaultedColumns =
      row.toJson.without defaultedColumns := rfl

/-- A time that another stands in for is written as it is if there is one. -/
theorem time_or_eq_iff (t rest : Option Instant) (now : Instant) :
    timeJson (some ((t.or rest).getD now)) = timeJson t ↔ t ≠ none := by
  cases t with
  | none => simp [timeJson, Json.optStr]
  | some t => simp

/-- A truth value that `false` stands in for is written as it is if there is one. -/
theorem flag_or_false_eq_iff (b : Option Bool) :
    flagJson (some (b.getD false)) = flagJson b ↔ b ≠ none := by
  cases b with
  | none => simp [flagJson]
  | some b => simp

/-- A status that is read and written again is as it was if it was written by its name. -/
theorem status_eq_iff (s : Option String) :
    Json.optStr (some ((s.map Status.read).getD .new).text) = Json.optStr s ↔
      ∃ status : Status, s = some status.text := by
  constructor
  · intro h
    cases s with
    | none => cases h
    | some s =>
        rw [Option.map_some, Option.getD_some, Json.optStr, Json.optStr, Json.str.injEq] at h
        exact ⟨Status.read s, by rw [h]⟩
  · rintro ⟨status, rfl⟩
    rw [Option.map_some, Option.getD_some, Status.read_text]

/-- The customer of a row is written as the row in exactly the columns in which the row has a
value that a customer can be written with. -/
theorem member_customer_eq_iff (now : Instant) (row : CustomerRow) (column : String) :
    (row.toCustomer now).toJson.member? column = row.toJson.member? column ↔
      row.IsDefinite column := by
  unfold IsDefinite
  -- one case for each column that a row may lack, and one for all others
  split
  · exact Option.some_inj.trans (time_or_eq_iff row.assignedDate row.createdAt now)
  · refine Option.some_inj.trans ?_
    show timeJson (some (((row.lastContactDate.or row.updatedAt).or row.createdAt).getD now)) =
      timeJson row.lastContactDate ↔ _
    rw [Option.or_assoc]
    exact time_or_eq_iff _ _ now
  · exact Option.some_inj.trans (status_eq_iff row.status)
  · exact Option.some_inj.trans (flag_or_false_eq_iff row.isStarred)
  · exact Option.some_inj.trans (flag_or_false_eq_iff row.isArchived)
  · next hassigned hcontacted hstatus hstarred harchived =>
    have hcolumn : column ∉ defaultedColumns := by
      simp only [defaultedColumns, List.mem_cons, List.not_mem_nil, or_false, not_or]
      exact ⟨hassigned, harchived, hstarred, hcontacted, hstatus⟩
    rw [← Json.member_without hcolumn, without_defaulted_json, Json.member_without hcolumn]
    exact iff_true_intro rfl

end CustomerRow

namespace Duplicates

/-- What is written over a stored row when duplicates are folded into its customer. Apart from
the details a column is written as it is stored exactly if the stored value is definite. -/
structure Overwrites (now : Instant) (row : CustomerRow) (body : Json) : Prop where
  as_stored : ∀ column, column ∉ detailColumns →
    (body.member? column = row.toJson.member? column ↔ row.IsDefinite column)
  assigned_date : body.member? "assigned_date" =
    some (CustomerRow.timeJson (some ((row.assignedDate.or row.createdAt).getD now)))
  last_contact_date : body.member? "last_contact_date" = some (CustomerRow.timeJson
    (some (((row.lastContactDate.or row.updatedAt).or row.createdAt).getD now)))
  status : body.member? "status" = some (.str ((row.status.map Status.read).getD .new).text)
  is_starred : body.member? "is_starred" = some (.bool (row.isStarred.getD false))
  is_archived : body.member? "is_archived" = some (.bool (row.isArchived.getD false))

/-- The customer of a row with duplicates folded into it overwrites the row in this way. -/
theorem overwrites_merge_into (now : Instant) (row : CustomerRow) (duplicates : List Customer) :
    Overwrites now row (mergeInto (row.toCustomer now) duplicates).toJson := by
  have hmember : ∀ {column : String}, column ∉ detailColumns →
      (mergeInto (row.toCustomer now) duplicates).toJson.member? column =
        (row.toCustomer now).toJson.member? column :=
    member_eq_of_without_details (merge_into_without_details _ duplicates)
  refine ⟨?_, hmember (by decide), hmember (by decide), hmember (by decide),
    hmember (by decide), hmember (by decide)⟩
  intro column hcolumn
  rw [hmember hcolumn]
  exact row.member_customer_eq_iff now column

/-! ## The requests of a merge -/

variable {σ : Type}

/-- The request by which a merge looks up the rows concerned. -/
def lookUp (primary : Int) (ids : List Int) : Rest.Request :=
  ⟨.select, CustomerTable.name,
    [CustomerTable.contactFilter
      (CustomerTable.distinctPositive (duplicateIds primary ids ++ [primary]))], none⟩

/-- A request changes rows. -/
def IsUpdate (r : Rest.Request) : Prop :=
  r.verb.method = "PATCH"

instance (r : Rest.Request) : Decidable (IsUpdate r) :=
  inferInstanceAs (Decidable (_ = _))

/-- A deletion updates nothing. -/
theorem delete_sends_no_update (ex : Rest.Exchange σ) (now : Instant) (ids : List Int) :
    Rest.SendsOnly (fun r => ¬IsUpdate r)
      ((CustomerTable.store (Rest.recorded ex) now).delete ids) := by
  simp only [CustomerTable.store]
  split
  · exact (Rest.Sends.pure ()).only nofun
  · refine (Rest.Sends.send ex _).only ?_
    intro r hr
    rw [List.mem_singleton.mp hr]
    show "DELETE" ≠ "PATCH"
    decide

/-- The contact that is kept is one to look up. -/
theorem look_up_ne_nil {primary : Int} (hpos : 0 < primary) (ids : List Int) :
    CustomerTable.distinctPositive (duplicateIds primary ids ++ [primary]) ≠ [] := by
  apply List.ne_nil_of_mem (a := primary)
  rw [CustomerTable.distinctPositive, distinct_ids_eq]
  simp [hpos]

/-- Looking up the rows concerned in a merge returns the customers of those in the answer. -/
theorem look_up_answered {ex : Rest.Exchange σ} {w : σ} {primary : Int} {ids : List Int}
    {doc : Json.Document} {rows : List CustomerRow} (hpos : 0 < primary)
    (hanswer : ∀ journal, ((ex (lookUp primary ids)).run ⟨w, journal⟩).1 = .ok doc)
    (hrows : doc.decode (Json.list (Rest.record CustomerRow.schema)) = .ok rows) (now : Instant)
    (before : List Rest.Request) (journal : List Written) :
    ∃ after, ((CustomerTable.store (Rest.recorded ex) now).byContactIds
        (duplicateIds primary ids ++ [primary])).run ⟨(w, before), journal⟩ =
        (.ok (rows.map (CustomerRow.toCustomer now)), after) ∧
      Rest.sent after = lookUp primary ids :: before := by
  obtain ⟨after, hrun, hsent⟩ := Rest.rows_answered hanswer hrows before journal
  refine ⟨after, ?_, hsent⟩
  simp only [CustomerTable.store]
  split
  · next hnil => exact absurd hnil (look_up_ne_nil hpos ids)
  · exact Action.run_bind_ok hrun _

/-- Carrying out a plan to fold sends the merged customer in its only update. -/
theorem carry_out_fold_updates (ex : Rest.Exchange σ) (now : Instant) (primary : Int)
    (removed : List Int) (merged : Customer) (count : Nat)
    (s : Session (σ × List Rest.Request)) :
    let store := CustomerTable.store (Rest.recorded ex) now
    (Rest.sent ((carryOut store primary removed (.fold merged count)).run s).2).filter
        (fun r => IsUpdate r) =
      ⟨.update merged.toJson, CustomerTable.name, [.eq "id" (Text.showInt merged.id)], none⟩ ::
        (Rest.sent s).filter fun r => IsUpdate r := by
  intro store
  have hupdate : Rest.Sends [⟨.update merged.toJson, CustomerTable.name,
      [.eq "id" (Text.showInt merged.id)], none⟩] (store.update merged) :=
    (Rest.Sends.rows ex Json.anything _).bind fun _ => Rest.Sends.pure ()
  -- whether the update is served or not, nothing that is sent after it is an update
  have hrest : ∀ message, Rest.SendsOnly (fun r => ¬IsUpdate r)
      (store.delete removed >>= fun _ => note .info message) := fun message =>
    (delete_sends_no_update ex now removed).bind fun _ => (Rest.Sends.log _ _ message).only nofun
  obtain ⟨more, hsent, hmore⟩ := Rest.SendsOnly.after hupdate (fun _ => hrest _) s
  have hnone : more.filter (fun r => IsUpdate r) = [] :=
    List.filter_eq_nil_iff.mpr fun r hr h => hmore r hr (of_decide_eq_true h)
  refine (congrArg (List.filter fun r => IsUpdate r) hsent).trans ?_
  rw [List.filter_append, hnone, List.nil_append]
  exact List.filter_cons_of_pos (decide_eq_true rfl)

/-- The plan for the customers of rows in which the contact that is kept and duplicates are. -/
theorem make_fold_of_rows {primary : Int} {removed : List Int} {rows : List CustomerRow}
    {row : CustomerRow} (hrow : rows.find? (fun r => r.contactId = primary) = some row)
    (hdup : ∃ r ∈ rows, r.contactId ∈ removed) (now : Instant) :
    let duplicates :=
      (rows.filter fun r => r.contactId ∈ removed).map (CustomerRow.toCustomer now)
    MergePlan.make primary removed (rows.map (CustomerRow.toCustomer now)) =
      .fold (mergeInto (row.toCustomer now) duplicates) duplicates.length := by
  intro duplicates
  have hprimary : (rows.map (CustomerRow.toCustomer now)).find?
      (fun c => c.contactId == primary) = some (row.toCustomer now) := by
    rw [List.find?_map]
    exact congrArg (Option.map _) hrow
  have hothers : ((rows.map (CustomerRow.toCustomer now)).filter fun c =>
      removed.contains c.contactId) = duplicates := by
    rw [List.filter_map]
    refine congrArg _ (List.filter_congr ?_)
    intro r _
    rw [Bool.eq_iff_iff, decide_eq_true_eq]
    exact List.contains_iff_mem
  have hsome : duplicates ≠ [] := by
    obtain ⟨r, hr, hcontact⟩ := hdup
    exact List.ne_nil_of_mem
      (List.mem_map_of_mem (List.mem_filter.mpr ⟨hr, decide_eq_true hcontact⟩))
  have hfound : rows.map (CustomerRow.toCustomer now) ≠ [] := by
    intro hnil
    rw [hnil] at hprimary
    cases hprimary
  simp only [MergePlan.make, List.isEmpty_eq_false_iff.mpr hfound, hprimary, hothers,
    List.isEmpty_eq_false_iff.mpr hsome]
  rfl

/-- Once the server has answered the look-up with rows in which the contact that is kept and
duplicates are, a merge sends the customer with the duplicates folded into it in its only
update, which is of the row that was read. -/
theorem merge_updates {ex : Rest.Exchange σ} {w : σ} {primary : Int} {ids : List Int}
    {doc : Json.Document} {rows : List CustomerRow} {row : CustomerRow} (hpos : 0 < primary)
    (hanswer : ∀ journal, ((ex (lookUp primary ids)).run ⟨w, journal⟩).1 = .ok doc)
    (hrows : doc.decode (Json.list (Rest.record CustomerRow.schema)) = .ok rows)
    (hrow : rows.find? (fun r => r.contactId = primary) = some row)
    (hdup : ∃ r ∈ rows, r.contactId ∈ duplicateIds primary ids) (now : Instant) :
    let duplicates := (rows.filter fun r => r.contactId ∈ duplicateIds primary ids).map
      (CustomerRow.toCustomer now)
    let after := ((merge (CustomerTable.store (Rest.recorded ex) now) primary ids).run
      ⟨(w, []), []⟩).2
    ((Rest.sent after).filter fun r => IsUpdate r) =
      [⟨.update (mergeInto (row.toCustomer now) duplicates).toJson, CustomerTable.name,
        [.eq "id" (Text.showInt row.id)], none⟩] := by
  intro duplicates after
  obtain ⟨between, hlook, hsent⟩ := look_up_answered hpos hanswer hrows now [] []
  have hskip : ¬(primary ≤ 0 ∨ (duplicateIds primary ids).isEmpty = true) := by
    rintro (h | h)
    · omega
    · obtain ⟨r, -, hr⟩ := hdup
      rw [List.isEmpty_iff.mp h] at hr
      cases hr
  have hmerge : after = ((carryOut (CustomerTable.store (Rest.recorded ex) now) primary
      (duplicateIds primary ids)
      (.make primary (duplicateIds primary ids) (rows.map (CustomerRow.toCustomer now)))).run
        between).2 := by
    show ((merge _ primary ids).run _).2 = _
    unfold merge
    rw [if_neg hskip, Action.run_bind_ok hlook]
  rw [hmerge, make_fold_of_rows hrow hdup now, carry_out_fold_updates, hsent, merge_into_id]
  rfl

/-- Once the server has answered the look-up with rows in which the contact that is kept and
duplicates are, the only update of a merge is of the row that was read, with the customer of the
row after folding the duplicates into it. Whatever the row and the duplicates are, this writes
every column but the details as it is stored, with three exceptions: a missing time is written as
the one that stands in for it, a missing truth value as false, and a status that is missing or is
no name of a status as the name of the status it is read as. -/
theorem merge_writes_customer_row (now : Instant) :
    (∀ row duplicates,
      Overwrites now row (mergeInto (row.toCustomer now) duplicates).toJson) ∧
    ∀ {σ : Type} (ex : Rest.Exchange σ) (w : σ) (primary : Int) (ids : List Int)
      (doc : Json.Document) (rows : List CustomerRow) (row : CustomerRow),
      0 < primary →
      (∀ journal, ((ex (lookUp primary ids)).run ⟨w, journal⟩).1 = .ok doc) →
      doc.decode (Json.list (Rest.record CustomerRow.schema)) = .ok rows →
      rows.find? (fun r => r.contactId = primary) = some row →
      (∃ r ∈ rows, r.contactId ∈ duplicateIds primary ids) →
      let duplicates := (rows.filter fun r => r.contactId ∈ duplicateIds primary ids).map
        (CustomerRow.toCustomer now)
      let after := ((merge (CustomerTable.store (Rest.recorded ex) now) primary ids).run
        ⟨(w, []), []⟩).2
      ((Rest.sent after).filter fun r => IsUpdate r) =
        [⟨.update (mergeInto (row.toCustomer now) duplicates).toJson, CustomerTable.name,
          [.eq "id" (Text.showInt row.id)], none⟩] := by
  refine ⟨overwrites_merge_into now, ?_⟩
  intro σ ex w primary ids doc rows row hpos hanswer hrows hrow hdup
  exact merge_updates hpos hanswer hrows hrow hdup now

/-- A row in which only the contact and a status are given. -/
def statusRow (contactId : Int) (status : String) : CustomerRow :=
  { CustomerRow.blank with id := contactId, contactId, status := some status }

/-- The array of the rows of two contacts, with the status of the first, as the server sends
it. -/
def statusRows (status : String) : Json :=
  .arr [.obj [("contact_id", .int 1), ("id", .int 1), ("status", .str status)],
    .obj [("contact_id", .int 2), ("id", .int 2), ("status", .str "New")]]

theorem decode_status_rows (status : String) :
    (Json.Document.ofJson (statusRows status)).decode
        (Json.list (Rest.record CustomerRow.schema)) =
      .ok [statusRow 1 status, statusRow 2 "New"] := rfl

/-- An exchange that answers every request with the rows of two contacts. -/
def answerStatus (status : String) : Rest.Exchange Unit :=
  fun _ => pure (.ofJson (statusRows status))

theorem merge_writes_completed_row :
    let now : Instant := .midnight (.newYear 2025)
    let rows := [statusRow 1 "Completed", statusRow 2 "New"]
    0 < (1 : Int) ∧
      (∀ journal, ((answerStatus "Completed" (lookUp 1 [2])).run ⟨(), journal⟩).1 =
        .ok (.ofJson (statusRows "Completed"))) ∧
      (Json.Document.ofJson (statusRows "Completed")).decode
        (Json.list (Rest.record CustomerRow.schema)) = .ok rows ∧
      rows.find? (fun r => r.contactId = 1) = some (statusRow 1 "Completed") ∧
      (∃ r ∈ rows, r.contactId ∈ duplicateIds 1 [2]) ∧
      ∃ body,
        ((Rest.sent ((merge (CustomerTable.store (Rest.recorded (answerStatus "Completed")) now)
          1 [2]).run ⟨((), []), []⟩).2).filter fun r => IsUpdate r) =
          [⟨.update body, "db_customers", [.eq "id" "1"], none⟩] ∧
        body.member? "status" = some (.str "Completed") ∧
        body.member? "is_starred" = some (.bool false) := by
  intro now rows
  have hdup : ∃ r ∈ rows, r.contactId ∈ duplicateIds 1 [2] :=
    ⟨statusRow 2 "New", by simp [rows], by decide⟩
  obtain ⟨hcolumns, hupdate⟩ := merge_writes_customer_row now
  exact ⟨by decide, fun _ => rfl, decode_status_rows "Completed", rfl, hdup, _,
    hupdate (answerStatus "Completed") () 1 [2] _ rows _ (by decide) (fun _ => rfl)
      (decode_status_rows "Completed") rfl hdup,
    (hcolumns _ _).status, (hcolumns _ _).is_starred⟩

/-- A status that is no name of one is overwritten by a merge. -/
theorem unknown_status_overwritten :
    let now : Instant := .midnight (.newYear 2025)
    (Json.Document.ofJson (statusRows "vip")).decode
        (Json.list (Rest.record CustomerRow.schema)) =
        .ok [statusRow 1 "vip", statusRow 2 "New"] ∧
      ∃ body,
        ((Rest.sent ((merge (CustomerTable.store (Rest.recorded (answerStatus "vip")) now)
          1 [2]).run ⟨((), []), []⟩).2).filter fun r => IsUpdate r) =
          [⟨.update body, "db_customers", [.eq "id" "1"], none⟩] ∧
        body.member? "status" = some (.str "New") ∧
        (statusRow 1 "vip").toJson.member? "status" = some (.str "vip") ∧
        ∀ column ∈ CustomerRow.defaultedColumns,
          body.member? column ≠ (statusRow 1 "vip").toJson.member? column := by
  intro now
  have hdup : ∃ r ∈ [statusRow 1 "vip", statusRow 2 "New"], r.contactId ∈ duplicateIds 1 [2] :=
    ⟨statusRow 2 "New", by simp, by decide⟩
  have hcolumns := overwrites_merge_into now (statusRow 1 "vip")
    [(statusRow 2 "New").toCustomer now]
  have hanswer : ∀ journal, ((answerStatus "vip" (lookUp 1 [2])).run ⟨(), journal⟩).1 =
      .ok (.ofJson (statusRows "vip")) := fun _ => rfl
  refine ⟨decode_status_rows "vip", _, merge_updates (by decide) hanswer
    (decode_status_rows "vip") rfl hdup now, hcolumns.status, rfl, ?_⟩
  intro column hcolumn heq
  simp only [CustomerRow.defaultedColumns, List.mem_cons, List.not_mem_nil, or_false] at hcolumn
  have hdefinite := fun hdetail => (hcolumns.as_stored column hdetail).mp heq
  rcases hcolumn with rfl | rfl | rfl | rfl | rfl
  · exact hdefinite (by decide) rfl
  · exact hdefinite (by decide) rfl
  · exact hdefinite (by decide) rfl
  · exact hdefinite (by decide) rfl
  · obtain ⟨status, hstatus⟩ := hdefinite (by decide)
    cases status <;> exact absurd (Option.some.inj hstatus) (by decide)

end Duplicates

end CustomerDedupe
