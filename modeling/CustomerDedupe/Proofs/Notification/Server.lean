import Mathlib.Data.List.Nodup
import CustomerDedupe.Notification.Feed
import CustomerDedupe.Proofs.Action
import CustomerDedupe.Proofs.Notification.Written
import CustomerDedupe.Proofs.Rest.Recorded

/-!
# A table of notifications on a server

What a server does that honours requests about a table of notifications: it looks only at the rows
that all filters keep, stores a row unless its identifier is there, and overwrites the columns that
are sent (`Served`). It may refuse any request and then does nothing (`Serving`), at least while the
table is tidy (`Serves`). `server` is such a server, which refuses only what would leave the table
untidy.
-/

namespace CustomerDedupe

namespace NotificationRow

/-- The text in a column of a row, as filters compare it. -/
def columnText? (r : NotificationRow) (column : String) : Option String :=
  match r.toJson.member? column with
  | some (.str s) => some s
  | some (.bool b) => some (if b then "true" else "false")
  | _ => none

/-- Whether a filter keeps a row. -/
def keptBy (r : NotificationRow) : Rest.Filter → Bool
  | .eq column value => r.columnText? column == some value
  | .isIn column values => values.any fun value => r.columnText? column == some value

/-- The row that a document describes. -/
def ofJson? (j : Json) : Option NotificationRow :=
  (Json.load schema j).toOption

/-- The row with the columns overwritten that a document sends. -/
def overwritten? (r : NotificationRow) : Json → Option NotificationRow
  | .obj sent => ofJson? (.obj (sent.foldl (fun ms m => Json.putMember m.1 m.2 ms) r.columns))
  | _ => none

theorem kept_by_id (r : NotificationRow) (id : Uuid) :
    r.keptBy (.eq "id" id.text) = true ↔ r.id = id := by
  have hcolumn : r.columnText? "id" = some r.id.text := rfl
  rw [keptBy, hcolumn, beq_iff_eq, Option.some.injEq]
  exact ⟨Uuid.text_injective, congrArg Uuid.text⟩

theorem kept_by_user (r : NotificationRow) (user : Uuid) :
    r.keptBy (.eq "user_id" user.text) = true ↔ r.userId = user := by
  have hcolumn : r.columnText? "user_id" = some r.userId.text := rfl
  rw [keptBy, hcolumn, beq_iff_eq, Option.some.injEq]
  exact ⟨Uuid.text_injective, congrArg Uuid.text⟩

theorem kept_by_unread (r : NotificationRow) :
    r.keptBy (.eq "is_read" "false") = true ↔ r.isRead = false := by
  have hcolumn : r.columnText? "is_read" = some (if r.isRead then "true" else "false") := rfl
  rw [keptBy, hcolumn]
  cases r.isRead <;> simp

/-- A written row describes the row. -/
theorem of_to_json {r : NotificationRow} (h : r.Writable) : ofJson? r.toJson = some r := by
  rw [ofJson?, Json.load, Json.Schema.ofJson, decode_to_json .memory h]
  rfl

/-- What a written row describes is the row, whose times can be written. -/
theorem of_to_json_some {r r' : NotificationRow} (h : ofJson? r.toJson = some r') :
    r.Writable ∧ r' = r := by
  have hwritable : r.Writable := by
    rw [ofJson?, Json.load, Json.Schema.ofJson, to_json_eq, Json.Outline.ofJson,
      Json.Schema.decode] at h
    cases hcolumns : (schema .memory).decodeMembers [] (schema .memory).blank
        (Json.Outline.ofMembers r.columns) with
    | error e =>
        rw [hcolumns] at h
        cases h
    | ok result => exact columns_writable hcolumns
  rw [of_to_json hwritable] at h
  exact ⟨hwritable, (Option.some.inj h).symm⟩

/-- Whatever a row is written over, what is sent is read in its place. -/
theorem overwritten_eq (r written : NotificationRow) :
    r.overwritten? written.toJson = ofJson? written.toJson := by
  rw [to_json_eq, overwritten?, overlay_columns]

/-- A row that is sent takes the place of the one it is written over. -/
theorem overwritten_by {written : NotificationRow} (h : written.Writable) (r : NotificationRow) :
    r.overwritten? written.toJson = some written := by
  rw [overwritten_eq, of_to_json h]

end NotificationRow

namespace NotificationTable

open NotificationRow (columnText? ofJson?)

/-- The rows that all filters keep. -/
def matching (filters : List Rest.Filter) (rows : List NotificationRow) : List NotificationRow :=
  rows.filter fun r => filters.all r.keptBy

/-- A row after the columns that are sent for the matching rows have been overwritten. -/
def overwrite (filters : List Rest.Filter) (body : Json) (r : NotificationRow) : NotificationRow :=
  if filters.all r.keptBy then (r.overwritten? body).getD r else r

/-- The rows have different identifiers, and every row has a time. All times are in years of four
digits. -/
structure Tidy (rows : List NotificationRow) : Prop where
  distinct : (rows.map NotificationRow.id).Nodup
  timed : ∀ r ∈ rows, r.createdAt.isSome = true
  writable : ∀ r ∈ rows, r.Writable

/-- A document is read as some rows. -/
structure Answers (doc : Json.Document) (found : List NotificationRow) : Prop where
  rows : doc.decode (Json.list (Rest.record NotificationRow.schema)) = .ok found
  values : ∃ js, doc.decode (Json.list Json.anything) = .ok js

/-- What serving a request does to a table, and the rows that are returned. A row with a known
identifier may be passed over. -/
inductive Served (rows : List NotificationRow) :
    Rest.Request → List NotificationRow → List NotificationRow → Prop
  | select (filters : List Rest.Filter) (order : Option Rest.Order)
      {found : List NotificationRow} (h : found.Perm (matching filters rows)) :
      Served rows ⟨.select, Feed.tableName, filters, order⟩ rows found
  | insert {body : Json} (filters : List Rest.Filter) (order : Option Rest.Order)
      {r : NotificationRow} (h : ofJson? body = some r)
      (hnew : r.id ∉ rows.map NotificationRow.id) :
      Served rows ⟨.insert body, Feed.tableName, filters, order⟩ (rows ++ [r]) [r]
  | pass {body : Json} (filters : List Rest.Filter) (order : Option Rest.Order)
      {r : NotificationRow} (h : ofJson? body = some r)
      (hknown : r.id ∈ rows.map NotificationRow.id) :
      Served rows ⟨.insert body, Feed.tableName, filters, order⟩ rows []
  | update (body : Json) (filters : List Rest.Filter) (order : Option Rest.Order) :
      Served rows ⟨.update body, Feed.tableName, filters, order⟩
        (rows.map (overwrite filters body)) ((matching filters rows).map (overwrite filters body))
  | delete (filters : List Rest.Filter) (order : Option Rest.Order) :
      Served rows ⟨.delete, Feed.tableName, filters, order⟩
        (rows.filter fun r => !filters.all r.keptBy) []

/-- While a table holds some rows, an exchange serves or refuses the requests about it. -/
def Serving {σ : Type} (table : σ → List NotificationRow) (ex : Rest.Exchange σ)
    (rows : List NotificationRow) : Prop :=
  ∀ r, r.table = Feed.tableName → Action.Ensures (fun w => table w = rows) (ex r)
    (fun doc w => ∃ found, Served rows r (table w) found ∧ Answers doc found)
    (fun w => table w = rows)

/-- An exchange serves or refuses the requests about a table, as long as the table is tidy. -/
structure Serves {σ : Type} (table : σ → List NotificationRow) (ex : Rest.Exchange σ) : Prop where
  refused : ∀ {r s e after}, r.table = Feed.tableName → Tidy (table s.world) →
    (ex r).run s = (.error e, after) → table after.world = table s.world
  served : ∀ {r s doc after}, r.table = Feed.tableName → Tidy (table s.world) →
    (ex r).run s = (.ok doc, after) →
    ∃ found, Served (table s.world) r (table after.world) found ∧ Answers doc found

section Matching

variable {rows : List NotificationRow} {r : NotificationRow}

theorem mem_matching {filter : Rest.Filter} :
    r ∈ matching [filter] rows ↔ r ∈ rows ∧ r.keptBy filter = true := by
  rw [matching, List.mem_filter, List.all_cons, List.all_nil, Bool.and_true]

/-- A row that is sent takes the place of the row with an identifier. -/
theorem overwrite_by_id {written : NotificationRow} (h : written.Writable) (id : Uuid) :
    overwrite [.eq "id" id.text] written.toJson = fun r => if r.id = id then written else r := by
  funext r
  unfold overwrite
  rw [List.all_cons, List.all_nil, Bool.and_true, NotificationRow.overwritten_by h,
    Option.getD_some]
  exact if_congr (NotificationRow.kept_by_id r id) rfl rfl

/-- A row with a new identifier leaves a table tidy. -/
theorem Tidy.append (h : Tidy rows) (hnew : r.id ∉ rows.map NotificationRow.id)
    (htimed : r.createdAt.isSome = true) (hwritable : r.Writable) : Tidy (rows ++ [r]) where
  distinct := by
    rw [List.map_append]
    exact h.distinct.append (List.nodup_singleton _) (by simpa using hnew)
  timed := by
    intro r' hr'
    rcases List.mem_append.mp hr' with hr' | hr'
    · exact h.timed r' hr'
    · exact List.mem_singleton.mp hr' ▸ htimed
  writable := by
    intro r' hr'
    rcases List.mem_append.mp hr' with hr' | hr'
    · exact h.writable r' hr'
    · exact List.mem_singleton.mp hr' ▸ hwritable

/-- The rows after one has taken the place of that with its identifier. -/
theorem mem_replaced {written : NotificationRow}
    (h : r ∈ rows.map fun r => if r.id = written.id then written else r) :
    r = written ∨ r ∈ rows ∧ r.id ≠ written.id := by
  obtain ⟨old, hold, rfl⟩ := List.mem_map.mp h
  split
  next => exact .inl rfl
  next hother => exact .inr ⟨hold, hother⟩

/-- A row in place of that with its identifier leaves a table tidy. -/
theorem Tidy.replaced (h : Tidy rows) {written : NotificationRow}
    (htimed : written.createdAt.isSome = true) (hwritable : written.Writable) :
    Tidy (rows.map fun r => if r.id = written.id then written else r) where
  distinct := by
    have hids : (rows.map fun r => if r.id = written.id then written else r).map
        NotificationRow.id = rows.map NotificationRow.id := by
      rw [List.map_map]
      refine List.map_congr_left fun r _ => ?_
      show (if r.id = written.id then written else r).id = r.id
      split
      next hid => exact hid.symm
      next => rfl
    exact hids ▸ h.distinct
  timed := by
    intro r hr
    rcases mem_replaced hr with rfl | ⟨hr, -⟩
    · exact htimed
    · exact h.timed r hr
  writable := by
    intro r hr
    rcases mem_replaced hr with rfl | ⟨hr, -⟩
    · exact hwritable
    · exact h.writable r hr

end Matching

section Requests

variable {σ α : Type} {table : σ → List NotificationRow} {ex : Rest.Exchange σ}
  {rows : List NotificationRow}

theorem Serves.serving (hserves : Serves table ex) (htidy : Tidy rows) :
    Serving table ex rows := by
  rintro r hname s rfl
  exact ⟨fun doc after hrun => hserves.served hname htidy hrun,
    fun e after hrun => hserves.refused hname htidy hrun⟩

/-- The rows of an answer are decoded. The decoder is one that decodes all answers. -/
theorem rows_ensures {r : Rest.Request} {Effect : List NotificationRow → List NotificationRow → Prop}
    (hr : Action.Ensures (fun w => table w = rows) (ex r)
      (fun doc w => ∃ found, Effect (table w) found ∧ Answers doc found) (fun w => table w = rows))
    {d : Json.Decoder α} (Decoded : List NotificationRow → List α → Prop)
    (hd : ∀ {doc found}, Answers doc found →
      ∃ xs, doc.decode (Json.list d) = .ok xs ∧ Decoded found xs) :
    Action.Ensures (fun w => table w = rows) (Rest.rows ex d r)
      (fun xs w => ∃ found, Effect (table w) found ∧ Decoded found xs)
      (fun w => table w = rows) := by
  refine (Action.Ensures.log fun w hw => hw : Action.Ensures _ (Rest.noteRequest r)
    (fun _ w => table w = rows) _).bind fun _ => ?_
  refine hr.bind fun doc => .of_exists fun found => .of_and fun hdoc => ?_
  obtain ⟨xs, hxs, hdecoded⟩ := hd hdoc
  rw [hxs]
  exact .pure fun w heffect => ⟨found, heffect, hdecoded⟩

variable (hserving : Serving table ex rows)

include hserving

/-- Reading gives the rows that match. -/
theorem select_ensures (filters : List Rest.Filter) (order : Option Rest.Order) :
    Action.Ensures (fun w => table w = rows)
      (Rest.select ex (Rest.record NotificationRow.schema) Feed.tableName filters order)
      (fun found w => table w = rows ∧ found.Perm (matching filters rows))
      (fun w => table w = rows) := by
  refine (rows_ensures (hserving _ rfl) (fun found xs => found = xs)
    (fun h => ⟨_, h.rows, rfl⟩)).weaken (fun _ h => h) ?_ fun _ h => h
  rintro xs w ⟨found, hserved, rfl⟩
  generalize htable : table w = after at hserved ⊢
  cases hserved with
  | select _ _ hfound => exact ⟨rfl, hfound⟩

/-- Adding a row stores and returns it, unless its identifier is known. -/
theorem insert_ensures (body : Json) :
    Action.Ensures (fun w => table w = rows)
      (Rest.insert ex (Rest.record NotificationRow.schema) Feed.tableName body)
      (fun stored w => (table w = rows ∧ stored = []) ∨ ∃ r, ofJson? body = some r ∧
        r.id ∉ rows.map NotificationRow.id ∧ table w = rows ++ [r] ∧ stored = [r])
      (fun w => table w = rows) := by
  refine (rows_ensures (hserving _ rfl) (fun found xs => found = xs)
    (fun h => ⟨_, h.rows, rfl⟩)).weaken (fun _ h => h) ?_ fun _ h => h
  rintro xs w ⟨found, hserved, rfl⟩
  generalize htable : table w = after at hserved ⊢
  cases hserved with
  | insert _ _ hr hnew => exact .inr ⟨_, hr, hnew, rfl, rfl⟩
  | pass _ _ hr hknown => exact .inl ⟨rfl, rfl⟩

/-- Changing rows overwrites those that match. -/
theorem update_ensures (filters : List Rest.Filter) (body : Json) :
    Action.Ensures (fun w => table w = rows)
      (Rest.update ex Json.anything Feed.tableName filters body)
      (fun _ w => table w = rows.map (overwrite filters body)) (fun w => table w = rows) := by
  refine (rows_ensures (hserving _ rfl) (fun _ _ => True)
    (fun h => h.values.imp fun _ hjs => ⟨hjs, trivial⟩)).weaken (fun _ h => h) ?_ fun _ h => h
  rintro xs w ⟨found, hserved, -⟩
  generalize htable : table w = after at hserved ⊢
  cases hserved with
  | update => rfl

end Requests

/-! ## A server -/

instance (r : NotificationRow) : Decidable r.Writable :=
  decidable_of_iff
    ((∀ t ∈ r.createdAt, Calendar.FourDigits t.date.year) ∧
      ∀ t ∈ r.updatedAt, Calendar.FourDigits t.date.year)
    ⟨fun h => ⟨h.1, h.2⟩, fun h => ⟨h.created, h.updated⟩⟩

instance (rows : List NotificationRow) : Decidable (Tidy rows) :=
  decidable_of_iff
    ((rows.map NotificationRow.id).Nodup ∧ (∀ r ∈ rows, r.createdAt.isSome = true) ∧
      ∀ r ∈ rows, r.Writable)
    ⟨fun h => ⟨h.1, h.2.1, h.2.2⟩, fun h => ⟨h.distinct, h.timed, h.writable⟩⟩

/-- Rows in the order in which they are wanted: by the time of their creation, if by any. -/
def arranged (found : List NotificationRow) : Option Rest.Order → List NotificationRow
  | some ⟨"created_at", false⟩ =>
    found.mergeSort fun a b => NotificationCache.newerOrSame (a.toItem default) (b.toItem default)
  | _ => found

/-- The rows that a request would return, and what it would leave of a table. -/
def serve (rows : List NotificationRow) (r : Rest.Request) :
    Option (List NotificationRow × List NotificationRow) :=
  match r.verb with
  | .select => some (arranged (matching r.filters rows) r.order, rows)
  | .insert body => (ofJson? body).map fun row => ([row], rows ++ [row])
  | .update body =>
    some ((matching r.filters rows).map (overwrite r.filters body),
      rows.map (overwrite r.filters body))
  | .delete => some ([], rows.filter fun row => !r.filters.all row.keptBy)

/-- The document that holds rows. -/
def document (found : List NotificationRow) : Json.Document :=
  .ofJson (.arr (found.map NotificationRow.toJson))

/-- A server whose world is the table. It refuses what would leave the table untidy. -/
def server : Rest.Exchange (List NotificationRow) := fun r => .perform fun rows =>
  match serve rows r with
  | some (found, after) =>
    if r.table = Feed.tableName ∧ Tidy after then (.ok (document found), after)
    else (.error (.refused 409 "Conflict"), rows)
  | none => (.error (.refused 400 "Bad Request"), rows)

/-- Written rows are read as they are. -/
theorem document_answers {found : List NotificationRow} (h : ∀ r ∈ found, r.Writable) :
    Answers (document found) found :=
  ⟨NotificationRow.decode_rows h, _, NotificationRow.rows_values found⟩

theorem arranged_perm (found : List NotificationRow) (order : Option Rest.Order) :
    (arranged found order).Perm found := by
  unfold arranged
  split
  · exact List.mergeSort_perm _ _
  · exact List.Perm.refl _

theorem arranged_singleton (r : NotificationRow) (order : Option Rest.Order) :
    arranged [r] order = [r] := by
  unfold arranged
  split
  · exact List.mergeSort_singleton r
  · rfl

section Requests

variable {rows found after : List NotificationRow} {r : Rest.Request}

/-- The rows that are returned are in the table afterwards. -/
theorem mem_of_serve (h : serve rows r = some (found, after)) {row : NotificationRow}
    (hrow : row ∈ found) : row ∈ after := by
  obtain ⟨verb, name, filters, order⟩ := r
  cases verb with
  | select =>
      obtain ⟨rfl, rfl⟩ := Prod.mk.inj (Option.some.inj h)
      exact List.mem_of_mem_filter ((arranged_perm _ _).mem_iff.mp hrow)
  | insert body =>
      obtain ⟨new, hnew, hpair⟩ := Option.map_eq_some_iff.mp h
      obtain ⟨rfl, rfl⟩ := Prod.mk.inj hpair
      exact List.mem_append_right _ hrow
  | update body =>
      obtain ⟨rfl, rfl⟩ := Prod.mk.inj (Option.some.inj h)
      obtain ⟨old, hold, rfl⟩ := List.mem_map.mp hrow
      exact List.mem_map_of_mem (List.mem_of_mem_filter hold)
  | delete =>
      obtain ⟨rfl, rfl⟩ := Prod.mk.inj (Option.some.inj h)
      exact absurd hrow List.not_mem_nil

/-- What a request would do is to serve it, if the table is tidy afterwards. -/
theorem served_of_serve (h : serve rows r = some (found, after)) (hname : r.table = Feed.tableName)
    (htidy : Tidy after) : Served rows r after found := by
  obtain ⟨verb, name, filters, order⟩ := r
  obtain rfl : name = Feed.tableName := hname
  cases verb with
  | select =>
      obtain ⟨rfl, rfl⟩ := Prod.mk.inj (Option.some.inj h)
      exact .select filters order (arranged_perm _ _)
  | insert body =>
      obtain ⟨new, hnew, hpair⟩ := Option.map_eq_some_iff.mp h
      obtain ⟨rfl, rfl⟩ := Prod.mk.inj hpair
      refine .insert filters order hnew ?_
      intro hknown
      have hdistinct := htidy.distinct
      rw [List.map_append] at hdistinct
      exact List.disjoint_of_nodup_append hdistinct hknown List.mem_cons_self
  | update body =>
      obtain ⟨rfl, rfl⟩ := Prod.mk.inj (Option.some.inj h)
      exact .update body filters order
  | delete =>
      obtain ⟨rfl, rfl⟩ := Prod.mk.inj (Option.some.inj h)
      exact .delete filters order

/-- The server answers a request about the table that leaves it tidy. -/
theorem server_ok (h : serve rows r = some (found, after)) (hname : r.table = Feed.tableName)
    (htidy : Tidy after) (journal : List Written) :
    (server r).run ⟨rows, journal⟩ = (.ok (document found), ⟨after, journal⟩) := by
  unfold server
  rw [Action.run_perform]
  simp only [h, if_pos (And.intro hname htidy)]

/-- So does asking it for rows. -/
theorem server_rows_ok (h : serve rows r = some (found, after)) (hname : r.table = Feed.tableName)
    (htidy : Tidy after) {α : Type} {d : Json.Decoder α} {xs : List α}
    (hd : (document found).decode (Json.list d) = .ok xs) (journal : List Written) :
    ∃ later, (Rest.rows server d r).run ⟨rows, journal⟩ = (.ok xs, ⟨after, later⟩) :=
  ⟨_, Rest.rows_run_ok (server_ok h hname htidy _) hd⟩

/-- Writing a row in place of that with an identifier. -/
theorem server_update_ok {written : NotificationRow} (hwritable : written.Writable) {id : Uuid}
    (htidy : Tidy (rows.map fun r => if r.id = id then written else r)) (journal : List Written) :
    ∃ js later, (Rest.update server Json.anything Feed.tableName [.eq "id" id.text]
      written.toJson).run ⟨rows, journal⟩ =
        (.ok js, ⟨rows.map fun r => if r.id = id then written else r, later⟩) := by
  rw [← overwrite_by_id hwritable] at htidy ⊢
  exact ⟨_, server_rows_ok (r := ⟨.update written.toJson, Feed.tableName, _, none⟩) rfl rfl htidy
    (NotificationRow.rows_values _) journal⟩

end Requests

/-- The server serves requests or refuses them. -/
theorem server_serves : Serves (fun rows => rows) server where
  refused {r s e after} _ _ hrun := by
    unfold server at hrun
    rw [Action.run_perform] at hrun
    obtain ⟨hanswer, rfl⟩ := Prod.mk.inj hrun
    split at hanswer
    next found after hserve =>
      split at hanswer
      next => cases hanswer
      next hrefused => simp only [if_neg hrefused]
    next => rfl
  served {r s doc after} hname _ hrun := by
    unfold server at hrun
    rw [Action.run_perform] at hrun
    obtain ⟨hanswer, rfl⟩ := Prod.mk.inj hrun
    split at hanswer
    next found after hserve =>
      split at hanswer
      next haccepted =>
        simp only [if_pos haccepted]
        refine ⟨found, served_of_serve hserve hname haccepted.2, ?_⟩
        rw [← Except.ok.inj hanswer]
        exact document_answers fun row hrow => haccepted.2.writable row (mem_of_serve hserve hrow)
      next => cases hanswer
    next => cases hanswer

/-- The unread row of a user's message of the beginning of a year. -/
def unreadRow (id user : Uuid) : NotificationRow where
  id := id
  userId := user
  title := "Duplicates found"
  message := none
  kind := none
  isRead := false
  createdAt := some (.midnight (.newYear 2025))
  updatedAt := none

end NotificationTable

end CustomerDedupe
