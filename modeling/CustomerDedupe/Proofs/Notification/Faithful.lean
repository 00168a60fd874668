import CustomerDedupe.Proofs.Notification.Operations

/-!
# A server that does what it acknowledges

A server is `Faithful` to a table if it does what a request asks for or refuses it, and has no two
rows with the same identifier. Nothing is asked of times: rows need not have any, and they may be in
any year. `tidyServer` is such a server.
-/

namespace CustomerDedupe.NotificationTable

open NotificationRow (ofJson?)

/-- The rows that a request changes can be read once the columns that are sent have been
overwritten. -/
def understood (rows : List NotificationRow) (r : Rest.Request) : Bool :=
  match r.verb with
  | .update body => (matching r.filters rows).all fun row => (row.overwritten? body).isSome
  | _ => true

/-- What doing all that a request asks for does to a table, and the rows that are returned. -/
structure Done (rows : List NotificationRow) (r : Rest.Request)
    (after found : List NotificationRow) : Prop where
  served : Served rows r after found
  understood : understood rows r = true

/-- An exchange does what the requests about a table ask for, or refuses them and does nothing. The
rows of the table always have different identifiers. -/
structure Faithful {σ : Type} (table : σ → List NotificationRow) (ex : Rest.Exchange σ) : Prop where
  distinct : ∀ w, ((table w).map NotificationRow.id).Nodup
  refused : ∀ {r s e after}, r.table = Feed.tableName → (ex r).run s = (.error e, after) →
    table after.world = table s.world
  done : ∀ {r s doc after}, r.table = Feed.tableName → (ex r).run s = (.ok doc, after) →
    ∃ found, Done (table s.world) r (table after.world) found ∧ Answers doc found

/-- An exchange refuses no request to read the table. -/
def AnswersReads {σ : Type} (ex : Rest.Exchange σ) : Prop :=
  ∀ filters order s, ∃ doc after,
    (ex ⟨.select, Feed.tableName, filters, order⟩).run s = (.ok doc, after)

/-- A row that is sent for the rows with an identifier takes their place. -/
theorem Done.update {rows after found : List NotificationRow} {written : NotificationRow}
    {id : Uuid}
    (h : Done rows ⟨.update written.toJson, Feed.tableName, [.eq "id" id.text], none⟩ after found) :
    after = rows.map fun r => if r.id = id then written else r := by
  obtain ⟨hserved, hunderstood⟩ := h
  cases hserved with
  | update =>
    refine List.map_congr_left fun r hr => ?_
    unfold overwrite
    rw [List.all_cons, List.all_nil, Bool.and_true, NotificationRow.overwritten_eq]
    refine ite_congr (propext (NotificationRow.kept_by_id r id)) (fun hid => ?_) fun _ => rfl
    -- the row can be read as it has been written
    have hmatching := mem_matching.mpr ⟨hr, (NotificationRow.kept_by_id r id).mpr hid⟩
    have hsome := List.all_eq_true.mp hunderstood r hmatching
    rw [NotificationRow.overwritten_eq] at hsome
    obtain ⟨read, hread⟩ := Option.isSome_iff_exists.mp hsome
    rw [hread, Option.getD_some]
    exact (NotificationRow.of_to_json_some hread).2

section Rules

variable {σ : Type} {table : σ → List NotificationRow} {ex : Rest.Exchange σ}
  {rows : List NotificationRow}

namespace Faithful

variable (h : Faithful table ex)

include h

theorem ensures {r : Rest.Request} (hname : r.table = Feed.tableName) :
    Action.Ensures (fun w => table w = rows) (ex r)
      (fun doc w => ∃ found, Done rows r (table w) found ∧ Answers doc found)
      (fun w => table w = rows) := by
  rintro s rfl
  exact ⟨fun doc after hrun => h.done hname hrun, fun e after hrun => h.refused hname hrun⟩

theorem serving : Serving table ex rows := by
  intro r hname
  refine (h.ensures hname).weaken (fun _ h => h) ?_ fun _ h => h
  rintro doc w ⟨found, hdone, hanswers⟩
  exact ⟨found, hdone.served, hanswers⟩

/-- Writing a row in place of that with an identifier. -/
theorem update_ensures (id : Uuid) (written : NotificationRow) :
    Action.Ensures (fun w => table w = rows)
      (Rest.update ex Json.anything Feed.tableName [.eq "id" id.text] written.toJson)
      (fun _ w => table w = rows.map fun r => if r.id = id then written else r)
      (fun w => table w = rows) := by
  refine (rows_ensures (h.ensures rfl) (fun _ _ => True)
    fun h => h.values.imp fun _ hjs => ⟨hjs, trivial⟩).weaken (fun _ h => h) ?_ fun _ h => h
  rintro xs w ⟨found, hdone, -⟩
  exact hdone.update

/-- Rows are read whenever they are asked for. -/
theorem rows_ok (hreads : AnswersReads ex) (filters : List Rest.Filter)
    (order : Option Rest.Order) (s : Session (Feed.Kept σ)) :
    ∃ found after, (Feed.rows ex filters order).run s = (.ok found, after) := by
  let r : Rest.Request := ⟨.select, Feed.tableName, filters, order⟩
  obtain ⟨doc, after, hrun⟩ :=
    hreads filters order ((Rest.noteRequest r).run ⟨s.world.outside, s.journal⟩).2
  obtain ⟨found, -, hanswers⟩ := h.done rfl hrun
  unfold Feed.rows Rest.select
  rw [Feed.run_outward, Rest.rows_run_ok hrun hanswers.rows]
  exact ⟨found, _, rfl⟩

end Faithful

end Rules

/-! ## A server -/

/-- A server whose world is a tidy table. It refuses what the rows cannot take and what would leave
the table untidy. -/
def tidyServer : Rest.Exchange { rows : List NotificationRow // Tidy rows } := fun r =>
  .perform fun t =>
    match serve t.1 r with
    | some (found, after) =>
      if h : (r.table = Feed.tableName ∧ understood t.1 r = true) ∧ Tidy after then
        (.ok (document found), ⟨after, h.2⟩)
      else (.error (.refused 409 "Conflict"), t)
    | none => (.error (.refused 400 "Bad Request"), t)

section Requests

variable {t : { rows : List NotificationRow // Tidy rows }} {found after : List NotificationRow}
  {r : Rest.Request}

/-- The server does what leaves the table tidy. -/
theorem tidy_server_ok (hserve : serve t.1 r = some (found, after))
    (hname : r.table = Feed.tableName) (hunderstood : understood t.1 r = true) (htidy : Tidy after)
    (journal : List Written) :
    (tidyServer r).run ⟨t, journal⟩ = (.ok (document found), ⟨⟨after, htidy⟩, journal⟩) := by
  unfold tidyServer
  rw [Action.run_perform]
  simp only [hserve, dif_pos (And.intro (And.intro hname hunderstood) htidy)]

/-- So does asking it for rows. -/
theorem tidy_server_rows_ok (hserve : serve t.1 r = some (found, after))
    (hname : r.table = Feed.tableName) (hunderstood : understood t.1 r = true) (htidy : Tidy after)
    {α : Type} {d : Json.Decoder α} {xs : List α}
    (hd : (document found).decode (Json.list d) = .ok xs) (journal : List Written) :
    ∃ later, (Rest.rows tidyServer d r).run ⟨t, journal⟩ = (.ok xs, ⟨⟨after, htidy⟩, later⟩) :=
  ⟨_, Rest.rows_run_ok (tidy_server_ok hserve hname hunderstood htidy _) hd⟩

/-- The server gives the rows that match, in no particular order. -/
theorem tidy_server_select_ok (t : { rows : List NotificationRow // Tidy rows })
    (filters : List Rest.Filter) (journal : List Written) :
    ∃ later, (Rest.select tidyServer (Rest.record NotificationRow.schema) Feed.tableName filters
      none).run ⟨t, journal⟩ = (.ok (matching filters t.1), ⟨t, later⟩) :=
  tidy_server_rows_ok (r := ⟨.select, Feed.tableName, filters, none⟩) rfl rfl rfl t.2
    (document_answers fun r hr => t.2.writable r (List.mem_of_mem_filter hr)).rows journal

/-- Storing a row. -/
theorem tidy_server_insert_ok {written : NotificationRow} (hwritable : written.Writable)
    (htidy : Tidy (t.1 ++ [written])) (journal : List Written) :
    ∃ later, (Rest.insert tidyServer (Rest.record NotificationRow.schema) Feed.tableName
      written.toJson).run ⟨t, journal⟩ = (.ok [written], ⟨⟨_, htidy⟩, later⟩) := by
  have hserve : serve t.1 ⟨.insert written.toJson, Feed.tableName, [], none⟩ =
      some ([written], t.1 ++ [written]) :=
    congrArg (Option.map fun row => ([row], t.1 ++ [row])) (NotificationRow.of_to_json hwritable)
  exact tidy_server_rows_ok hserve rfl rfl htidy
    (document_answers (List.forall_mem_singleton.mpr hwritable)).rows journal

/-- Writing a row in place of that with an identifier. -/
theorem tidy_server_update_ok {written : NotificationRow} (hwritable : written.Writable) {id : Uuid}
    (htidy : Tidy (t.1.map fun r => if r.id = id then written else r)) (journal : List Written) :
    ∃ js later, (Rest.update tidyServer Json.anything Feed.tableName [.eq "id" id.text]
      written.toJson).run ⟨t, journal⟩ = (.ok js, ⟨⟨_, htidy⟩, later⟩) := by
  have hunderstood : understood t.1
      ⟨.update written.toJson, Feed.tableName, [.eq "id" id.text], none⟩ = true :=
    List.all_eq_true.mpr fun r _ =>
      Option.isSome_iff_exists.mpr ⟨written, NotificationRow.overwritten_by hwritable r⟩
  obtain ⟨found, hserve⟩ : ∃ found,
      serve t.1 ⟨.update written.toJson, Feed.tableName, [.eq "id" id.text], none⟩ =
        some (found, t.1.map fun r => if r.id = id then written else r) := by
    rw [← overwrite_by_id hwritable]
    exact ⟨_, rfl⟩
  exact ⟨_, tidy_server_rows_ok hserve rfl hunderstood htidy (NotificationRow.rows_values _) journal⟩

end Requests

theorem tidy_server_faithful : Faithful Subtype.val tidyServer where
  distinct t := t.2.distinct
  refused {r s e after} _ hrun := by
    unfold tidyServer at hrun
    rw [Action.run_perform] at hrun
    obtain ⟨hanswer, rfl⟩ := Prod.mk.inj hrun
    split at hanswer
    next found after hserve =>
      split at hanswer
      next => cases hanswer
      next hrefused => simp only [dif_neg hrefused]
    next => rfl
  done {r s doc after} _ hrun := by
    unfold tidyServer at hrun
    rw [Action.run_perform] at hrun
    obtain ⟨hanswer, rfl⟩ := Prod.mk.inj hrun
    split at hanswer
    next found after hserve =>
      split at hanswer
      next haccepted =>
        simp only [dif_pos haccepted]
        refine ⟨found, ⟨served_of_serve hserve haccepted.1.1 haccepted.2, haccepted.1.2⟩, ?_⟩
        rw [← Except.ok.inj hanswer]
        exact document_answers fun row hrow => haccepted.2.writable row (mem_of_serve hserve hrow)
      next => cases hanswer
    next => cases hanswer

theorem tidy_server_answers_reads : AnswersReads tidyServer := by
  rintro filters order ⟨t, journal⟩
  exact ⟨_, _, tidy_server_ok rfl rfl rfl t.2 journal⟩

end CustomerDedupe.NotificationTable
