import CustomerDedupe.Customer.Remote
import CustomerDedupe.Proofs.Customer.ContactRequests
import CustomerDedupe.Proofs.Duplicates.ExactGroups
import CustomerDedupe.Proofs.Duplicates.Find
import CustomerDedupe.Proofs.Duplicates.MergeTable
import CustomerDedupe.Proofs.Duplicates.SharedKey
import CustomerDedupe.Proofs.Rest.Endpoint
import CustomerDedupe.Proofs.Rest.Overheard

/-!
# Acting on a group on the server

Archiving or removing a group on the server is one message, which names the positive ones among the
contacts of the group, each once (`act_sends`). A contact that is not positive is no contact to the
server: a group of such contacts only is acted on without a message
(`nonpositive_contacts_left_out`). `acting_reaches_positive_contacts` goes from the rows that the
server answers a search with to the messages about the groups that the search returns.
-/

namespace CustomerDedupe

open Calendar (Date Instant)

namespace Duplicates

/-- What can be done with a group as a whole. -/
inductive GroupAct where
  | archive
  | delete
  deriving DecidableEq, Repr

namespace GroupAct

/-- The action on a group. -/
def on {σ : Type} (store : CustomerStore σ) (g : Group) : GroupAct → Action σ Unit
  | archive => archiveGroup store g
  | delete => deleteGroup store g

/-- What the server is asked to do with the rows. -/
def verb : GroupAct → Rest.Verb
  | archive => .update (.obj [("is_archived", .bool true)])
  | delete => .delete

/-- The request about the rows of some contacts. -/
def request (act : GroupAct) (ids : List Int) : Rest.Request :=
  ⟨act.verb, CustomerTable.name, [CustomerTable.contactFilter ids], none⟩

/-- The parameters of the request are the contacts that it names. -/
theorem request_params (act : GroupAct) (ids : List Int) :
    (act.request ids).params =
      [("contact_id", "in.(" ++ ",".intercalate (ids.map Text.showInt) ++ ")")] := by
  cases act <;> rfl

variable {σ : Type} {c : Rest.Client} {net : Rest.Network σ} {g : Group} {m : Rest.Message}

/-- A client that can ask for all customers can make the request. -/
theorem exists_message (act : GroupAct) {listing : Rest.Message}
    (h : c.message Rest.Client.allCustomers = .ok listing) (ids : List Int) :
    ∃ m, c.message (act.request ids) = .ok m :=
  Rest.Client.message_same_table h rfl

/-- Acting on a group is the one message of its request, if the group has a positive contact. -/
theorem act_sends (act : GroupAct) (now : Instant)
    (hsome : CustomerTable.distinctPositive g.contactIds ≠ [])
    (h : c.message (act.request (CustomerTable.distinctPositive g.contactIds)) = .ok m) :
    Rest.SendsMessages [m]
      (act.on (CustomerTable.store (c.exchange (Rest.overheard net)) now) g) := by
  cases act with
  | archive =>
      have hcall := CustomerTable.ContactCall.archive.on_sends_message hsome h net now
      exact hcall.after_log _ _ _
  | delete =>
      have hcall := CustomerTable.ContactCall.delete.on_sends_message hsome h net now
      exact hcall.after_log _ _ _

/-- Acting on a group without a positive contact succeeds and leaves the world alone. -/
theorem act_idle (act : GroupAct) (ex : Rest.Exchange σ) (now : Instant)
    (hnone : CustomerTable.distinctPositive g.contactIds = []) (s : Session σ) :
    ((act.on (CustomerTable.store ex now) g).run s).1 = .ok () ∧
      ((act.on (CustomerTable.store ex now) g).run s).2.world = s.world := by
  cases act with
  | archive =>
      simp only [on, archiveGroup, CustomerTable.store, hnone]
      exact ⟨rfl, rfl⟩
  | delete =>
      simp only [on, deleteGroup, CustomerTable.store, hnone]
      exact ⟨rfl, rfl⟩

end GroupAct

section Search

variable {σ : Type} {c : Rest.Client} {net : Rest.Network σ} {w after : σ}
  {listing : Rest.Message} {status : Nat} {body : List UInt8} {rows : List CustomerRow}

/-- Listing the customers on the server sends one message and returns those in the answer. -/
theorem list_on_server (hbuilt : c.message Rest.Client.allCustomers = .ok listing)
    (hanswer : net listing w = (.answer status body, after))
    (hstatus : 200 ≤ status ∧ status < 300)
    (hrows : (Json.Document.read body).decode (Json.list (Rest.record CustomerRow.schema)) =
      .ok rows)
    (now : Instant) (before : List Rest.Message) (journal : List Written) :
    ∃ journal', (CustomerTable.store (c.exchange (Rest.overheard net)) now).list.run
        ⟨(w, before), journal⟩ =
      (.ok (rows.map (CustomerRow.toCustomer now)), ⟨(after, listing :: before), journal'⟩) := by
  have hselect (journal : List Written) : ∃ journal', ExceptT.run
      (Rest.select (c.exchange (Rest.overheard net)) (Rest.record CustomerRow.schema)
        CustomerTable.name [] none) ⟨(w, before), journal⟩ =
        (.ok rows, ⟨(after, listing :: before), journal'⟩) :=
    Rest.Client.rows_served hbuilt hanswer hstatus hrows before journal
  simp only [CustomerTable.store, CustomerTable.note]
  rw [Action.run_bind_ok (Action.run_log _ _ _ _)]
  obtain ⟨served, hrun⟩ := hselect _
  rw [Action.run_bind_ok (Action.run_outcome hrun)]
  dsimp only
  split
  · exact ⟨_, rfl⟩
  · exact ⟨_, rfl⟩

/-- A search of the server sends one message and returns the groups of a scan of the customers
whose rows are in the answer. -/
theorem find_on_server (hbuilt : c.message Rest.Client.allCustomers = .ok listing)
    (hanswer : net listing w = (.answer status body, after))
    (hstatus : 200 ≤ status ∧ status < 300)
    (hrows : (Json.Document.read body).decode (Json.list (Rest.record CustomerRow.schema)) =
      .ok rows)
    (now : Instant) (s : Settings) (today : Date) (days : Int) (includeFuzzy : Bool)
    (before : List Rest.Message) (journal : List Written) :
    ∃ journal', (find (CustomerTable.store (c.exchange (Rest.overheard net)) now) s today days
        includeFuzzy).run ⟨(w, before), journal⟩ =
      (.ok (scan s today days includeFuzzy (rows.map (CustomerRow.toCustomer now))),
        ⟨(after, listing :: before), journal'⟩) := by
  obtain ⟨listed, hlisted⟩ := list_on_server hbuilt hanswer hstatus hrows now before journal
  exact find_run hlisted s today days includeFuzzy

/-- A row of the server takes part in a scan and has a key. -/
def SharedKey.HasRow (k : SharedKey) (today : Date) (days : Int) (now : Instant)
    (row : CustomerRow) : Prop :=
  Recent today days (row.toCustomer now) ∧ k.Has (row.toCustomer now)

/-- The contacts of a group that a scan of rows finds are those of all recent rows of a key. -/
theorem exists_key_of_mem_scan_rows {s : Settings} {today : Date} {days : Int}
    {includeFuzzy : Bool} {now : Instant} {rows : List CustomerRow} {g : Group}
    (hg : g ∈ scan s today days includeFuzzy (rows.map (CustomerRow.toCustomer now))) :
    ∃ k : SharedKey, ∀ id, id ∈ g.contactIds ↔
      ∃ row ∈ rows, row.contactId = id ∧ k.HasRow today days now row := by
  obtain ⟨k, hk⟩ := SharedKey.exists_key_of_mem_all_groups (mem_scan.mp hg).1
  refine ⟨k, fun id => ?_⟩
  rw [hk.mem_contact_ids, recent_customers_eq]
  constructor
  · rintro ⟨c, hc, hkey, rfl⟩
    obtain ⟨hmem, hrecent⟩ := List.mem_filter.mp hc
    obtain ⟨row, hrow, rfl⟩ := List.mem_map.mp hmem
    exact ⟨row, hrow, rfl, of_decide_eq_true hrecent, hkey⟩
  · rintro ⟨row, hrow, rfl, hrecent, hkey⟩
    exact ⟨row.toCustomer now,
      List.mem_filter.mpr ⟨List.mem_map_of_mem hrow, decide_eq_true hrecent⟩, hkey, rfl⟩

/-- A search of the server returns groups of which each has the contacts of all recent rows of a
key in the answer. Acting on one of them, whatever has been sent and written before, is exactly
one request about the positive contacts that occur in it, each named once. If none is positive,
nothing is sent and acting succeeds. -/
theorem acting_reaches_positive_contacts
    (hbuilt : c.message Rest.Client.allCustomers = .ok listing)
    (hanswer : net listing w = (.answer status body, after))
    (hstatus : 200 ≤ status ∧ status < 300)
    (hrows : (Json.Document.read body).decode (Json.list (Rest.record CustomerRow.schema)) =
      .ok rows)
    (now : Instant) (settings : Settings) (today : Date) (days : Int) (includeFuzzy : Bool)
    (before : List Rest.Message) (journal : List Written) :
    let store := CustomerTable.store (c.exchange (Rest.overheard net)) now
    ∃ groups journal',
      (find store settings today days includeFuzzy).run ⟨(w, before), journal⟩ =
        (.ok groups, ⟨(after, listing :: before), journal'⟩) ∧
      ∀ g ∈ groups,
        (∃ k : SharedKey, ∀ id, id ∈ g.contactIds ↔
          ∃ row ∈ rows, row.contactId = id ∧ k.HasRow today days now row) ∧
        ∃ ids : List Int, ids.Nodup ∧ (∀ id, id ∈ ids ↔ 0 < id ∧ id ∈ g.contactIds) ∧
          ∀ (act : GroupAct) (s : Session (σ × List Rest.Message)),
            (ids = [] → ((act.on store g).run s).1 = .ok () ∧
              ((act.on store g).run s).2.world = s.world) ∧
            (ids ≠ [] → ∃ m u, Url.read (c.tableUrl CustomerTable.name) = .ok u ∧
              m.url = u.addQuery
                [("contact_id", "in.(" ++ ",".intercalate (ids.map Text.showInt) ++ ")")] ∧
              m.method = act.verb.method ∧ m.body = act.verb.body? ∧
              ((act.on store g).run s).2.world.2 = m :: s.world.2) := by
  intro store
  obtain ⟨journal', hfind⟩ := find_on_server hbuilt hanswer hstatus hrows now settings today days
    includeFuzzy before journal
  refine ⟨_, _, hfind, fun g hg => ⟨exists_key_of_mem_scan_rows hg, ?_⟩⟩
  refine ⟨CustomerTable.distinctPositive g.contactIds, distinct_ids_nodup _ _,
    fun _ => CustomerTable.mem_distinct_positive, fun act s => ⟨fun hnone => ?_, fun hsome => ?_⟩⟩
  · exact act.act_idle _ now hnone s
  · obtain ⟨m, hm⟩ := act.exists_message hbuilt (CustomerTable.distinctPositive g.contactIds)
    obtain ⟨u, hread, -, -, -, -, -, hurl, hmethod, hbody⟩ := Rest.Client.message_eq_ok hm
    rw [act.request_params] at hurl
    exact ⟨m, u, hread, hurl, hmethod, hbody, (act.act_sends now hsome hm).sent s⟩

end Search

/-! ## Rows without a contact -/

/-- Four rows of two phone numbers. Only the first belongs to a contact. -/
def sparseRows : List CustomerRow :=
  [(7, "1"), (0, "1"), (0, "2"), (0, "2")].map fun (contact, number) =>
    { CustomerRow.blank with contactId := contact, contactNumber := some number }

/-- The rows as a server answers with them. -/
def sparseBody : List UInt8 :=
  Text.Utf8.encode ("[\x7b\"id\":0,\"contact_id\":7,\"contact_number\":\"1\"\x7d," ++
    "\x7b\"id\":0,\"contact_id\":0,\"contact_number\":\"1\"\x7d," ++
    "\x7b\"id\":0,\"contact_id\":0,\"contact_number\":\"2\"\x7d," ++
    "\x7b\"id\":0,\"contact_id\":0,\"contact_number\":\"2\"\x7d]")

theorem sparse_body_read :
    (Json.Document.read sparseBody).decode (Json.list (Rest.record CustomerRow.schema)) =
      .ok sparseRows := by
  decide +kernel

/-- A server that answers everything with the rows. -/
def sparseServer : Rest.Network Unit :=
  fun _ w => (.answer 200 sparseBody, w)

/-- A client of the server. -/
def localClient : Rest.Client :=
  .new "http://localhost" "anon"

theorem local_client_lists : ∃ m, localClient.message Rest.Client.allCustomers = .ok m :=
  Rest.Client.message_of_is_ok (by decide +kernel)

/-- The beginning of 1970, when the rows are searched. -/
def newDecade : Instant :=
  .midnight (.newYear 1970)

/-- Settings under which a group of any score is found. -/
def anyScore : Settings :=
  { Settings.default with scoreThreshold := 0 }

/-- Two rows of a number are a group of the scan. -/
theorem exists_mem_sparse_scan (number : List Char) (a b : CustomerRow) (hnumber : number ≠ [])
    (hrows : (sparseRows.map (CustomerRow.toCustomer newDecade)).filter (fun c =>
      Recent newDecade.date 1 c ∧ normalizeDigits c.contactNumber = number) =
        [a.toCustomer newDecade, b.toCustomer newDecade])
    (horder : (b.toCustomer newDecade).assignedDate ≤ (a.toCustomer newDecade).assignedDate) :
    ∃ g ∈ scan anyScore newDecade.date 1 false (sparseRows.map (CustomerRow.toCustomer newDecade)),
      g.contactIds = [a.contactId, b.contactId] := by
  have hshared : SharedNumber anyScore newDecade.date 1
      (sparseRows.map (CustomerRow.toCustomer newDecade)) number
      [a.toCustomer newDecade, b.toCustomer newDecade] := by
    refine ⟨hnumber, ?_, Nat.le_refl 2, Int.natCast_nonneg _⟩
    rw [hrows]
    exact ⟨List.Perm.refl _, List.pairwise_pair.mpr horder, fun _ => rfl⟩
  obtain ⟨g, hg, -, -, -, hshows⟩ := exists_mem_scan_of_shared_number false hshared
  exact ⟨g, hg, hshows.contactIds⟩

/-- The row of the contact is grouped with the one that shares its number. -/
theorem exists_mixed_group :
    ∃ g ∈ scan anyScore newDecade.date 1 false (sparseRows.map (CustomerRow.toCustomer newDecade)),
      g.contactIds = [7, 0] :=
  exists_mem_sparse_scan ['1'] sparseRows[0] sparseRows[1] (by decide) (by decide +kernel)
    (by decide +kernel)

/-- The other two rows are a group as well. -/
theorem exists_group_without_contact :
    ∃ g ∈ scan anyScore newDecade.date 1 false (sparseRows.map (CustomerRow.toCustomer newDecade)),
      g.contactIds = [0, 0] :=
  exists_mem_sparse_scan ['2'] sparseRows[2] sparseRows[3] (by decide) (by decide +kernel)
    (by decide +kernel)

theorem mixed_group_reached :
    let store := CustomerTable.store (localClient.exchange (Rest.overheard sparseServer)) newDecade
    ∃ listing, localClient.message Rest.Client.allCustomers = .ok listing ∧
      sparseServer listing () = (.answer 200 sparseBody, ()) ∧
      ∃ groups journal',
        (find store anyScore newDecade.date 1 false).run ⟨((), []), []⟩ =
          (.ok groups, ⟨((), [listing]), journal'⟩) ∧
        ∃ g ∈ groups, g.contactIds = [7, 0] ∧ ∀ act : GroupAct, ∃ m u,
          m.url = Url.addQuery u [("contact_id", "in.(7)")] ∧ m.method = act.verb.method ∧
          ((act.on store g).run ⟨((), [listing]), journal'⟩).2.world.2 = [m, listing] := by
  intro store
  obtain ⟨listing, hbuilt⟩ := local_client_lists
  have hanswer : sparseServer listing () = (.answer 200 sparseBody, ()) := rfl
  refine ⟨listing, hbuilt, hanswer, ?_⟩
  obtain ⟨groups, journal', hfind, hacts⟩ := acting_reaches_positive_contacts hbuilt hanswer
    (by decide) sparse_body_read newDecade anyScore newDecade.date 1 false [] []
  refine ⟨groups, journal', hfind, ?_⟩
  obtain ⟨_, hscan⟩ := find_on_server hbuilt hanswer (by decide) sparse_body_read newDecade
    anyScore newDecade.date 1 false [] []
  obtain rfl := Except.ok.inj (congrArg Prod.fst (hfind.symm.trans hscan))
  obtain ⟨g, hg, hcontacts⟩ := exists_mixed_group
  refine ⟨g, hg, hcontacts, fun act => ?_⟩
  obtain ⟨-, ids, hnodup, hmem, hact⟩ := hacts g hg
  have hids : ids = [7] := by
    have hseven : ∀ id, id ∈ ids ↔ id = 7 := by
      intro id
      rw [hmem, hcontacts]
      simp only [List.mem_cons, List.not_mem_nil, or_false]
      omega
    exact List.perm_singleton.mp
      ((List.perm_ext_iff_of_nodup hnodup (List.nodup_singleton 7)).mpr fun id => by
        rw [hseven, List.mem_singleton])
  obtain ⟨-, hsent⟩ := hact act ⟨((), [listing]), journal'⟩
  obtain ⟨m, u, -, hurl, hmethod, -, hworld⟩ := hsent (by rw [hids]; decide)
  rw [hids] at hurl
  exact ⟨m, u, hurl, hmethod, hworld⟩

/-- What is done with a group of a contact and a row without one reaches only the contact, and
nothing is sent about a group of rows without a contact, though acting on it succeeds. -/
theorem nonpositive_contacts_left_out :
    let store := CustomerTable.store (localClient.exchange (Rest.overheard sparseServer)) newDecade
    ∃ groups found, (find store anyScore newDecade.date 1 false).run ⟨((), []), []⟩ =
        (.ok groups, found) ∧
      (∃ g ∈ groups, g.contactIds = [7, 0] ∧ ∀ act : GroupAct, ∃ m u,
        m.url = Url.addQuery u [("contact_id", "in.(7)")] ∧
        ((act.on store g).run found).2.world.2 = m :: found.world.2) ∧
      ∃ g ∈ groups, g.contactIds = [0, 0] ∧ ∀ act : GroupAct,
        ((act.on store g).run found).1 = .ok () ∧
        ((act.on store g).run found).2.world = found.world := by
  intro store
  obtain ⟨listing, hbuilt⟩ := local_client_lists
  have hanswer : sparseServer listing () = (.answer 200 sparseBody, ()) := rfl
  obtain ⟨_, hscan⟩ := find_on_server hbuilt hanswer (by decide) sparse_body_read newDecade
    anyScore newDecade.date 1 false [] []
  refine ⟨_, _, hscan, ?_, ?_⟩
  · obtain ⟨g, hg, hcontacts⟩ := exists_mixed_group
    refine ⟨g, hg, hcontacts, fun act => ?_⟩
    have hseven : CustomerTable.distinctPositive g.contactIds = [7] := by
      rw [hcontacts]
      decide
    obtain ⟨m, hm⟩ := act.exists_message hbuilt (CustomerTable.distinctPositive g.contactIds)
    obtain ⟨u, -, -, -, -, -, -, hurl, -⟩ := Rest.Client.message_eq_ok hm
    rw [act.request_params, hseven] at hurl
    exact ⟨m, u, hurl, (act.act_sends newDecade (by rw [hseven]; decide) hm).sent _⟩
  · obtain ⟨g, hg, hcontacts⟩ := exists_group_without_contact
    refine ⟨g, hg, hcontacts, fun act => act.act_idle _ newDecade ?_ _⟩
    rw [hcontacts]
    decide

end Duplicates

end CustomerDedupe
