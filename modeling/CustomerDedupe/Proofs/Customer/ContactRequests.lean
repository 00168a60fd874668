import CustomerDedupe.Customer.Remote
import CustomerDedupe.Proofs.Duplicates.DistinctIds
import CustomerDedupe.Proofs.Rest.Overheard

/-!
# Requests about contacts

Looking up, archiving and removing the rows of some contacts is one request each. Its only filter
lists the positive identifiers among those given, each once and in the order in which they occur
first, and is read back as this list (`listed_ids_contact_filter`). Without a positive identifier
nothing is requested. `contacts_requested_once` puts this together.
-/

namespace CustomerDedupe.CustomerTable

open Calendar (Instant)

variable {σ : Type} {ids : List Int}

/-! ## Identifiers in a filter -/

/-- The contacts that a request names are the positive ones. -/
theorem mem_distinct_positive {id : Int} : id ∈ distinctPositive ids ↔ 0 < id ∧ id ∈ ids := by
  rw [distinctPositive, Duplicates.mem_distinct_ids, decide_eq_true_eq, and_comm]

/-- No contact is named exactly if none is positive. -/
theorem distinct_positive_eq_nil_iff : distinctPositive ids = [] ↔ ∀ id ∈ ids, ¬0 < id := by
  rw [List.eq_nil_iff_forall_not_mem]
  simp only [mem_distinct_positive, not_and]
  exact forall_congr' fun id => imp_not_comm

/-- The integers that the condition of a column lists, cut at the commas. -/
def listedIds? (condition : String) : Option (List Int) := do
  let rest ← condition.toList.dropPrefix? "in.(".toList
  let listed ← rest.dropSuffix? [')']
  (Text.splitAt ',' listed).mapM Text.readInt?

/-- The condition on a contact lists its identifiers in order. -/
theorem listed_ids_contact_filter (hne : ids ≠ []) :
    listedIds? (contactFilter ids).pair.2 = some ids := by
  have hcondition : (contactFilter ids).pair.2.toList =
      "in.(".toList ++ (List.intercalate [','] (ids.map Text.writeInt) ++ [')']) := by
    simp [contactFilter, Rest.Filter.pair, String.toList_intercalate, Function.comp_def,
      Text.showInt]
  have hcomma : ∀ part ∈ ids.map Text.writeInt, ',' ∉ part := by
    intro part hpart hmem
    obtain ⟨id, -, rfl⟩ := List.mem_map.mp hpart
    exact absurd (Text.mem_write_int hmem) (by decide)
  have hsuffix : (List.intercalate [','] (ids.map Text.writeInt) ++ [')']).dropSuffix? [')'] =
      some (List.intercalate [','] (ids.map Text.writeInt)) :=
    List.dropSuffix?_eq_some_iff.mpr ⟨[')'], rfl, rfl⟩
  rw [listedIds?, hcondition, List.dropPrefix?_append_of_beq _ (beq_self_eq_true _)]
  simp only [Option.bind_eq_bind, Option.bind_some, hsuffix]
  rw [Text.split_at_intercalate (by simpa using hne) hcomma, Text.read_ints_write_ints]

/-! ## The requests -/

/-- What can be done with the rows of some contacts. -/
inductive ContactCall where
  | lookUp
  | archive
  | delete
  deriving DecidableEq, Repr

namespace ContactCall

/-- What is returned: the customers found, or nothing of interest. -/
abbrev Result : ContactCall → Type
  | lookUp => List Customer
  | archive | delete => Unit

/-- The call on a store. -/
def on (store : CustomerStore σ) (ids : List Int) : (call : ContactCall) → Action σ call.Result
  | lookUp => store.byContactIds ids
  | archive => store.archive ids
  | delete => store.delete ids

/-- What is returned where there is nothing to do. -/
def idle : (call : ContactCall) → call.Result
  | lookUp => []
  | archive | delete => ()

/-- What the server is asked to do with the rows. -/
def verb : ContactCall → Rest.Verb
  | lookUp => .select
  | archive => .update (.obj [("is_archived", .bool true)])
  | delete => .delete

/-- The request about the rows of some contacts. -/
def request (call : ContactCall) (ids : List Int) : Rest.Request :=
  ⟨call.verb, name, [contactFilter ids], none⟩

/-- The requests that are made for a list of identifiers. -/
def requests (call : ContactCall) (ids : List Int) : List Rest.Request :=
  match distinctPositive ids with
  | [] => []
  | known => [call.request known]

theorem requests_eq_nil_iff (call : ContactCall) :
    call.requests ids = [] ↔ distinctPositive ids = [] := by
  unfold requests
  split
  next h => exact iff_of_true rfl h
  next h => exact iff_of_false (List.cons_ne_nil _ _) h

theorem requests_of_ne_nil (call : ContactCall) (h : distinctPositive ids ≠ []) :
    call.requests ids = [call.request (distinctPositive ids)] := by
  unfold requests
  split
  next hnil => exact absurd hnil h
  next => rfl

/-- Without a positive identifier, nothing is done. -/
theorem on_eq_pure (call : ContactCall) (ex : Rest.Exchange σ) (now : Instant)
    (h : distinctPositive ids = []) : call.on (store ex now) ids = pure call.idle := by
  cases call <;> simp only [on, store, h, idle]

/-- The requests for a list of identifiers are those that are sent. -/
theorem on_sends (call : ContactCall) (ex : Rest.Exchange σ) (now : Instant) (ids : List Int) :
    Rest.Sends (call.requests ids) (call.on (store (Rest.recorded ex) now) ids) := by
  by_cases h : distinctPositive ids = []
  · rw [call.requests_eq_nil_iff.mpr h, call.on_eq_pure _ now h]
    exact .pure _
  · rw [call.requests_of_ne_nil h]
    cases call with
    | lookUp =>
        simp only [on, store]
        exact (Rest.Sends.rows ex _ _).bind fun _ => .pure _
    | archive =>
        simp only [on, store]
        exact (Rest.Sends.rows ex _ _).bind fun _ => .log _ _ _
    | delete =>
        simp only [on, store]
        exact Rest.Sends.send ex _

section Messages

variable {c : Rest.Client} {m : Rest.Message} {messages : List Rest.Message}

/-- A client that can build the request for some positive identifiers sends its one message. -/
theorem on_sends_message (call : ContactCall) (hsome : distinctPositive ids ≠ [])
    (hm : c.message (call.request (distinctPositive ids)) = .ok m) (net : Rest.Network σ)
    (now : Instant) :
    Rest.SendsMessages [m] (call.on (store (c.exchange (Rest.overheard net)) now) ids) := by
  cases call with
  | lookUp =>
      simp only [on, store]
      exact (Rest.Client.rows_send hm _).bind fun _ => .pure _
  | archive =>
      simp only [on, store]
      exact (Rest.Client.rows_send hm _).bind fun _ => .log _ _ _
  | delete =>
      simp only [on, store]
      exact Rest.Client.send_sends hm

/-- A client that can build the requests for a list of identifiers sends their messages. -/
theorem on_sends_messages (call : ContactCall)
    (h : (call.requests ids).mapM c.message = .ok messages) (net : Rest.Network σ)
    (now : Instant) :
    Rest.SendsMessages messages (call.on (store (c.exchange (Rest.overheard net)) now) ids) := by
  by_cases hnone : distinctPositive ids = []
  · rw [call.requests_eq_nil_iff.mpr hnone] at h
    obtain rfl : [] = messages := Except.ok.inj h
    rw [call.on_eq_pure _ now hnone]
    exact .pure _
  · rw [call.requests_of_ne_nil hnone, List.mapM_cons, List.mapM_nil] at h
    cases hm : c.message (call.request (distinctPositive ids)) with
    | error p =>
        rw [hm] at h
        cases h
    | ok m =>
        rw [hm] at h
        obtain rfl : [m] = messages := Except.ok.inj h
        exact call.on_sends_message hnone hm net now

end Messages

end ContactCall

/-- Of a list of identifiers, the positive ones are named, each once, in the order of their first
occurrence. There is only one such list, and it stays as it is if it is taken again. Looking up,
archiving and removing the rows of a list of contacts requests nothing exactly if none of the
identifiers is positive. Otherwise it is one request with one filter, on the contact, which is read
back as the identifiers named. A client that can build what is requested sends it and no other
message, whatever comes back. -/
theorem contacts_requested_once (ids : List Int) :
    Duplicates.FirstOccurrences (fun id => 0 < id) ids (distinctPositive ids) ∧
    (∀ others, Duplicates.FirstOccurrences (fun id => 0 < id) ids others →
      others = distinctPositive ids) ∧
    distinctPositive (distinctPositive ids) = distinctPositive ids ∧
    ∀ call : ContactCall, ∃ requests : List Rest.Request,
      (∀ {σ : Type} (ex : Rest.Exchange σ) (now : Instant),
        Rest.Sends requests (call.on (store (Rest.recorded ex) now) ids)) ∧
      (requests = [] ↔ ∀ id ∈ ids, ¬0 < id) ∧
      (requests ≠ [] → ∃ condition,
        requests = [⟨call.verb, name, [contactFilter (distinctPositive ids)], none⟩] ∧
        (contactFilter (distinctPositive ids)).pair = ("contact_id", condition) ∧
        listedIds? condition = some (distinctPositive ids)) ∧
      ∀ {σ : Type} (c : Rest.Client) (net : Rest.Network σ) (now : Instant)
        (messages : List Rest.Message), requests.mapM c.message = .ok messages →
        Rest.SendsMessages messages
          (call.on (store (c.exchange (Rest.overheard net)) now) ids) := by
  have hfirst := Duplicates.distinct_ids_in_order (fun id => 0 < id) ids
  refine ⟨hfirst, fun others hothers => hothers.unique hfirst,
    Duplicates.distinct_ids_again _ ids, fun call => ?_⟩
  refine ⟨call.requests ids, fun ex now => call.on_sends ex now ids, ?_, ?_, ?_⟩
  · exact call.requests_eq_nil_iff.trans distinct_positive_eq_nil_iff
  · intro hsome
    have hne : distinctPositive ids ≠ [] := fun h => hsome (call.requests_eq_nil_iff.mpr h)
    exact ⟨_, call.requests_of_ne_nil hne, rfl, listed_ids_contact_filter hne⟩
  · intro σ c net now messages hmessages
    exact call.on_sends_messages hmessages net now

/-- Of five identifiers, of which two are not positive and one is repeated, two are named. -/
theorem repeated_ids_requested_once :
    let client := Rest.Client.new "http://localhost" "anon"
    let removal : Rest.Request := ⟨.delete, "db_customers", [contactFilter [3, 2]], none⟩
    removal.params = [("contact_id", "in.(3,2)")] ∧ ∃ m, client.message removal = .ok m ∧
      ∀ (net : Rest.Network Unit) (now : Instant), Rest.SendsMessages [m]
        ((store (client.exchange (Rest.overheard net)) now).delete [3, 0, -1, 3, 2]) := by
  intro client removal
  obtain ⟨-, -, -, hcalls⟩ := contacts_requested_once [3, 0, -1, 3, 2]
  obtain ⟨requests, -, hnil, hone, hmessages⟩ := hcalls .delete
  have hsome : requests ≠ [] := fun h => hnil.mp h 3 List.mem_cons_self (by decide)
  obtain ⟨condition, rfl, -⟩ := hone hsome
  obtain ⟨m, hm⟩ := Rest.Client.message_of_is_ok (c := client) (r := removal) (by decide +kernel)
  refine ⟨by decide, m, hm, fun net now => hmessages client net now [m] ?_⟩
  show (client.message removal >>= fun m => pure [m]) = _
  rw [hm]
  rfl

end CustomerDedupe.CustomerTable
