import CustomerDedupe.Proofs.Rest.Endpoint
import CustomerDedupe.Proofs.Rest.Recorded

/-!
# The messages that a client sends

An overheard network keeps the messages beside its world, as a recorded exchange does the requests,
so that what a client has sent can be read off the session after it. A request that can be built is
one message, answered or not (`Client.exchange_sends`), and whether it can be built depends on its
table only (`Client.message_same_table`).
-/

namespace CustomerDedupe.Rest

variable {σ α : Type}

/-- A network whose messages are kept beside its world, last first. -/
def overheard (net : Network σ) : Network (σ × List Message) := fun m w =>
  let (delivery, after) := net m w.1
  (delivery, (after, m :: w.2))

/-- Whether an action succeeds or fails, it has sent exactly these messages, last first. -/
def SendsMessages (messages : List Message) (a : Action (σ × List Message) α) : Prop :=
  ∀ before, Action.Ensures (fun w => w.2 = before) a (fun _ w => w.2 = messages ++ before)
    (fun w => w.2 = messages ++ before)

namespace SendsMessages

variable {messages : List Message} {a : Action (σ × List Message) α}

/-- What has been sent, whether or not the action has failed. -/
theorem sent (h : SendsMessages messages a) (s : Session (σ × List Message)) :
    (a.run s).2.world.2 = messages ++ s.world.2 :=
  (h s.world.2).world rfl

/-- Log entries before an action are no messages. -/
theorem after_log (h : SendsMessages messages a) (level : Level) (source : Source)
    (message : String) :
    SendsMessages messages (Action.log level source message >>= fun _ => a) :=
  fun before => (Action.Ensures.log fun _ hw => hw).bind fun _ => h before

/-- What follows the messages sends none. -/
theorem bind {β : Type} {f : α → Action (σ × List Message) β} (h : SendsMessages messages a)
    (hf : ∀ x, SendsMessages [] (f x)) : SendsMessages messages (a >>= f) :=
  fun before => (h before).bind fun x => hf x (messages ++ before)

theorem pure (x : α) : SendsMessages (σ := σ) [] (Pure.pure x) :=
  fun _ => .pure fun _ hw => hw

theorem log (level : Level) (source : Source) (message : String) :
    SendsMessages (σ := σ) [] (Action.log level source message) :=
  fun _ => .log fun _ hw => hw

theorem throw (e : Failure) :
    SendsMessages [] (MonadExcept.throw e : Action (σ × List Message) α) :=
  fun _ => .throw fun _ hw => hw

end SendsMessages

namespace Client

variable {c : Client} {net : Network σ} {r r' : Request} {m : Message}

/-- What is known of a client whose request can be built: the table's address is one of the web with
a host that requests may name, and its keys can stand in headers. The message goes to this address with the request's parameters. -/
theorem message_eq_ok (h : c.message r = .ok m) :
    ∃ u, Url.read (c.tableUrl r.table) = .ok u ∧ u.hasHost = true ∧
      (u.scheme = "http".toList ∨ u.scheme = "https".toList) ∧
      u.host.all Url.Host.isUri = true ∧ isHeaderText c.anonKey = true ∧
      isHeaderText (c.accessToken.getD c.anonKey) = true ∧ m.url = u.addQuery r.params ∧
      m.method = r.verb.method ∧ m.body = r.verb.body? := by
  unfold message address at h
  cases hread : Url.read (c.tableUrl r.table) with
  | error p =>
      rw [hread] at h
      cases h
  | ok u =>
      rw [hread] at h
      dsimp only at h
      split at h
      next hhost =>
        simp only [Bind.bind, Except.bind] at h
        split at h
        next => cases h
        next hkeys =>
          split at h
          next => cases h
          next hscheme =>
            split at h
            next => cases h
            next huri =>
              obtain rfl := Except.ok.inj h
              rw [Bool.or_eq_true, not_or, Bool.not_eq_true', Bool.not_eq_true', Bool.not_eq_false,
                Bool.not_eq_false] at hkeys
              rw [Bool.not_eq_true', Bool.not_eq_false] at huri
              exact ⟨u, rfl, hhost, Decidable.or_iff_not_not_and_not.mpr hscheme, huri, hkeys.1,
                hkeys.2, rfl, rfl, rfl⟩
      next => cases h

theorem message_of_is_ok (h : (c.message r).isOk = true) : ∃ m, c.message r = .ok m := by
  cases hm : c.message r with
  | ok m => exact ⟨m, rfl⟩
  | error p =>
      rw [hm] at h
      cases h

/-- If one request to a table can be built, so can every other. -/
theorem message_same_table (h : c.message r = .ok m) (htable : r'.table = r.table) :
    ∃ m', c.message r' = .ok m' := by
  obtain ⟨u, hread, hhost, hscheme, huri, hkey, htoken, -⟩ := message_eq_ok h
  have haddress : c.address r' = .ok (u.addQuery r'.params) := by
    rw [address, htable, hread]
    exact if_pos hhost
  obtain ⟨m', hm', -⟩ := message_of_address haddress hscheme huri hkey htoken
  exact ⟨m', hm'⟩

/-- A request that can be built is one message. -/
theorem exchange_sends (h : c.message r = .ok m) :
    SendsMessages [m] (c.exchange (overheard net) r) := by
  intro before
  unfold exchange
  rw [h]
  refine Action.Ensures.bind (Q := fun _ w => w.2 = m :: before) ?_ fun delivery => ?_
  · intro s hs
    refine ⟨?_, ?_⟩
    · rintro x after ⟨⟩
      exact congrArg (m :: ·) hs
    · rintro e after ⟨⟩
  · cases delivery with
    | lost | late | overlong => exact .throw fun _ hw => hw
    | answer status body =>
        dsimp only
        split
        next => exact .pure fun _ hw => hw
        next =>
          refine Action.Ensures.bind (Q := fun _ w => w.2 = m :: before) ?_ fun _ => ?_
          · exact .log fun _ hw => hw
          · exact .throw fun _ hw => hw

/-- Asking for rows sends the one message. -/
theorem rows_send (h : c.message r = .ok m) (d : Json.Decoder α) :
    SendsMessages [m] (rows (c.exchange (overheard net)) d r) := by
  refine ((exchange_sends h).bind fun doc => ?_).after_log _ _ _
  cases doc.decode (Json.list d) with
  | error e => exact .throw _
  | ok found => exact .pure found

/-- So does a request whose answer does not matter. -/
theorem send_sends (h : c.message r = .ok m) :
    SendsMessages [m] (send (c.exchange (overheard net)) r) :=
  ((exchange_sends h).bind fun _ => .pure ()).after_log _ _ _

/-- Rows that the server answers with are those that asking for them returns. -/
theorem rows_served {d : Json.Decoder α} {w after : σ} {status : Nat} {body : List UInt8}
    {found : List α} (h : c.message r = .ok m) (hanswer : net m w = (.answer status body, after))
    (hstatus : 200 ≤ status ∧ status < 300)
    (hfound : (Json.Document.read body).decode (Json.list d) = .ok found)
    (before : List Message) (journal : List Written) :
    ∃ journal', (rows (c.exchange (overheard net)) d r).run ⟨(w, before), journal⟩ =
      (.ok found, ⟨(after, m :: before), journal'⟩) := by
  have hexchange : ∀ journal, (c.exchange (overheard net) r).run ⟨(w, before), journal⟩ =
      (.ok (.read body), ⟨(after, m :: before), journal⟩) := by
    intro journal
    have hdelivered : (Action.perform fun w =>
        let (d, w) := overheard net m w
        (.ok d, w)).run ⟨(w, before), journal⟩ =
        (.ok (.answer status body), ⟨(after, m :: before), journal⟩) := by
      rw [Action.run_perform]
      simp only [overheard, hanswer]
    have hnone : refusal? status body = none := if_pos hstatus
    unfold exchange
    rw [h]
    dsimp only
    rw [Action.run_bind_ok hdelivered]
    simp only [hnone]
    rfl
  exact ⟨_, rows_run_ok (hexchange _) hfound⟩

end Client

end CustomerDedupe.Rest
