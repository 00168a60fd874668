import CustomerDedupe.Proofs.Action
import CustomerDedupe.Rest.Request

/-!
# The requests that an action sends

A recorded exchange keeps the requests beside the world, so that what an action has sent can be
read off the session after it. `Sends` names the requests of an action that sends the same ones
whatever the answers are, and `SendsOnly` says of what kind the requests of any other action are.
Both go through sequences of actions.
-/

namespace CustomerDedupe.Rest

variable {σ α β : Type}

/-- The rows of an answer that is decoded. -/
theorem rows_run_ok {ex : Exchange σ} {r : Request} {d : Json.Decoder α} {s after : Session σ}
    {doc : Json.Document} {xs : List α}
    (hrun : (ex r).run ((noteRequest r).run s).2 = (.ok doc, after))
    (hd : doc.decode (Json.list d) = .ok xs) : (rows ex d r).run s = (.ok xs, after) := by
  have hnote : (noteRequest r).run s = (.ok (), ((noteRequest r).run s).2) := rfl
  unfold rows
  rw [Action.run_bind_ok hnote, Action.run_bind_ok hrun, hd]
  rfl

/-- An exchange whose requests are kept beside the world, last first. -/
def recorded (ex : Exchange σ) : Exchange (σ × List Request) := fun r => do
  .change fun w => (w.1, r :: w.2)
  .zoom Prod.fst (fun w rest => (rest, w.2)) (ex r)

/-- A recorded exchange answers as the exchange does and keeps the request, answered or not. -/
theorem recorded_run (ex : Exchange σ) (r : Request) (w : σ) (before : List Request)
    (journal : List Written) :
    (recorded ex r).run ⟨(w, before), journal⟩ =
      let (answer, after) := (ex r).run ⟨w, journal⟩
      (answer, ⟨(after.world, r :: before), after.journal⟩) := rfl

/-- The requests kept so far, last first. -/
def sent (s : Session (σ × List Request)) : List Request :=
  s.world.2

/-- An action sends exactly these requests, last first, whether it succeeds or fails. -/
def Sends (requests : List Request) (a : Action (σ × List Request) α) : Prop :=
  ∀ s, sent (a.run s).2 = requests ++ sent s

/-- An action sends only requests of some kind. -/
def SendsOnly (kind : Request → Prop) (a : Action (σ × List Request) α) : Prop :=
  ∀ s, ∃ requests, sent (a.run s).2 = requests ++ sent s ∧ ∀ r ∈ requests, kind r

namespace Sends

variable {requests : List Request} {a : Action (σ × List Request) α}

theorem pure (x : α) : Sends (σ := σ) [] (pure x) := fun _ => rfl

theorem throw (e : Failure) : Sends (σ := σ) (α := α) [] (throw e) := fun _ => rfl

theorem log (level : Level) (source : Source) (message : String) :
    Sends (σ := σ) [] (Action.log level source message) := fun _ => rfl

theorem request (ex : Exchange σ) (r : Request) : Sends [r] (recorded ex r) := fun _ => rfl

/-- Log entries before an action are no requests. -/
theorem after_log (ha : Sends requests a) (level : Level) (source : Source) (message : String) :
    Sends requests (Action.log level source message >>= fun _ => a) := by
  intro s
  rw [Action.run_bind_ok (Action.run_log level source message s), ha]
  rfl

/-- What follows the requests sends none. -/
theorem bind {f : α → Action (σ × List Request) β} (ha : Sends requests a)
    (hf : ∀ x, Sends [] (f x)) : Sends requests (a >>= f) := by
  intro s
  rcases Action.run_bind_cases a f s with ⟨e, h⟩ | ⟨x, h⟩ <;> rw [h]
  · exact ha s
  · exact (hf x _).trans (ha s)

/-- Asking for rows sends the one request. -/
theorem rows (ex : Exchange σ) (d : Json.Decoder α) (r : Request) :
    Sends [r] (rows (recorded ex) d r) := by
  refine after_log ((request ex r).bind ?_) _ _ _
  intro doc
  cases doc.decode (Json.list d)
  · exact throw _
  · exact pure _

/-- A request whose answer does not matter is one request. -/
theorem send (ex : Exchange σ) (r : Request) : Sends [r] (send (recorded ex) r) :=
  after_log ((request ex r).bind fun _ => pure ()) _ _ _

/-- Requests of some kind. -/
theorem only {kind : Request → Prop} (ha : Sends requests a) (h : ∀ r ∈ requests, kind r) :
    SendsOnly kind a :=
  fun s => ⟨requests, ha s, h⟩

end Sends

namespace SendsOnly

variable {kind : Request → Prop} {a : Action (σ × List Request) α}
  {f : α → Action (σ × List Request) β}

/-- Requests of a kind after given ones. -/
theorem after {requests : List Request} (ha : Sends requests a) (hf : ∀ x, SendsOnly kind (f x))
    (s : Session (σ × List Request)) :
    ∃ more, sent ((a >>= f).run s).2 = more ++ (requests ++ sent s) ∧ ∀ r ∈ more, kind r := by
  rw [← ha s]
  -- where the first action fails, what it has sent is all
  rcases Action.run_bind_cases a f s with ⟨e, h⟩ | ⟨x, h⟩ <;> rw [h]
  · exact ⟨[], rfl, nofun⟩
  · exact hf x _

/-- Two actions after one another. -/
theorem bind (ha : SendsOnly kind a) (hf : ∀ x, SendsOnly kind (f x)) :
    SendsOnly kind (a >>= f) := by
  intro s
  obtain ⟨first, hs, hfirst⟩ := ha s
  rcases Action.run_bind_cases a f s with ⟨e, h⟩ | ⟨x, h⟩ <;> rw [h]
  · exact ⟨first, hs, hfirst⟩
  · obtain ⟨second, hsecond, hkind⟩ := hf x (a.run s).2
    refine ⟨second ++ first, ?_, ?_⟩
    · rw [hsecond, hs, List.append_assoc]
    · intro r hr
      exact (List.mem_append.mp hr).elim (hkind r) (hfirst r)

end SendsOnly

/-- Rows that the exchange answers with are those that asking for them returns. -/
theorem rows_answered {ex : Exchange σ} {d : Json.Decoder α} {r : Request} {w : σ}
    {doc : Json.Document} {found : List α}
    (hanswer : ∀ journal, ((ex r).run ⟨w, journal⟩).1 = .ok doc)
    (hfound : doc.decode (Json.list d) = .ok found) (before : List Request)
    (journal : List Written) :
    ∃ after, (rows (recorded ex) d r).run ⟨(w, before), journal⟩ = (.ok found, after) ∧
      sent after = r :: before := by
  have hrun : ∀ journal, (recorded ex r).run ⟨(w, before), journal⟩ =
      (.ok doc, ((recorded ex r).run ⟨(w, before), journal⟩).2) := by
    intro journal
    refine Prod.ext ?_ rfl
    rw [recorded_run]
    exact hanswer journal
  have hrows : ((rows (recorded ex) d r).run ⟨(w, before), journal⟩).1 = .ok found := by
    unfold rows noteRequest
    rw [Action.run_bind_ok (Action.run_log _ _ _ _), Action.run_bind_ok (hrun _)]
    simp only [hfound]
    rfl
  exact ⟨_, Prod.ext hrows rfl, Sends.rows ex d r ⟨(w, before), journal⟩⟩

end CustomerDedupe.Rest
