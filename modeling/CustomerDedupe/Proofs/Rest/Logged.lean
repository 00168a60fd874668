import CustomerDedupe.Proofs.Rest.Recorded

/-!
# Requests with their answers

A logged exchange keeps each request with its answer beside the world, so that it can be told of
every request whether it has failed: by a refusal, or by an answer that is not what was asked for.
Asking for rows logs the one request and succeeds exactly if its answer is accepted
(`rows_logged_cases`).
-/

namespace CustomerDedupe.Rest

variable {σ α : Type}

/-- A request and the answer to it. -/
abbrev Answered :=
  Request × Except Failure Json.Document

/-- An exchange whose requests are kept beside the world with their answers, last first. -/
def logged (ex : Exchange σ) : Exchange (σ × List Answered) := fun r => do
  let answer ← (Action.zoom Prod.fst (fun w rest => (rest, w.2)) (ex r)).outcome
  .change fun w => (w.1, (r, answer) :: w.2)
  .ofExcept answer

/-- A logged exchange keeps the request with the answer that it gives. -/
theorem logged_answers (ex : Exchange σ) (r : Request) (s : Session (σ × List Answered)) :
    ∃ answer after, (logged ex r).run s = (answer, after) ∧
      after.world.2 = (r, answer) :: s.world.2 :=
  ⟨_, _, rfl, rfl⟩

/-- An answer is accepted if it is a document of what was asked for. -/
def Accepted (d : Json.Decoder α) (answer : Except Failure Json.Document) : Prop :=
  ∃ doc xs, answer = .ok doc ∧ doc.decode (Json.list d) = .ok xs

/-- Asking for rows logs the request and succeeds exactly if its answer is accepted. -/
theorem rows_logged_cases (ex : Exchange σ) (d : Json.Decoder α) (r : Request)
    (s : Session (σ × List Answered)) :
    ∃ outcome answer after, (rows (logged ex) d r).run s = (outcome, after) ∧
      after.world.2 = (r, answer) :: s.world.2 ∧
      ((∃ xs, outcome = .ok xs) ∧ Accepted d answer ∨
        (∃ e, outcome = .error e) ∧ ¬ Accepted d answer) := by
  obtain ⟨noted, hnoted, hworld⟩ : ∃ noted, (noteRequest r).run s = (.ok (), noted) ∧
      noted.world = s.world := ⟨_, rfl, rfl⟩
  obtain ⟨answer, after, hrun, hlog⟩ := logged_answers ex r noted
  rw [hworld] at hlog
  unfold rows
  rw [Action.run_bind_ok hnoted]
  cases answer with
  | error e =>
      rw [Action.run_bind_error hrun]
      refine ⟨_, _, _, rfl, hlog, .inr ⟨⟨e, rfl⟩, ?_⟩⟩
      rintro ⟨doc, xs, hdoc, -⟩
      cases hdoc
  | ok doc =>
      rw [Action.run_bind_ok hrun]
      cases hdecode : doc.decode (Json.list d) with
      | ok xs => exact ⟨_, _, _, rfl, hlog, .inl ⟨⟨xs, rfl⟩, doc, xs, rfl, hdecode⟩⟩
      | error e =>
          refine ⟨_, _, _, rfl, hlog, .inr ⟨⟨_, rfl⟩, ?_⟩⟩
          rintro ⟨doc', xs, hdoc, hxs⟩
          rw [← Except.ok.inj hdoc, hdecode] at hxs
          cases hxs

end CustomerDedupe.Rest
