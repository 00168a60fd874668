import CustomerDedupe.Customer.Store

/-!
# Running actions

What the steps of an action do to a session, one equation for each way to build an action, and
what the requests to a table in memory do to the table.
-/

namespace CustomerDedupe

namespace Action

variable {σ α β : Type}

/-- A sequence goes on with the result of its first action, and stops where that fails. -/
theorem run_bind (a : Action σ α) (f : α → Action σ β) (s : Session σ) :
    (a >>= f).run s =
      match a.run s with
      | (.ok x, after) => (f x).run after
      | (.error e, after) => (.error e, after) := by
  show ExceptT.run (ExceptT.bind a f) s = _
  unfold ExceptT.bind
  simp only [ExceptT.run, ExceptT.mk, bind, StateT.bind]
  cases a s with
  | mk r after => cases r <;> rfl

/-- An action that succeeds hands its result and session on. -/
theorem run_bind_ok {a : Action σ α} {s after : Session σ} {x : α}
    (h : a.run s = (.ok x, after)) (f : α → Action σ β) :
    (a >>= f).run s = (f x).run after := by
  rw [run_bind, h]

/-- An action that fails ends the sequence. -/
theorem run_bind_error {a : Action σ α} {s after : Session σ} {e : Failure}
    (h : a.run s = (.error e, after)) (f : α → Action σ β) :
    (a >>= f).run s = (.error e, after) := by
  rw [run_bind, h]

/-- A sequence ends as its first action has left the session, or goes on from there. -/
theorem run_bind_cases (a : Action σ α) (f : α → Action σ β) (s : Session σ) :
    (∃ e, (a >>= f).run s = (.error e, (a.run s).2)) ∨
      ∃ x, (a >>= f).run s = (f x).run (a.run s).2 := by
  rcases h : a.run s with ⟨e | x, after⟩
  · exact .inl ⟨e, run_bind_error h f⟩
  · exact .inr ⟨x, run_bind_ok h f⟩

/-- A log entry changes only the journal. -/
theorem run_log (level : Level) (source : Source) (message : String) (s : Session σ) :
    (log level source message : Action σ Unit).run s =
      (.ok (), { s with journal := .log ⟨level, source, message⟩ :: s.journal }) := rfl

/-- Doing something to the world leaves the journal. -/
theorem run_perform (f : σ → Except Failure α × σ) (s : Session σ) :
    (perform f).run s = ((f s.world).1, { s with world := (f s.world).2 }) := rfl

/-- Taking the outcome of an action does not fail. -/
theorem run_outcome {a : Action σ α} {s after : Session σ} {r : Except Failure α}
    (h : a.run s = (r, after)) : a.outcome.run s = (.ok r, after) := by
  change (Except.ok (a.run s).1, (a.run s).2) = _
  rw [h]

/-- What an action does to a world is what it does to a session with an empty journal. -/
theorem run_on_of_run {a : Action σ α} {w : σ} {r : Except Failure α} {after : Session σ}
    (h : a.run ⟨w, []⟩ = (r, after)) : runOn a w = (r, after.world) := by
  unfold runOn
  rw [h]

/-- From every world with a property an action gets to one with a property that depends on its
result, or fails in one with a third property. -/
def Ensures (P : σ → Prop) (a : Action σ α) (Q : α → σ → Prop) (E : σ → Prop) : Prop :=
  ∀ s, P s.world →
    (∀ x after, a.run s = (.ok x, after) → Q x after.world) ∧
      ∀ e after, a.run s = (.error e, after) → E after.world

namespace Ensures

variable {P P' E : σ → Prop} {Q R : α → σ → Prop} {T : β → σ → Prop} {a : Action σ α}

/-- What holds of the world afterwards, whether or not the action fails. -/
theorem world {S : σ → Prop} (h : Ensures P a (fun _ => S) S) {s : Session σ} (hs : P s.world) :
    S (a.run s).2.world := by
  rcases hrun : a.run s with ⟨e | x, after⟩
  · exact (h s hs).2 e after hrun
  · exact (h s hs).1 x after hrun

theorem pure {x : α} (h : ∀ w, P w → Q x w) : Ensures P (Pure.pure x) Q E := by
  intro s hs
  refine ⟨?_, ?_⟩
  · rintro y after ⟨⟩
    exact h _ hs
  · rintro e after ⟨⟩

theorem log {level : Level} {source : Source} {message : String} {Q : Unit → σ → Prop}
    (h : ∀ w, P w → Q () w) : Ensures P (Action.log level source message) Q E := by
  intro s hs
  refine ⟨?_, ?_⟩
  · rintro y after ⟨⟩
    exact h _ hs
  · rintro e after ⟨⟩

theorem throw {e : Failure} (h : ∀ w, P w → E w) :
    Ensures P (MonadExcept.throw e : Action σ α) Q E := by
  intro s hs
  refine ⟨?_, ?_⟩
  · rintro x after ⟨⟩
  · rintro e' after ⟨⟩
    exact h _ hs

theorem weaken (h : Ensures P a Q E) {E' : σ → Prop} (hP : ∀ w, P' w → P w)
    (hQ : ∀ x w, Q x w → R x w) (hE : ∀ w, E w → E' w) : Ensures P' a R E' := by
  intro s hs
  obtain ⟨hok, herror⟩ := h s (hP _ hs)
  exact ⟨fun x after hrun => hQ _ _ (hok x after hrun),
    fun e after hrun => hE _ (herror e after hrun)⟩

/-- What does not depend on the world is known beforehand. -/
theorem of_and {p : Prop} (h : p → Ensures P a Q E) : Ensures (fun w => P w ∧ p) a Q E :=
  fun s hs => h hs.2 s hs.1

theorem of_exists {ι : Type} {P : ι → σ → Prop} (h : ∀ i, Ensures (P i) a Q E) :
    Ensures (fun w => ∃ i, P i w) a Q E := by
  rintro s ⟨i, hs⟩
  exact h i s hs

/-- Actions after one another, each from where the one before it has got to. -/
theorem bind (ha : Ensures P a Q E) {f : α → Action σ β} (hf : ∀ x, Ensures (Q x) (f x) T E) :
    Ensures P (a >>= f) T E := by
  intro s hs
  rcases hrun : a.run s with ⟨e | x, after⟩
  · rw [run_bind_error hrun]
    refine ⟨?_, ?_⟩
    · rintro y last ⟨⟩
    · rintro e' last ⟨⟩
      exact (ha s hs).2 e after hrun
  · rw [run_bind_ok hrun]
    exact hf x after ((ha s hs).1 x after hrun)

/-- The same action for each of some values, with an invariant. -/
theorem for_each {S : σ → Prop} {f : α → Action σ PUnit} {xs : List α}
    (hf : ∀ x ∈ xs, Ensures S (f x) (fun _ => S) S) : Ensures S (xs.forM f) (fun _ => S) S := by
  induction xs with
  | nil => exact pure fun _ h => h
  | cons x xs ih =>
      exact (hf x List.mem_cons_self).bind fun _ =>
        ih fun y hy => hf y (List.mem_cons_of_mem _ hy)

end Ensures

end Action

namespace MemoryStore

/-- The table with a request noted. -/
def noted (m : MemoryStore) (call : StoreCall) : MemoryStore :=
  { m with calls := call :: m.calls }

/-- A request of a kind that is not refused is noted and served. -/
theorem serve_ok {α : Type} (call : StoreCall) (f : List Customer → α × List Customer)
    {s : Session MemoryStore} (h : s.world.failing ≠ some call.method) :
    (serve call f).run s =
      (.ok (f s.world.rows).1,
        { s with world := { s.world.noted call with rows := (f s.world.rows).2 } }) := by
  simp only [serve, Action.perform, Action.of, ExceptT.run_mk, if_neg h]
  rfl

/-- A request of the refused kind is noted and fails, and the rows stay as they are. -/
theorem serve_refused {α : Type} (call : StoreCall) (f : List Customer → α × List Customer)
    {s : Session MemoryStore} (h : s.world.failing = some call.method) :
    (serve call f).run s =
      (.error (.refused 500 (call.method.name ++ " failed")),
        { s with world := s.world.noted call }) := by
  simp only [serve, Action.perform, Action.of, ExceptT.run_mk, if_pos h]
  rfl

/-- Listing returns the rows. -/
theorem list_ok {s : Session MemoryStore} (h : s.world.failing ≠ some .list) :
    store.list.run s = (.ok s.world.rows, { s with world := s.world.noted .list }) :=
  serve_ok .list (fun rows => (rows, rows)) h

/-- Looking up contacts returns their rows. -/
theorem by_contact_ids_ok {ids : List Int} {s : Session MemoryStore}
    (h : s.world.failing ≠ some .byContactIds) :
    (store.byContactIds ids).run s =
      (.ok (Table.select ids s.world.rows),
        { s with world := s.world.noted (.byContactIds ids) }) :=
  serve_ok (.byContactIds ids) (fun rows => (Table.select ids rows, rows)) h

/-- An update replaces a row. -/
theorem update_ok {c : Customer} {s : Session MemoryStore}
    (h : s.world.failing ≠ some .update) :
    (store.update c).run s =
      (.ok (), { s with
        world := { s.world.noted (.update c) with rows := Table.replace c s.world.rows } }) :=
  serve_ok (.update c) (fun rows => ((), Table.replace c rows)) h

/-- Archiving marks the rows of the contacts. -/
theorem archive_ok {ids : List Int} {s : Session MemoryStore}
    (h : s.world.failing ≠ some .archive) :
    (store.archive ids).run s =
      (.ok (), { s with
        world := { s.world.noted (.archive ids) with rows := Table.archive ids s.world.rows } }) :=
  serve_ok (.archive ids) (fun rows => ((), Table.archive ids rows)) h

/-- A deletion removes the rows of the contacts. -/
theorem delete_ok {ids : List Int} {s : Session MemoryStore}
    (h : s.world.failing ≠ some .delete) :
    (store.delete ids).run s =
      (.ok (), { s with
        world := { s.world.noted (.delete ids) with rows := Table.delete ids s.world.rows } }) :=
  serve_ok (.delete ids) (fun rows => ((), Table.delete ids rows)) h

/-- A refused deletion leaves the rows as they are. -/
theorem delete_refused {ids : List Int} {s : Session MemoryStore}
    (h : s.world.failing = some .delete) :
    (store.delete ids).run s =
      (.error (.refused 500 "delete failed"),
        { s with world := s.world.noted (.delete ids) }) :=
  serve_refused (.delete ids) (fun rows => ((), Table.delete ids rows)) h

end MemoryStore

end CustomerDedupe
