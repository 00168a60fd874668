import CustomerDedupe.Proofs.Monitor.Kept

/-!
# Interleavings

A monitor whose evaluations are taken apart at what they wait for. Between any two moves of the
worker the settings may change, time may pass, and evaluations that somebody has asked for may
begin or go on. `Scene.after` is one move and `Scene.run` a sequence of them; `Step` lists what a
move can do. What the program does when it lets the worker go on is one of these sequences
(`settle_runs`).
-/

namespace CustomerDedupe.Monitor

/-- What an evaluation has waited for. -/
inductive Answer where
  | scanned (r : Except Failure Nat)
  | posted (r : Except Failure Unit)
  | stored

/-- An evaluation gets what it has waited for: the stage it goes on to, and the count notified
last. -/
def Stage.receive (k : Nat) : Stage → Answer → Option (Stage × Nat)
  | .scanning s, .scanned r => some (.afterScan s k r, k)
  | .posting _ n, .posted r => some (.afterPost n r, k)
  | .storing n, .stored => some (.done (.ok (.notified n)), n)
  | _, _ => none

/-- A monitor, and the evaluations that somebody has asked for, in order. -/
structure Scene where
  monitor : Monitor
  asked : List Stage

inductive Move where
  | update (change : Settings → Settings)
  | wait (seconds : Nat)
  | start
  /-- The worker takes a step that needs nothing from outside. -/
  | work
  /-- The timer and a change that the worker has not seen are both there, and the worker takes
  the timer. -/
  | overtake
  /-- The worker's evaluation gets an answer. -/
  | tick (answer : Answer)
  /-- An evaluation is asked for. -/
  | ask
  /-- An evaluation that was asked for gets an answer. -/
  | reply (i : Nat) (answer : Answer)

/-- The worker takes the timer although it has not seen the latest settings. -/
def overtaken? (m : Monitor) : Option Monitor :=
  match m.worker with
  | some ⟨seen, .armed due⟩ =>
    if seen ≠ m.hub.version ∧ due ≤ m.clock then
      some { m with worker := some ⟨seen, .evaluating (.start m.hub.current)⟩ }
    else none
  | _ => none

namespace Scene

/-- A monitor that has not been started. -/
def new (hub : SettingsHub) : Scene :=
  ⟨.new hub, []⟩

/-- A scene after a move, if the move is possible. -/
def after (a : Scene) : Move → Option Scene
  | .update change => some { a with monitor := a.monitor.changed change }
  | .wait seconds => some { a with monitor := { a.monitor with clock := a.monitor.clock + seconds } }
  | .start => some { a with monitor := a.monitor.started }
  | .work => do
    let m ← a.monitor.next?
    pure { a with monitor := m }
  | .overtake => do
    let m ← a.monitor.overtaken?
    pure { a with monitor := m }
  | .tick answer => do
    let stage ← a.monitor.pending?
    let (next, k) ← stage.receive a.monitor.lastCount answer
    pure { a with monitor := { a.monitor with lastCount := k }.withStage next }
  | .ask => some { a with asked := a.asked ++ [.start a.monitor.hub.current] }
  | .reply i answer => do
    let stage ← a.asked[i]?
    let (next, k) ← stage.receive a.monitor.lastCount answer
    pure ⟨{ a.monitor with lastCount := k }, a.asked.set i next⟩

/-- A scene after some moves, if they are possible. -/
def run : List Move → Scene → Option Scene
  | [], a => some a
  | move :: moves, a => a.after move >>= run moves

end Scene

/-- What a step that the worker takes by itself does. -/
inductive Next (m : Monitor) : Monitor → Prop
  | looked {seen : Nat} (hworker : m.worker = some ⟨seen, .fresh⟩) : Next m m.rearmed
  | noticed {seen : Nat} {phase : Phase} (hworker : m.worker = some ⟨seen, phase⟩)
      (hwaits : phase.Waits) (hseen : seen ≠ m.hub.version) :
      Next m { m with lastCount := 0, worker := some ⟨seen, .fresh⟩ }
  | fired {seen due : Nat} (hworker : m.worker = some ⟨seen, .armed due⟩)
      (hseen : seen = m.hub.version) (hdue : due ≤ m.clock) :
      Next m { m with worker := some ⟨seen, .evaluating (.start m.hub.current)⟩ }
  | ended {seen : Nat} {r : Except Failure TickOutcome}
      (hworker : m.worker = some ⟨seen, .evaluating (.done r)⟩) :
      Next m { m with worker := some ⟨seen, .fresh⟩ }

/-- The worker takes no other steps by itself. -/
theorem next_of_eq_some {m m' : Monitor} (h : m.next? = some m') : Next m m' := by
  cases hworker : m.worker with
  | none => simp only [next?, hworker, reduceCtorEq] at h
  | some w =>
      obtain ⟨seen, phase⟩ := w
      cases phase with
      | fresh =>
          obtain rfl := Option.some.inj ((next_of_fresh hworker).symm.trans h)
          exact .looked hworker
      | dormant =>
          simp only [next?, hworker] at h
          split at h
          next => simp at h
          next hseen =>
            obtain rfl := Option.some.inj h
            exact .noticed hworker (.inl rfl) hseen
      | armed due =>
          simp only [next?, hworker] at h
          split at h
          next hseen =>
            obtain rfl := Option.some.inj h
            exact .noticed hworker (.inr ⟨due, rfl⟩) hseen
          next hseen =>
            split at h
            next hdue =>
              obtain rfl := Option.some.inj h
              exact .fired hworker (Decidable.not_not.mp hseen) hdue
            next => simp at h
      | evaluating stage =>
          simp only [next?, hworker] at h
          cases stage with
          | done r =>
              obtain rfl := Option.some.inj h
              exact .ended hworker
          | scanning _ | posting _ _ | storing _ => simp at h

/-- An evaluation that is under way is not over. -/
theorem pending_eq_some {m : Monitor} {stage : Stage} (h : m.pending? = some stage) :
    (∃ seen, m.worker = some ⟨seen, .evaluating stage⟩) ∧ 0 < stage.rank := by
  unfold pending? at h
  split at h
  next => simp at h
  next seen stage' hdone hworker =>
    obtain rfl := Option.some.inj h
    refine ⟨⟨seen, hworker⟩, stage'.done_or_rank_pos.resolve_left ?_⟩
    rintro ⟨r, rfl⟩
    exact hdone r rfl
  next => simp at h

/-- What a move does. -/
inductive Step (a : Scene) : Move → Scene → Prop
  | updated (change : Settings → Settings) :
      Step a (.update change) { a with monitor := a.monitor.changed change }
  | waited (seconds : Nat) :
      Step a (.wait seconds)
        { a with monitor := { a.monitor with clock := a.monitor.clock + seconds } }
  | started : Step a .start { a with monitor := a.monitor.started }
  | worked {m : Monitor} (h : Next a.monitor m) : Step a .work { a with monitor := m }
  | overtook {seen due : Nat} (hworker : a.monitor.worker = some ⟨seen, .armed due⟩) :
      Step a .overtake { a with
        monitor := { a.monitor with
          worker := some ⟨seen, .evaluating (.start a.monitor.hub.current)⟩ } }
  | ticked {answer : Answer} {seen k : Nat} {stage next : Stage}
      (hworker : a.monitor.worker = some ⟨seen, .evaluating stage⟩)
      (h : stage.receive a.monitor.lastCount answer = some (next, k)) :
      Step a (.tick answer) { a with
        monitor := { a.monitor with lastCount := k, worker := some ⟨seen, .evaluating next⟩ } }
  | asked : Step a .ask { a with asked := a.asked ++ [.start a.monitor.hub.current] }
  | replied {i k : Nat} {answer : Answer} {stage next : Stage} (hi : a.asked[i]? = some stage)
      (h : stage.receive a.monitor.lastCount answer = some (next, k)) :
      Step a (.reply i answer) ⟨{ a.monitor with lastCount := k }, a.asked.set i next⟩

/-- A move does nothing else. -/
theorem step_of_after {a b : Scene} {move : Move} (h : a.after move = some b) : Step a move b := by
  cases move with
  | update change =>
      obtain rfl := Option.some.inj h
      exact .updated change
  | wait seconds =>
      obtain rfl := Option.some.inj h
      exact .waited seconds
  | start =>
      obtain rfl := Option.some.inj h
      exact .started
  | work =>
      obtain ⟨m, hm, hb⟩ := Option.bind_eq_some_iff.mp h
      obtain rfl := Option.some.inj hb
      exact .worked (next_of_eq_some hm)
  | overtake =>
      obtain ⟨m, hm, hb⟩ := Option.bind_eq_some_iff.mp h
      obtain rfl := Option.some.inj hb
      unfold overtaken? at hm
      split at hm
      next seen due hworker =>
        split at hm
        next =>
          obtain rfl := Option.some.inj hm
          exact .overtook hworker
        next => simp at hm
      next => simp at hm
  | tick answer =>
      obtain ⟨stage, hstage, h⟩ := Option.bind_eq_some_iff.mp h
      obtain ⟨⟨next, k⟩, hreceive, hb⟩ := Option.bind_eq_some_iff.mp h
      obtain ⟨⟨seen, hworker⟩, -⟩ := pending_eq_some hstage
      obtain rfl := Option.some.inj hb
      have hstep := Step.ticked hworker hreceive
      simpa only [withStage, hworker, Option.map_some] using hstep
  | ask =>
      obtain rfl := Option.some.inj h
      exact .asked
  | reply i answer =>
      obtain ⟨stage, hstage, h⟩ := Option.bind_eq_some_iff.mp h
      obtain ⟨⟨next, k⟩, hreceive, hb⟩ := Option.bind_eq_some_iff.mp h
      obtain rfl := Option.some.inj hb
      exact .replied hstage hreceive

/-- What every move keeps is kept by moves one after another. -/
theorem run_preserves {P : Scene → Prop} {moves : List Move}
    (hstep : ∀ a b move, move ∈ moves → Step a move b → P a → P b) {a b : Scene} (ha : P a)
    (hrun : Scene.run moves a = some b) : P b := by
  induction moves generalizing a with
  | nil =>
      obtain rfl := Option.some.inj hrun
      exact ha
  | cons move moves ih =>
      obtain ⟨c, hc, hrest⟩ := Option.bind_eq_some_iff.mp hrun
      exact ih (fun a b move' hmem => hstep a b move' (List.mem_cons_of_mem _ hmem))
        (hstep a c move List.mem_cons_self (step_of_after hc) ha) hrest

/-! ## The worker by itself -/

theorem Scene.run_cons {a b : Scene} {move : Move} (h : a.after move = some b)
    (moves : List Move) : Scene.run (move :: moves) a = Scene.run moves b := by
  rw [Scene.run, h]
  rfl

theorem Scene.after_work {a : Scene} {m : Monitor} (h : a.monitor.next? = some m) :
    a.after .work = some { a with monitor := m } := by
  rw [Scene.after, h]
  rfl

theorem Scene.after_tick {a : Scene} {answer : Answer} {seen k : Nat} {stage next : Stage}
    (hworker : a.monitor.worker = some ⟨seen, .evaluating stage⟩) (hwaits : 0 < stage.rank)
    (h : stage.receive a.monitor.lastCount answer = some (next, k)) :
    a.after (.tick answer) = some { a with
      monitor := { a.monitor with lastCount := k, worker := some ⟨seen, .evaluating next⟩ } } := by
  have hpending := (next_eq_none_of_evaluating hworker hwaits).2
  simp only [Scene.after, hpending, h, withStage, hworker, Option.map_some, Option.bind_eq_bind,
    Option.bind_some, Option.pure_def]

/-- A step of an evaluation is one of its answers. -/
theorem receive_of_step {moment : Moment} {stage next : Stage} {k k' : Nat} {signal : Signal}
    (h : stage.Step moment k signal next k') : ∃ answer, stage.receive k answer = some (next, k') := by
  cases h with
  | scanned s k answer => exact ⟨.scanned answer, rfl⟩
  | posted s n k answer => exact ⟨.posted answer, rfl⟩
  | stored n k => exact ⟨.stored, rfl⟩

/-- Letting the worker do what is ready is a sequence of its moves. -/
theorem settle_runs {σ : Type} (out : Outside σ) (moment : Moment) (fuel : Nat) (s : Watch σ)
    (asked : List Stage) : ∃ moves m log,
      (∀ move ∈ moves, move = .work ∨ ∃ answer, move = .tick answer) ∧
      Scene.run moves ⟨s.world.monitor, asked⟩ = some ⟨m, asked⟩ ∧
      Leaves (settle out.recorded moment fuel) s (.ok ()) m log := by
  induction fuel generalizing s with
  | zero => exact ⟨[], _, _, by simp, rfl, Leaves.pure () s⟩
  | succ fuel ih =>
      cases hnext : s.world.monitor.next? with
      | some next =>
          obtain ⟨t, hm, -, hgo⟩ := settle_next out moment fuel hnext
          obtain ⟨moves, m, log, hmoves, hrun, hleaves⟩ := ih t
          refine ⟨.work :: moves, m, log, ?_, ?_, hgo hleaves⟩
          · exact List.forall_mem_cons.mpr ⟨.inl rfl, hmoves⟩
          · rw [hm] at hrun
            exact (Scene.run_cons (Scene.after_work hnext) moves).trans hrun
      | none =>
          cases hpending : s.world.monitor.pending? with
          | none => exact ⟨[], _, _, by simp, rfl, settle_rest out moment _ hnext hpending⟩
          | some stage =>
              obtain ⟨⟨seen, hworker⟩, hwaits⟩ := pending_eq_some hpending
              obtain ⟨signal, next, k, hstep, t, hm, -, hgo⟩ :=
                settle_pending out moment fuel hworker hwaits
              obtain ⟨answer, hreceive⟩ := receive_of_step hstep
              obtain ⟨moves, m, log, hmoves, hrun, hleaves⟩ := ih t
              refine ⟨.tick answer :: moves, m, log, ?_, ?_, hgo hleaves⟩
              · exact List.forall_mem_cons.mpr ⟨.inr ⟨answer, rfl⟩, hmoves⟩
              · rw [hm] at hrun
                exact (Scene.run_cons (Scene.after_tick hworker hwaits hreceive) moves).trans hrun

end CustomerDedupe.Monitor
