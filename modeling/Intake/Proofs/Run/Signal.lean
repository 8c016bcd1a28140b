import Intake.Proofs.Run.Stops
import Mathlib.Logic.Function.Basic

/-! The signal of release. Each run has a signal of its own, which is down exactly while the run is
paused. A run that is held before a row waits for that signal and for no other, its wait is never over
before it began, and whoever lets the run go on gives the signal, so that no wait outlasts its cause. -/
namespace Intake

structure Wait where
  signal : Nat
  /-- whether it is over -/
  past : Bool
  deriving DecidableEq

structure Watch where
  engine : Engine
  /-- the signal that is the engine's at present -/
  own : Nat
  /-- which signals are up -/
  up : Nat → Bool
  /-- what a run waits for that is held before a row -/
  wait? : Option Wait

namespace Watch

inductive Call
  | start (job : Job) (row : Int)
  | move (move : Move)

def Call.isStep : Call → Bool
  | .start .. => false
  | .move next => next.isStep

def of (engine : Engine) : Watch := ⟨engine, 0, fun _ => true, none⟩

def give (w : Watch) : Watch :=
  if w.up w.own then w
  else { w with
    up := Function.update w.up w.own true
    wait? := w.wait?.map fun wait => if wait.signal = w.own then { wait with past := true } else wait }

def clear (w : Watch) : Watch := { w with up := Function.update w.up w.own false }

def renew (w : Watch) : Watch :=
  { w with own := w.own + 1, up := Function.update w.up (w.own + 1) true }

def follow (w : Watch) (e : Engine) : Watch :=
  match e.stage with
  | .release .. => { w with engine := e, wait? := some ⟨w.own, w.up w.own⟩ }
  | stage =>
    let w := { w with engine := e, wait? := none }
    if stage.isUnderway then w else w.give

def start (w : Watch) (job : Job) (row : Int) : Watch :=
  match w.engine.start job row with
  | (.error _, e) => { w with engine := e }
  | (.ok (), e) => w.renew.follow e

def operate (w : Watch) (action : Action) : Watch :=
  let (changed, e) := w.engine.operate action
  let w := { w with engine := e }
  match changed, action with
  | false, _ => w
  | true, .pause => w.clear
  | true, .resume | true, .cancel => w.give

def move (w : Watch) (move : Move) : Watch :=
  match move, w.engine.stage with
  | .operate action, _ => w.operate action
  | .proceed, .release row stop => w.follow (w.engine.walk row stop)
  | move, stage =>
    if move.isStep && stage.isUnderway then w.follow (w.engine.move move)
    else { w with engine := w.engine.move move }

def step (w : Watch) : Call → Watch
  | .start job row => w.start job row
  | .move move => w.move move

def admits (w : Watch) : Call → Bool
  | .start .. => true
  | .move move =>
    match move, w.engine.stage with
    | .proceed, .release .. => w.wait?.any (·.past)
    | move, _ => w.engine.admits move

def releases (w : Watch) : Call → Bool
  | .move (.operate .resume) => (w.engine.operate .resume).1
  | .move (.operate .cancel) => (w.engine.operate .cancel).1
  | _ => false

abbrev Calls (w : Watch) : List Call → Watch → Prop := Reaches admits step w

variable {w : Watch}

structure Attuned (w : Watch) : Prop where
  tells : w.engine.Tells
  own : w.up w.own = w.engine.released
  signal : w.engine.released = true ↔ w.engine.state.status ≠ .paused
  held : ∀ row stop, w.engine.stage = .release row stop → row < stop ∧ w.wait?.isSome = true
  waits : ∀ wait, w.wait? = some wait → wait.signal = w.own ∧
    (wait.past = false → w.engine.state.status = .paused) ∧
    ∃ row stop, w.engine.stage = .release row stop

theorem give_fields (w : Watch) :
    w.give.engine = w.engine ∧ w.give.own = w.own ∧ w.give.up w.own = true ∧
      w.give.wait? = if w.up w.own then w.wait? else w.wait?.map fun wait =>
        if wait.signal = w.own then { wait with past := true } else wait := by
  unfold give
  split_ifs with up
  · exact ⟨rfl, rfl, up, rfl⟩
  · exact ⟨rfl, rfl, Function.update_self .., rfl⟩

/-- A signal is given whatever the engine does. -/
theorem give_with_engine (w : Watch) (e : Engine) :
    ({ w with engine := e }).give = { w.give with engine := e } := by
  unfold give
  dsimp only
  split_ifs <;> rfl

theorem follow_engine (w : Watch) (e : Engine) : (w.follow e).engine = e := by
  unfold follow
  split
  · rfl
  · dsimp only
    split_ifs
    · rfl
    · exact (give_fields _).1

theorem start_engine (w : Watch) (job : Job) (row : Int) :
    (w.start job row).engine = (w.engine.start job row).2 := by
  unfold start
  generalize w.engine.start job row = answered
  obtain ⟨_ | _, e⟩ := answered
  · rfl
  · exact follow_engine _ _

/-- A run begins to wait only while it is paused, and it waits for the signal that the engine has. -/
theorem wait_follow {e e' : Engine} (stops : e.Stops e') {wait : Wait}
    (waits : (w.follow e').wait? = some wait) :
    wait = ⟨w.own, w.up w.own⟩ ∧ e.state.status = .paused := by
  unfold follow at waits
  split at waits
  · rename_i row stop stage
    refine ⟨(Option.some.inj waits).symm, ?_⟩
    rw [← stops.status (by rw [stage]; rfl)]
    exact (stops.held row stop stage).2
  · unfold give at waits
    dsimp only [Option.map_none] at waits
    split_ifs at waits

/-- What a move does, in four cases: an operator acts, a run that was held goes on, a run that was not
held takes a step, or nothing becomes of the run. -/
theorem move_cases (w : Watch) {move : Move} (admitted : w.admits (.move move) = true) :
    (∃ action, move = .operate action) ∨
    (∃ row stop wait, move = .proceed ∧ w.engine.stage = .release row stop ∧ w.wait? = some wait ∧
      wait.past = true ∧ w.move move = w.follow (w.engine.walk row stop)) ∨
    (move.isStep = true ∧ w.engine.stage.isUnderway = true ∧ w.engine.admits move = true ∧
      w.move move = w.follow (w.engine.move move)) ∨
    ((∀ action, move ≠ .operate action) ∧ (move.isStep = true → w.engine.stage.isUnderway = false) ∧
      w.move move = { w with engine := w.engine.move move } ∧
      (w.engine.move move).released = w.engine.released ∧
      (w.engine.move move).state.status = w.engine.state.status ∧
      ((w.engine.move move).stage = w.engine.stage ∨
        w.engine.stage = .finalNotice ∧ ∃ outcome, (w.engine.move move).stage = .ended outcome)) := by
  by_cases held : move = .proceed ∧ ∃ row stop, w.engine.stage = .release row stop
  · obtain ⟨rfl, row, stop, held⟩ := held
    simp only [admits, held, Option.any_eq_true] at admitted
    obtain ⟨wait, waits, past⟩ := admitted
    exact .inr (.inl ⟨row, stop, wait, rfl, held, waits, past, by simp only [Watch.move, held]⟩)
  · have known : w.engine.admits move = true := by
      unfold admits at admitted
      dsimp only at admitted
      split at admitted
      · rename_i row stop stage
        exact absurd ⟨rfl, row, stop, stage⟩ held
      · exact admitted
    by_cases operates : ∃ action, move = .operate action
    · exact .inl operates
    · have plain : w.move move = if move.isStep && w.engine.stage.isUnderway
          then w.follow (w.engine.move move) else { w with engine := w.engine.move move } := by
        unfold Watch.move
        split
        · exact absurd ⟨_, rfl⟩ operates
        · rename_i row stop stage
          exact absurd ⟨rfl, row, stop, stage⟩ held
        · rfl
      split_ifs at plain with step
      · rw [Bool.and_eq_true] at step
        exact .inr (.inr (.inl ⟨step.1, step.2, known, plain⟩))
      · rw [Bool.and_eq_true, not_and, Bool.not_eq_true] at step
        refine .inr (.inr (.inr ⟨fun action acts => operates ⟨action, acts⟩, step, plain, ?_⟩))
        cases move with
        | save => simp [Engine.move]
        | tick now => exact ⟨rfl, rfl, .inl rfl⟩
        | operate action => exact absurd ⟨action, rfl⟩ operates
        | acknowledge failure? =>
          cases stage : w.engine.stage <;>
            simp only [Engine.admits, stage, Bool.false_eq_true] at known <;>
            simp only [stage, Stage.isUnderway, Move.isStep, forall_const, Bool.true_eq_false] at step
          cases failure? <;>
            exact ⟨by simp [Engine.move, Engine.acknowledge, stage],
              by simp [Engine.move, Engine.acknowledge, stage],
              .inr ⟨rfl, _, by simp [Engine.move, Engine.acknowledge, stage]; rfl⟩⟩
        | answer | proceed | interrupt =>
          cases stage : w.engine.stage <;>
            simp_all [Engine.admits, Stage.isUnderway, Move.isStep]

/-- What an operator does: nothing changes, or the run is paused and the signal taken down, or the run
is let go and the signal given. -/
theorem operate_cases {action : Action} {changed : Bool} {e : Engine}
    (answered : w.engine.operate action = (changed, e)) :
    (changed = false ∧ e.state.status = w.engine.state.status ∧
        w.operate action = { w with engine := e }) ∨
      (action = .pause ∧ e.state.status = .paused ∧ w.operate action = { w.clear with engine := e }) ∨
      (action ≠ .pause ∧ e.state.status ≠ .paused ∧
        w.operate action = { w.give with engine := e }) := by
  have changes := w.engine.operate_changes action
  have status := congrArg RunState.status (w.engine.operate_fields action).2.2.2.1
  unfold Watch.operate
  rw [answered] at changes status ⊢
  dsimp only at *
  cases changed with
  | false =>
    refine .inl ⟨rfl, ?_, rfl⟩
    by_contra other
    exact Bool.false_ne_true (changes.mpr (status ▸ other))
  | true =>
    have other := changes.mp rfl
    cases action with
    | pause =>
      refine .inr (.inl ⟨rfl, ?_, rfl⟩)
      rw [status]
      cases before : w.engine.state.status <;> simp_all [Action.on]
    | resume | cancel =>
      refine .inr (.inr ⟨by simp, ?_, give_with_engine w e⟩)
      rw [status]
      cases before : w.engine.state.status <;> simp_all [Action.on]

/-- What a run comes to next keeps it attuned to its signal. -/
theorem attuned_follow {e e' : Engine} (own : w.up w.own = e.released)
    (signal : e.released = true ↔ e.state.status ≠ .paused) (stops : e.Stops e') (tells : e'.Tells) :
    (w.follow e').Attuned := by
  obtain ⟨released, status, held⟩ := stops
  by_cases underway : e'.stage.isUnderway = true
  · have same : e'.released = e.released := by simp [released, underway]
    have signal' : e'.released = true ↔ e'.state.status ≠ .paused := by rwa [same, status underway]
    unfold follow
    split
    · rename_i row stop stage
      obtain ⟨inside, paused⟩ := held row stop stage
      refine ⟨tells, own.trans same.symm, signal', ?_, ?_⟩
      · exact fun _ _ here => ⟨(held _ _ here).1, rfl⟩
      · rintro _ ⟨⟩
        exact ⟨rfl, fun _ => paused, row, stop, stage⟩
    · rename_i elsewhere
      simp only [underway, if_true]
      exact ⟨tells, own.trans same.symm, signal', fun row stop here => absurd here (elsewhere row stop),
        nofun⟩
  · have past : e'.state.status ≠ .paused := by
      intro paused
      rw [Engine.Tells, paused] at tells
      exact underway tells.symm
    have elsewhere : ∀ row stop, e'.stage ≠ .release row stop := by
      intro row stop here
      exact underway (by rw [here]; rfl)
    have given : w.follow e' = { w with engine := e', wait? := none }.give := by
      unfold follow
      split
      · rename_i row stop here
        exact absurd here (elsewhere row stop)
      · simp only [underway, if_false, Bool.false_eq_true]
    obtain ⟨engine, same, up, waits⟩ := give_fields { w with engine := e', wait? := none }
    rw [given]
    refine ⟨?_, ?_, ?_, ?_, ?_⟩
    · rwa [engine]
    · rw [same, up, engine]
      simp [released, underway]
    · simp [engine, released, underway, past]
    · rw [engine]
      exact fun row stop here => absurd here (elsewhere row stop)
    · simp [waits]

theorem attuned_of (workspace : Text) (batchSize : Nat) (positive : 0 < batchSize)
    (store : ProgressStore) : (of (.of workspace batchSize positive store)).Attuned :=
  ⟨rfl, rfl, by simp [of, Engine.of, RunState.initial], nofun, nofun⟩

namespace Attuned

/-- A run that waits is active. -/
theorem active (attuned : w.Attuned) {row stop : Nat} (held : w.engine.stage = .release row stop) :
    w.engine.state.status.isActive = true := by
  rw [attuned.tells, held]
  rfl

/-- While the signal is up no wait is left that is not over. -/
theorem past_of_released (attuned : w.Attuned) (released : w.engine.released = true) {wait : Wait}
    (waits : w.wait? = some wait) : wait.past = true := by
  by_contra lasting
  exact attuned.signal.mp released ((attuned.waits wait waits).2.1 (by simpa using lasting))

/-- Whoever lets a run go on ends its wait. -/
theorem wait_give (attuned : w.Attuned) :
    w.give.wait? = w.wait?.map fun wait => { wait with past := true } := by
  rw [(give_fields w).2.2.2]
  cases waits : w.wait? with
  | none => simp
  | some wait =>
    split_ifs with up
    · simp [← attuned.past_of_released (attuned.own ▸ up) waits]
    · simp [(attuned.waits wait waits).1]

/-- A start replaces the signal only where no run waits for it. -/
theorem start (attuned : w.Attuned) (job : Job) (row : Int) : (w.start job row).Attuned := by
  obtain ⟨_, started⟩ | ⟨idle, error, _, started⟩ | ⟨_, _, _, e₀, _, begun, started⟩ :=
    w.engine.start_cases job row
  · rw [Watch.start, started]
    exact attuned
  · have other : w.engine.state.status ≠ .paused := by
      intro paused
      simp [paused, Status.isActive] at idle
    rw [Watch.start, started]
    refine ⟨idle.symm.trans attuned.tells, attuned.own, ?_, attuned.held, fun wait waits => ?_⟩
    · exact iff_of_true (attuned.signal.mpr other) Status.noConfusion
    · obtain ⟨_, _, row, stop, held⟩ := attuned.waits wait waits
      rw [attuned.active held] at idle
      cases idle
  · rw [Watch.start, started]
    refine attuned_follow (e := e₀) ?_ ?_ (.nextBatch e₀) ?_
    · simp [renew, begun.released]
    · simp [begun.released, begun.state, Engine.reset]
    · exact Engine.tells_nextBatch (by simp [begun.state, Engine.reset, Status.isActive])

/-- An operator's action gives the signal or takes it down as it changes the status. -/
theorem operate (attuned : w.Attuned) (action : Action) : (w.operate action).Attuned := by
  have tells := attuned.tells.move (.operate action)
  have signal := Engine.operate_released attuned.signal action
  obtain ⟨_, _, _, _, stage, _⟩ := w.engine.operate_fields action
  rw [Engine.move] at tells
  rcases answered : w.engine.operate action with ⟨changed, e⟩
  rw [answered] at tells signal stage
  dsimp only at tells signal stage
  have kept : ∀ row stop, e.stage = .release row stop → row < stop ∧ w.wait?.isSome = true :=
    stage ▸ attuned.held
  obtain ⟨_, same, operated⟩ | ⟨_, paused, operated⟩ | ⟨_, free, operated⟩ :=
    operate_cases answered <;> rw [operated]
  · refine ⟨tells, ?_, signal, kept, ?_⟩
    · rw [Bool.eq_iff_iff, signal, same, ← attuned.signal, ← attuned.own]
    · rw [stage, same]
      exact attuned.waits
  · have lowered : e.released = false := by simpa [paused] using signal
    refine ⟨tells, by simp [clear, lowered], signal, kept, fun wait waits => ?_⟩
    obtain ⟨own, _, held⟩ := attuned.waits wait waits
    exact ⟨own, fun _ => paused, stage ▸ held⟩
  · obtain ⟨_, own, up, _⟩ := give_fields w
    refine ⟨tells, ?_, signal, fun row stop held => ?_, fun wait waits => ?_⟩
    · rw [own, up, signal.mpr free]
    · rw [attuned.wait_give, Option.isSome_map]
      exact kept row stop held
    · rw [attuned.wait_give] at waits
      obtain ⟨wait, waiting, rfl⟩ := Option.map_eq_some_iff.mp waits
      obtain ⟨same, _, held⟩ := attuned.waits wait waiting
      refine ⟨same.trans own.symm, fun lasting => ?_, stage ▸ held⟩
      cases lasting

theorem move (attuned : w.Attuned) (move : Move) (admitted : w.admits (.move move) = true) :
    (w.move move).Attuned := by
  obtain ⟨action, rfl⟩ | ⟨row, stop, wait, rfl, held, _, _, moved⟩ | ⟨step, underway, known, moved⟩ |
    ⟨_, _, moved, released, status, stage⟩ := w.move_cases admitted
  · exact attuned.operate action
  · rw [moved]
    exact attuned_follow attuned.own attuned.signal (.walk _ _ _)
      (Engine.tells_walk _ _ (attuned.active held))
  · rw [moved]
    exact attuned_follow attuned.own attuned.signal (.move _ step known underway)
      (attuned.tells.move move)
  · rw [moved]
    refine ⟨attuned.tells.move move, attuned.own.trans released.symm, ?_, ?_, ?_⟩
    · rw [released, status]
      exact attuned.signal
    · intro row stop held
      obtain same | ⟨_, outcome, ended⟩ := stage
      · exact attuned.held row stop (same ▸ held)
      · cases ended.symm.trans held
    · intro wait waits
      obtain ⟨own, begun, row, stop, held⟩ := attuned.waits wait waits
      refine ⟨own, fun lasting => status.trans (begun lasting), row, stop, ?_⟩
      obtain same | ⟨final, _⟩ := stage
      · exact same.trans held
      · cases final.symm.trans held

theorem calls {calls : List Call} {w' : Watch} (attuned : w.Attuned) (run : Calls w calls w') :
    w'.Attuned := by
  induction run with
  | none => exact attuned
  | next call _ admitted ih =>
    cases call with
    | start job row => exact ih.start job row
    | move next => exact ih.move next admitted

/-- The signal is up for the engine exactly when a wait for it would be over at once. -/
theorem up_iff (attuned : w.Attuned) : w.up w.own = false ↔ w.engine.state.status = .paused := by
  rw [attuned.own, ← Bool.not_eq_true, attuned.signal, not_not]

/-- Signals change nothing about what an engine does on a move. -/
theorem move_engine (attuned : w.Attuned) (move : Move) :
    (w.move move).engine = w.engine.move move := by
  unfold Watch.move
  split
  · simp only [Watch.operate, Engine.move]
    split
    · rfl
    · rfl
    all_goals exact (give_fields _).1
  · rename_i row stop held
    rw [follow_engine]
    simp only [Engine.move, Engine.proceed, held]
    split_ifs with released
    · rfl
    · have paused : w.engine.state.status = .paused := by
        by_contra other
        exact released (attuned.signal.mpr other)
      rw [Engine.walk, if_pos (attuned.held row stop held).1, if_pos paused, ← held]
  · split_ifs
    · exact follow_engine _ _
    · rfl

/-- An engine that may go on need not wait. -/
theorem admits_move (attuned : w.Attuned) {move : Move} (admitted : w.engine.admits move = true) :
    w.admits (.move move) = true := by
  unfold admits
  dsimp only
  split
  · rename_i row stop held
    obtain ⟨wait, waits⟩ := Option.isSome_iff_exists.mp (attuned.held row stop held).2
    have released : w.engine.released = true := by
      simpa only [Engine.admits, held] using admitted
    simp [waits, attuned.past_of_released released waits]
  · exact admitted

end Attuned

end Watch
end Intake
