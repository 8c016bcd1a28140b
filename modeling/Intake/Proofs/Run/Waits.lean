import Intake.Proofs.Run.Signal

/-! Runs that wait for their release. A wait is not over when it begins, it stays for the signal that the
engine has, whatever is done meanwhile, and the next resume or cancel that succeeds ends it. So no run
waits in vain, and none looks at its status again and again while it is paused. -/
namespace Intake.Watch
variable {w : Watch}

/-- Only a step of a run can begin a wait. -/
theorem wait_eq_none {call : Call} (other : call.isStep = false)
    (admitted : w.admits call = true) (free : w.wait? = none) : (w.step call).wait? = none := by
  cases call with
  | start job row =>
    obtain ⟨_, started⟩ | ⟨_, _, _, started⟩ | ⟨_, _, _, e₀, _, begun, started⟩ :=
      w.engine.start_cases job row
    · simpa only [step, Watch.start, started] using free
    · simpa only [step, Watch.start, started] using free
    · simp only [step, Watch.start, started]
      by_contra waits
      obtain ⟨wait, waits⟩ := Option.ne_none_iff_exists'.mp waits
      have paused := (wait_follow (.nextBatch e₀) waits).2
      rw [begun.state] at paused
      cases paused
  | move next =>
    obtain ⟨action, rfl⟩ | ⟨_, _, _, rfl, _⟩ | ⟨isStep, _⟩ | ⟨_, _, moved, _⟩ :=
      w.move_cases admitted
    · rcases answered : w.engine.operate action with ⟨changed, e⟩
      obtain ⟨_, _, operated⟩ | ⟨_, _, operated⟩ | ⟨_, _, operated⟩ := operate_cases answered <;>
        simp only [step, Watch.move, operated]
      · exact free
      · exact free
      · simp [give_fields, free]
    · cases other
    · cases isStep.symm.trans other
    · simpa only [step, moved] using free

/-- What lets a paused run go on is a resume or a cancel, and each of them succeeds. -/
theorem releases_paused (paused : w.engine.state.status = .paused) :
    w.releases (.move (.operate .resume)) = true ∧ w.releases (.move (.operate .cancel)) = true := by
  simp only [releases, Engine.operate_changes, paused]
  exact ⟨nofun, nofun⟩

/-- Whoever lets a run go on is an operator, who is heard at any time. -/
theorem admits_of_releases {call : Call} (released : w.releases call = true) :
    call.isStep = false ∧ w.admits call = true := by
  unfold releases at released
  split at released
  · exact ⟨rfl, rfl⟩
  · exact ⟨rfl, rfl⟩
  · cases released

namespace Attuned

/-- A step of a run leaves it without a wait, or with one that is not over. -/
theorem wait_step (attuned : w.Attuned) {move : Move} (step : move.isStep = true)
    (admitted : w.admits (.move move) = true) {wait : Wait}
    (waits : (w.move move).wait? = some wait) : wait.past = false := by
  have lowered {e e' : Engine} (own : w.up w.own = e.released)
      (signal : e.released = true ↔ e.state.status ≠ .paused) (stops : e.Stops e')
      (waits : (w.follow e').wait? = some wait) : wait.past = false := by
    obtain ⟨rfl, paused⟩ := wait_follow stops waits
    simpa [own, paused] using signal
  obtain ⟨action, rfl⟩ | ⟨row, stop, _, rfl, _, _, _, moved⟩ | ⟨_, underway, known, moved⟩ |
    ⟨_, idle, moved, _⟩ := w.move_cases admitted
  · cases step
  · rw [moved] at waits
    exact lowered attuned.own attuned.signal (.walk _ _ _) waits
  · rw [moved] at waits
    exact lowered attuned.own attuned.signal (.move _ step known underway) waits
  · rw [moved] at waits
    obtain ⟨_, _, row, stop, held⟩ := attuned.waits wait waits
    rw [held] at idle
    cases idle step

/-- What is not a step of the run keeps its wait, and a wait that is over stays over. -/
theorem wait_kept (attuned : w.Attuned) {call : Call} (other : call.isStep = false)
    (admitted : w.admits call = true) {wait : Wait} (waits : w.wait? = some wait) :
    (w.step call).engine.stage = w.engine.stage ∧ (w.step call).own = w.own ∧
      ∃ past, (w.step call).wait? = some ⟨w.own, past⟩ ∧
        ((wait.past || w.releases call) = true → past = true) := by
  obtain ⟨own, _, row, stop, held⟩ := attuned.waits wait waits
  have waiting : w.wait? = some ⟨w.own, wait.past⟩ := by rw [waits, ← own]
  cases call with
  | start job row =>
    obtain ⟨_, started⟩ | ⟨idle, _⟩ | ⟨idle, _⟩ := w.engine.start_cases job row
    · simp only [step, Watch.start, started]
      exact ⟨trivial, trivial, wait.past, waiting, by simp [releases]⟩
    all_goals cases idle.symm.trans (attuned.active held)
  | move next =>
    obtain ⟨action, rfl⟩ | ⟨_, _, _, rfl, _⟩ | ⟨isStep, _⟩ | ⟨passive, _, moved, _, _, stage⟩ :=
      w.move_cases admitted
    · obtain ⟨_, _, _, _, stage, _⟩ := w.engine.operate_fields action
      rcases answered : w.engine.operate action with ⟨changed, e⟩
      rw [answered] at stage
      obtain ⟨unchanged, _, operated⟩ | ⟨pause, _, operated⟩ | ⟨_, _, operated⟩ :=
        operate_cases answered <;> simp only [step, Watch.move, operated]
      · refine ⟨stage, trivial, wait.past, waiting, ?_⟩
        cases action <;> simp [releases, answered, unchanged]
      · exact ⟨stage, rfl, wait.past, waiting, by simp [releases, pause]⟩
      · have given : w.give.wait? = some ⟨w.own, true⟩ := by rw [attuned.wait_give, waiting]; rfl
        exact ⟨stage, (give_fields w).2.1, true, given, fun _ => rfl⟩
    · cases other
    · cases isStep.symm.trans other
    · obtain same | ⟨final, _⟩ := stage
      · have idle : w.releases (.move next) = false := by
          cases next with
          | operate action => exact absurd rfl (passive action)
          | answer | acknowledge | proceed | interrupt | save | tick => rfl
        simp only [step, moved]
        exact ⟨same, trivial, wait.past, waiting, by simp [idle]⟩
      · cases final.symm.trans held

/-- What is done while a run waits leaves it waiting for the same signal, and its wait stays over once
it is. -/
theorem wait_keeps (attuned : w.Attuned) {wait : Wait} (waits : w.wait? = some wait)
    {more : List Call} {w' : Watch} (run : Calls w more w')
    (others : ∀ call ∈ more, call.isStep = false) :
    w'.engine.stage = w.engine.stage ∧ w'.own = w.own ∧
      ∃ past, w'.wait? = some ⟨w.own, past⟩ ∧ (wait.past = true → past = true) := by
  induction run with
  | none =>
    have own := (attuned.waits wait waits).1
    exact ⟨rfl, rfl, wait.past, by rw [waits, ← own], id⟩
  | next call before admitted ih =>
    obtain ⟨stage, own, past, waiting, lasts⟩ := ih fun call mem => others call (by simp [mem])
    obtain ⟨stage', own', past', waiting', lasts'⟩ :=
      (attuned.calls before).wait_kept (others call (by simp)) admitted waiting
    refine ⟨stage'.trans stage, own'.trans own, past', own ▸ waiting', fun ended => lasts' ?_⟩
    simp [lasts ended]

/-- A run that was held looks at its status: it waits again if it is paused again, and else goes on. -/
theorem proceed_held (attuned : w.Attuned) {row stop : Nat}
    (held : w.engine.stage = .release row stop) :
    (w.engine.state.status = .paused →
        w.move .proceed = { w with wait? := some ⟨w.own, false⟩ }) ∧
      (w.engine.state.status ≠ .paused → (w.move .proceed).wait? = none) := by
  have moved : w.move .proceed = w.follow (w.engine.walk row stop) := by
    simp only [Watch.move, held]
  rw [moved]
  constructor
  · intro paused
    have again : w.engine.walk row stop = w.engine := by
      rw [Engine.walk, if_pos (attuned.held row stop held).1, if_pos paused, ← held]
    rw [again, follow, held]
    simp only [attuned.up_iff.mpr paused]
  · intro other
    by_contra waits
    obtain ⟨wait, waits⟩ := Option.ne_none_iff_exists'.mp waits
    exact other (wait_follow (.walk _ _ _) waits).2

end Attuned

/-- How a run waits that is held before a row: it hears whoever lets it go on. -/
structure Heeded (w : Watch) (wait : Wait) : Prop where
  /-- It waits for the signal that the engine has at present. -/
  own : wait.signal = w.own
  /-- It waits because it is paused, and then it can be resumed or cancelled. -/
  cause : wait.past = false → w.engine.state.status = .paused ∧
    w.releases (.move (.operate .resume)) = true ∧ w.releases (.move (.operate .cancel)) = true
  /-- It waits for that signal whatever is done, and a wait that is over stays over. -/
  keeps : ∀ {more w'}, Calls w more w' → (∀ call ∈ more, call.isStep = false) →
    w'.engine.stage = w.engine.stage ∧ w'.own = w.own ∧
      ∃ past, w'.wait? = some ⟨w.own, past⟩ ∧ (wait.past = true → past = true)
  /-- The next resume or cancel that succeeds ends the wait. -/
  ends : ∀ {more w'}, Calls w more w' → (∀ call ∈ more, call.isStep = false) →
    ∀ call, w'.releases call = true → (w'.step call).wait? = some ⟨w.own, true⟩
  /-- After its wait the run looks at its status, and waits again only if it is paused again. -/
  goes : wait.past = true → w.admits (.move .proceed) = true ∧
    (w.engine.state.status = .paused →
      w.move .proceed = { w with wait? := some ⟨w.own, false⟩ }) ∧
    (w.engine.state.status ≠ .paused → (w.move .proceed).wait? = none)

theorem Attuned.heeded (attuned : w.Attuned) {wait : Wait} (waits : w.wait? = some wait) :
    w.Heeded wait := by
  obtain ⟨own, begun, row, stop, held⟩ := attuned.waits wait waits
  refine ⟨own, fun lasting => ⟨begun lasting, releases_paused (begun lasting)⟩,
    attuned.wait_keeps waits, ?_, fun past => ⟨?_, attuned.proceed_held held⟩⟩
  · intro more w' run others call released
    obtain ⟨other, admitted⟩ := admits_of_releases released
    obtain ⟨_, own', past, waiting, _⟩ := attuned.wait_keeps waits run others
    obtain ⟨_, _, past', waiting', ended⟩ :=
      (attuned.calls run).wait_kept other admitted waiting
    rw [waiting', own', ended (by simp [released])]
  · simp [admits, held, waits, past]

/-- No wait is lost and none is spun, in whichever state calls bring an engine. Its signal is down
exactly while it is paused; a run is held before a row exactly while it waits, and then it is heeded; and
no wait is over when it begins. The signals change nothing about what the engine does. -/
theorem no_wait_lost (workspace : Text) (batchSize : Nat) (positive : 0 < batchSize)
    (store : ProgressStore) {calls : List Call} {w : Watch}
    (reached : Calls (of (.of workspace batchSize positive store)) calls w) :
    (w.up w.own = false ↔ w.engine.state.status = .paused) ∧
      (w.wait?.isSome = true ↔ ∃ row stop, w.engine.stage = .release row stop) ∧
      (∀ wait, w.wait? = some wait → w.Heeded wait) ∧
      (∀ call, w.admits call = true → call.isStep = true ∨ w.wait? = none →
        ∀ wait, (w.step call).wait? = some wait → wait.past = false) ∧
      w.engine.released = w.up w.own ∧
      (∀ job row, (w.start job row).engine = (w.engine.start job row).2) ∧
      ∀ move, (w.engine.admits move = true → w.admits (.move move) = true) ∧
        (w.move move).engine = w.engine.move move := by
  have attuned := (attuned_of workspace batchSize positive store).calls reached
  refine ⟨attuned.up_iff, ⟨fun waits => ?_, ?_⟩, fun wait => attuned.heeded, ?_, attuned.own.symm,
    w.start_engine, fun move => ⟨attuned.admits_move, attuned.move_engine move⟩⟩
  · obtain ⟨wait, waits⟩ := Option.isSome_iff_exists.mp waits
    exact (attuned.waits wait waits).2.2
  · rintro ⟨row, stop, held⟩
    exact (attuned.held row stop held).2
  · intro call admitted fresh wait waits
    cases isStep : call.isStep with
    | true =>
      cases call with
      | start => cases isStep
      | move next => exact attuned.wait_step isStep admitted waits
    | false =>
      obtain stepped | free := fresh
      · cases isStep.symm.trans stepped
      · rw [wait_eq_none isStep admitted free] at waits
        cases waits

/-- A run of two rows that is paused during its first delivery waits before its second row. Resumed, its
wait is over; paused again before it goes on, it waits once more; and cancelled then, it is let go. -/
theorem no_wait_lost_sample :
    let begun : List Call := [.start Engine.pairJob 0, .move (.operate .pause),
      .move (.answer .accepted), .move (.acknowledge none)]
    let again : List Call := [.move (.operate .resume), .move (.operate .pause), .move .proceed]
    ∃ w w', Calls (of Engine.sample) begun w ∧ Calls (of Engine.sample) (begun ++ again) w' ∧
      w.wait? = some ⟨1, false⟩ ∧ w.up w.own = false ∧
      (w.step (.move (.operate .resume))).wait? = some ⟨w.own, true⟩ ∧
      w'.wait? = some ⟨1, false⟩ ∧ w'.up w'.own = false ∧
      (w'.step (.move (.operate .cancel))).wait? = some ⟨w'.own, true⟩ := by
  intro begun again
  have waits (calls : List Call) (held : (stateAfter? admits step (of Engine.sample) calls).map
      (fun w => (w.engine.state.status, w.wait?)) = some (.paused, some ⟨1, false⟩)) :
      ∃ w, Calls (of Engine.sample) calls w ∧ w.wait? = some ⟨1, false⟩ ∧ w.up w.own = false ∧
        (w.step (.move (.operate .resume))).wait? = some ⟨w.own, true⟩ ∧
        (w.step (.move (.operate .cancel))).wait? = some ⟨w.own, true⟩ := by
    obtain ⟨w, reached, shows⟩ := Option.map_eq_some_iff.mp held
    obtain ⟨paused, waiting⟩ := Prod.mk.inj shows
    have run : Calls (of Engine.sample) calls w := reaches_iff.mpr reached
    obtain ⟨down, _, heeded, _⟩ := no_wait_lost _ _ _ _ run
    obtain ⟨_, resumed, cancelled⟩ := (heeded _ waiting).cause rfl
    exact ⟨w, run, waiting, down.mpr paused, (heeded _ waiting).ends .none nofun _ resumed,
      (heeded _ waiting).ends .none nofun _ cancelled⟩
  obtain ⟨w, run, waiting, down, resumed, _⟩ := waits begun (by decide +kernel)
  obtain ⟨w', run', waiting', down', _, cancelled⟩ := waits (begun ++ again) (by decide +kernel)
  exact ⟨w, w', run, run', waiting, down, resumed, waiting', down', cancelled⟩

end Intake.Watch
