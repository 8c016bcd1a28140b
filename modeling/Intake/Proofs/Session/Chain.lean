import Intake.Proofs.Service
import Intake.Proofs.Session.Resume

/-! An import that is stopped and gone on with, as often as it takes. Each session goes on where the
one before it was stopped, with the progress that that one left in storage. Rows that are sent
twice over leave the service with what it would hold after one run without a stop. -/
namespace Intake.Session

structure Stopped (job : Job) (s stopped : Session) : Prop where
  status : stopped.engine.state.status = .cancelled ∨ stopped.engine.state.status = .failed
  left : stopped.engine.state.row < job.file.totalRows
  lossless : ∀ event ∈ s.engine.since stopped.engine, event.isLoss = false

structure Resumes (job : Job) (text : Text) (stopped resumed : Session) : Prop where
  accepted : ∃ next c opened dropped, Reopens job.file.name stopped next ∧
    next.openText job.file.name text = (.ok (some c), opened) ∧
    opened.resumeProgress = (.ok dropped, resumed)

/-- Sessions on one text, each but the first going on where the one before it was stopped: the latest
as it stood before its run and as its run has left it, and the deliveries of all runs so far. -/
inductive Chain (job : Job) (text : Text) (first : Session) :
    Session → Session → List Delivery → Prop
  | first {reached : Session} (runs : first.Runs reached) :
      Chain job text first first reached (first.deliveries reached)
  | resumed {s stopped resumed reached : Session} {sent : List Delivery}
      (chain : Chain job text first s stopped sent) (stop : Stopped job s stopped)
      (resumes : Resumes job text stopped resumed) (runs : resumed.Runs reached) :
      Chain job text first resumed reached (sent ++ resumed.deliveries reached)

structure Link (plan : Job) (first s reached : Session) (earlier : List Delivery)
    (start reach : Nat) : Prop where
  row : s.resumeRow = start
  span : Span plan start s reached reach
  workspace : s.workspace = first.workspace
  bounded : Engine.Bounded s.engine plan
  calendar : reached.calendar = plan.calendar
  amounts : plan.Timeless → ∀ now accepts held,
    Holdings.takeAll accepts held
        (earlier ++ plan.deliveries now first.workspace start plan.file.totalRows)
      = Holdings.takeAll accepts held (plan.deliveries now first.workspace 0 plan.file.totalRows)

variable {job : Job} {mapping : Mapping} {dropped : List Text} {text : Text}

theorem Ready.span {s reached : Session} {start : Nat} (ready : Ready job start s)
    (inside : start ≤ job.file.totalRows)
    (valid : job.mapping.validate job.file.headers = .ok (mapping, dropped))
    (runs : s.Runs reached) : ∃ reach, Span (Engine.planOf job mapping) start s reached reach := by
  obtain ⟨reach, span⟩ := runs.span ready.file (by rw [ready.mapping]; exact valid)
  have row : Engine.resumeRow job.file s.resumeRow = start := by
    simp [Engine.resumeRow, ready.row, inside]
  rw [row, ready.mapping, ready.lists, ready.calendar] at span
  exact ⟨reach, span⟩

theorem Ready.span_again {s reached : Session} {row : Int}
    (ready : Ready (Engine.planOf job mapping) row s) (low : 0 ≤ row)
    (high : row ≤ job.file.totalRows)
    (valid : job.mapping.validate job.file.headers = .ok (mapping, dropped))
    (runs : s.Runs reached) :
    ∃ reach, Span (Engine.planOf job mapping) row.toNat s reached reach := by
  obtain ⟨start, rfl⟩ := Int.eq_ofNat_of_zero_le low
  obtain ⟨_, _, again⟩ := Mapping.validate_validated valid
  obtain ⟨reach, span⟩ := ready.span (Int.ofNat_le.mp high) again runs
  have same : Engine.planOf (Engine.planOf job mapping) mapping = Engine.planOf job mapping := by
    simp [Engine.planOf, Entries.distinct_distinct]
  exact ⟨reach, same ▸ span⟩

/-- Going on from a row that a run has passed with its deliveries sends nothing amiss. -/
theorem Link.amounts_resumed {plan : Job} {first s reached : Session} {earlier : List Delivery}
    {start reach row : Nat} (link : Link plan first s reached earlier start reach)
    (low : start ≤ row) (high : row ≤ reach) (timeless : plan.Timeless) (now : Int)
    (accepts : Delivery → Bool) (held : Holdings) :
    Holdings.takeAll accepts held (earlier ++ s.deliveries reached
        ++ plan.deliveries now first.workspace row plan.file.totalRows)
      = Holdings.takeAll accepts held
          (plan.deliveries now first.workspace 0 plan.file.totalRows) := by
  have within := link.span.high
  rw [link.span.deliveries timeless now, link.workspace, ← link.amounts timeless,
    ← plan.deliveries_append _ _ low high, ← plan.deliveries_append _ _ high within,
    ← plan.deliveries_append _ _ low (Nat.le_trans high within),
    ← plan.deliveries_append _ _ high within]
  simpa only [List.append_assoc] using Holdings.takeAll_overlap accepts held
    (earlier ++ plan.deliveries now first.workspace start row)
    (plan.deliveries now first.workspace row reach)
    (plan.deliveries now first.workspace reach plan.file.totalRows)

theorem Link.resumes (storable : job.Storable)
    (valid : job.mapping.validate job.file.headers = .ok (mapping, dropped))
    (parsed : ContactFile.parse job.file.name text (.scalar ',') ContactFile.defaultPreview
      = .ok job.file) {first s stopped next : Session} {earlier : List Delivery}
    {start reach : Nat}
    (link : Link (Engine.planOf job mapping) first s stopped earlier start reach)
    (stop : Stopped job s stopped) (reopens : Reopens job.file.name stopped next) :
    ∃ c opened resumed, next.openText job.file.name text = (.ok (some c), opened) ∧
      c.row = stopped.engine.state.row ∧ opened.resumeProgress = (.ok [], resumed) ∧
      Ready (Engine.planOf job mapping) c.row resumed ∧ resumed.isActive = false ∧
      resumed.workspace = stopped.workspace ∧
      resumed.engine.store.now = next.engine.store.now := by
  have kept := link.span.kept stop.lossless stop.status
  have low := link.span.begun
  exact Reopens.resumes storable valid parsed kept link.bounded link.span.total (by omega)
    stop.left link.calendar reopens

/-- Every chain that begins with a run of a whole file is linked up. -/
theorem Chain.link (storable : job.Storable)
    (valid : job.mapping.validate job.file.headers = .ok (mapping, dropped))
    (parsed : ContactFile.parse job.file.name text (.scalar ',') ContactFile.defaultPreview
      = .ok job.file) {first s reached : Session} (ready : Ready job 0 first)
    (clock : (Binary64.ofInt? first.engine.store.now).isSome = true) {sent : List Delivery}
    (chain : Chain job text first s reached sent) :
    ∃ earlier start reach, sent = earlier ++ s.deliveries reached ∧
      Link (Engine.planOf job mapping) first s reached earlier start reach := by
  induction chain with
  | first runs =>
    obtain ⟨reach, span⟩ := @Ready.span job mapping dropped _ _ 0 ready (Nat.zero_le _) valid runs
    exact ⟨[], 0, reach, rfl, ready.row, span, rfl, ⟨storable.rows, clock⟩,
      runs.calendar.trans ready.calendar, fun _ _ _ _ => rfl⟩
  | @resumed s stopped resumed reached sent _ stop resumes runs ih =>
    obtain ⟨earlier, start, reach, rfl, link⟩ := ih
    obtain ⟨next, c, opened, dropped', reopens, offered, accepted⟩ := resumes.accepted
    obtain ⟨c', opened', resumed', offered', row, accepted', ready', _, workspace, now⟩ :=
      link.resumes storable valid parsed stop reopens
    obtain ⟨rfl, rfl⟩ : c = c' ∧ opened = opened' := by
      simpa using offered.symm.trans offered'
    obtain rfl : resumed = resumed' := congrArg Prod.snd (accepted.symm.trans accepted')
    have low := link.span.begun
    have high := link.span.behind
    have left := stop.left
    obtain ⟨reach', span⟩ := ready'.span_again (by omega) (by omega) valid runs
    have at_row : resumed.resumeRow = c.row.toNat := by
      rw [ready'.row]
      omega
    exact ⟨_, c.row.toNat, reach', rfl, at_row, span,
      workspace.trans (link.span.workspace.trans link.workspace),
      ⟨storable.rows, now ▸ reopens.clock⟩, runs.calendar.trans ready'.calendar,
      link.amounts_resumed (by omega) (by omega)⟩

structure Delivers (plan : Job) (row : Nat) (s reached : Session) : Prop where
  segment : (s.engine.callsSince reached.engine).map Prod.fst
    <+: plan.dueRows row plan.file.totalRows
  whole : reached.engine.state.status = .completed →
    (s.engine.callsSince reached.engine).map Prod.fst = plan.dueRows row plan.file.totalRows
  contacts : ∀ call ∈ s.engine.callsSince reached.engine,
    ∃ now, plan.deliveryAt? now s.workspace call.1 = some call.2

theorem Span.delivers {plan : Job} {start reach : Nat} {s reached : Session}
    (span : Span plan start s reached reach) : Delivers plan start s reached where
  segment := span.rows ▸ ⟨_, plan.dueRows_append span.low span.high⟩
  whole := fun completed => by rw [span.rows, span.completed completed]
  contacts := span.calls

theorem Link.completed {plan : Job} {first s reached : Session} {earlier : List Delivery}
    {start reach : Nat} (link : Link plan first s reached earlier start reach)
    (completed : reached.engine.state.status = .completed) (timeless : plan.Timeless) (now : Int)
    (accepts : Delivery → Bool) (held : Holdings) :
    Holdings.takeAll accepts held (earlier ++ s.deliveries reached)
      = Holdings.takeAll accepts held
          (plan.deliveries now first.workspace 0 plan.file.totalRows) := by
  rw [link.span.deliveries timeless now, link.span.completed completed, link.workspace]
  exact link.amounts timeless now accepts held

def sampleText : Text := "email\nann@x.io\nbob@x.io\n"

def sampleJob : Job :=
  { file := ⟨"people.csv", ["email"], [["ann@x.io"], ["bob@x.io"]], ContactFile.defaultPreview⟩
    mapping := [(Attribute.emailKey, "email")]
    lists := ["news"]
    calendar := .own }

def sample : Session :=
  { Session.of Engine.sample sampleJob.lists .own with
    file? := some sampleJob.file
    mapping := sampleJob.mapping }

theorem sampleJob_storable : sampleJob.Storable :=
  ⟨by decide, by decide, by decide, by decide, by decide⟩

theorem sampleJob_valid :
    sampleJob.mapping.validate sampleJob.file.headers = .ok (sampleJob.mapping, []) := by
  rfl

theorem sample_ready : Ready sampleJob 0 sample := ⟨rfl, rfl, rfl, rfl, rfl, rfl⟩

theorem Ready.runs_of_after? {s reached : Session} {row : Int} {acts : List Act}
    (ready : Ready job row s) (idle : s.isActive = false)
    (valid : job.mapping.validate job.file.headers = .ok (mapping, dropped))
    (acted : s.run.2.after? acts = some reached) : s.Runs reached := by
  obtain ⟨begun, started⟩ := ready.run idle valid
  rw [started] at acted
  exact ⟨begun, acts, .inl started, reaches_iff.mpr acted⟩

def halvedJob : Job := { sampleJob with lists := [[.surrogate 0x3D, .surrogate 0x600]] }

def halved : Session := { sample with lists := halvedJob.lists }

def seenJob : Job :=
  { file := ⟨"people.csv", ["email", "seen"], [["ann@x.io", "now"], ["bob@x.io", ""]],
      ContactFile.defaultPreview⟩
    mapping := [(Attribute.emailKey, "email"), ("custom_datetime_1", "seen")]
    lists := ["news"]
    calendar := .own }

def seen : Session :=
  { Session.of Engine.sample seenJob.lists .own with
    file? := some seenJob.file
    mapping := seenJob.mapping }

end Intake.Session
