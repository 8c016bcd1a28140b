import Intake.Proofs.ContactFile
import Intake.Proofs.Mapping
import Intake.Proofs.Session.Runs

/-! A run that was stopped is gone on with. The progress that it left is offered for the same text,
and a session that accepts it stands ready with the same file, mapping and lists at the row where
the run was stopped. -/
namespace Intake

/-- A job whose progress can be told from its stored form: its rows fit into memory, its mapping has
each key once, and no text of it has the two halves of a surrogate pair as code points of their
own, which no decoded text has. -/
structure Job.Storable (job : Job) : Prop where
  rows : job.file.totalRows < 2 ^ 63
  distinct : (Entries.keys job.mapping).Nodup
  name : job.file.name.isJoined = true
  headers : ∀ entry ∈ job.mapping, entry.2.isJoined = true
  lists : ∀ list ∈ job.lists, list.isJoined = true

/-- The progress of a storable job can be told from its stored form. -/
theorem Job.Storable.sound {job : Job} {mapping : Mapping} {dropped : List Text}
    (storable : job.Storable)
    (valid : job.mapping.validate job.file.headers = .ok (mapping, dropped)) {c : Checkpoint}
    (named : c.fileName = job.file.name) (low : 0 ≤ c.row) (high : c.row ≤ c.totalRows)
    (total : c.totalRows = job.file.totalRows) (mapped : c.mapping = mapping)
    (listed : c.lists = Entries.distinct job.lists) (numbers : Engine.InRange c) : c.Sound := by
  have rows := storable.rows
  obtain ⟨fitting, _⟩ := Mapping.validate_validated valid
  have part := Mapping.validate_restrict valid
  exact
    { fileName := named ▸ storable.name
      distinct := by
        have once := @Mapping.nodup_restrict job.file.headers _ storable.distinct
        rwa [part, ← mapped] at once
      mapped := by
        rw [mapped]
        intro entry here
        obtain ⟨known, shown, _⟩ := fitting.fits entry here
        have original : entry ∈ job.mapping := by
          exact Mapping.mem_of_mem_restrict (by rwa [part])
        exact ⟨Attribute.isJoined_of_isKnown known, storable.headers entry original, shown⟩
      lists := fun list here => storable.lists list (Entries.mem_distinct.mp (listed ▸ here))
      row := Binary64.isSome_ofInt?_of_lt low (by omega)
      totalRows := Binary64.isSome_ofInt?_of_lt (by omega) (by omega)
      batch := numbers.batch
      totalBatches := numbers.totalBatches
      savedAt := numbers.savedAt }

namespace Session

structure Ready (job : Job) (row : Int) (s : Session) : Prop where
  file : s.file? = some job.file
  mapping : s.mapping = job.mapping
  lists : s.lists = job.lists
  pending : s.pending? = none
  row : s.resumeRow = row
  calendar : s.calendar = job.calendar

structure Reopens (fileName : Text) (stopped next : Session) : Prop where
  workspace : next.workspace = stopped.workspace
  calendar : next.calendar = stopped.calendar
  medium : next.engine.store.storage.medium = stopped.engine.store.storage.medium
  served : ∀ n, next.engine.store.storage.refuses n .get = none
  idle : next.isActive = false
  clock : (Binary64.ofInt? next.engine.store.now).isSome = true
  fresh : ∀ text c, stopped.engine.store.storage.medium.get
      (progressKey stopped.workspace fileName) = .ok (some text) →
    ProgressStore.decode text = .ok (.ok c) →
    next.engine.store.now - c.savedAt < next.engine.store.freshness

theorem Ready.run {s : Session} {job : Job} {row : Int} (ready : Ready job row s)
    (idle : s.isActive = false) {mapping : Mapping} {dropped : List Text}
    (valid : job.mapping.validate job.file.headers = .ok (mapping, dropped)) :
    ∃ begun, s.run = (.ok (), begun) := by
  obtain ⟨e₀, _, started⟩ := Engine.start_valid s.engine job s.resumeRow idle valid
  have given : (⟨job.file, s.mapping, s.lists, s.calendar⟩ : Job) = job := by
    rw [ready.mapping, ready.lists, ready.calendar]
  refine ⟨{ s with engine := e₀.nextBatch }, ?_⟩
  simp [Session.run, ready.file, ready.pending, given, started]

theorem openText_held {s : Session} {name text : Text} {file : ContactFile} {c : Checkpoint}
    (parsed : ContactFile.parse name text (.scalar ',') ContactFile.defaultPreview = .ok file)
    (idle : s.isActive = false) (served : ∀ n, s.engine.store.storage.refuses n .get = none)
    (held : s.engine.store.Holds s.workspace name c) (sound : c.Sound) (named : c.fileName = name)
    (low : 0 ≤ c.row) (high : c.row < c.totalRows)
    (fresh : s.engine.store.now - c.savedAt < s.engine.store.freshness) :
    ∃ opened, s.openText name text = (.ok (some c), opened) ∧ opened.file? = some file ∧
      opened.pending? = some c ∧ opened.workspace = s.workspace ∧ opened.isActive = false ∧
      opened.engine.store.now = s.engine.store.now ∧ opened.calendar = s.calendar := by
  obtain rfl : c.fileName = name := named
  have same : file.name = c.fileName := ContactFile.parse_name parsed
  have loaded := ProgressStore.load_held (served _) held sound low high fresh
  let suggested := { s with file? := some file }.startOver file
  have offered : (suggested.engine.store.load suggested.workspace file.name) = _ := same ▸ loaded
  have inactive : s.engine.state.status.isActive = false := idle
  simp only [openText, useLoaded, parsed, useFile, isActive, inactive, loadProgress]
  rw [show _ = _ from offered]
  exact ⟨_, rfl, rfl, rfl, rfl, idle, rfl, rfl⟩

/-- Accepting progress whose mapping fits the file as a whole makes a session ready at its row. -/
theorem resumeProgress_fitting {s : Session} {file : ContactFile} {c : Checkpoint}
    (opened : s.file? = some file) (pending : s.pending? = some c)
    (fitting : Mapping.Fitting file.headers c.mapping)
    (email : (Entries.get? Attribute.emailKey c.mapping).isSome) (high : c.row < file.totalRows) :
    ∃ resumed, s.resumeProgress = (.ok [], resumed) ∧
      Ready ⟨file, c.mapping, c.lists, s.calendar⟩ c.row resumed ∧ resumed.engine = s.engine := by
  refine ⟨{ s with
    mapping := c.mapping, lists := c.lists, resumeRow := c.row, pending? := none }, ?_, ?_, rfl⟩
  · have mapped : (Entries.get? Attribute.emailKey c.mapping).isNone = false := by
      simpa using email
    simp [resumeProgress, opened, pending, fitting.restrict, high, mapped]
  · exact ⟨opened, rfl, rfl, rfl, rfl, rfl⟩

/-- A session that reopens the file of a stopped run holds the progress of that run, still fresh. -/
theorem Reopens.held {job : Job} {mapping : Mapping} {dropped : List Text} (storable : job.Storable)
    (valid : job.mapping.validate job.file.headers = .ok (mapping, dropped)) {before : Engine}
    {stopped next : Session}
    (kept : Engine.Kept before (Engine.planOf job mapping) stopped.engine)
    (bounded : Engine.Bounded before (Engine.planOf job mapping))
    (total : stopped.engine.state.totalRows = job.file.totalRows)
    (low : 0 ≤ stopped.engine.state.row) (high : stopped.engine.state.row ≤ job.file.totalRows)
    (reopens : Reopens job.file.name stopped next) :
    ∃ c : Checkpoint, next.engine.store.Holds next.workspace job.file.name c ∧ c.Sound ∧
      c.fileName = job.file.name ∧ c.row = stopped.engine.state.row ∧
      c.totalRows = job.file.totalRows ∧ c.mapping = mapping ∧
      c.lists = Entries.distinct job.lists ∧
      next.engine.store.now - c.savedAt < next.engine.store.freshness := by
  obtain ⟨c, held, named, row, rows, mapped, listed, numbers⟩ := kept
  have sound := storable.sound valid named (by omega) (by omega) (by omega) mapped listed
    (numbers bounded)
  obtain ⟨stored, written, found⟩ := held
  have fresh := reopens.fresh stored c found (ProgressStore.decode_written sound written)
  have there : next.engine.store.Holds next.workspace job.file.name c := by
    rw [ProgressStore.Holds, reopens.medium, reopens.workspace]
    exact ⟨stored, written, found⟩
  exact ⟨c, there, sound, named, row, rows.trans total, mapped, listed, fresh⟩

/-- The progress of a stopped run is offered in a session that reopens its file, and accepting it
makes that session ready to go on at the row where the run was stopped. -/
theorem Reopens.resumes {job : Job} {mapping : Mapping} {dropped : List Text} {text : Text}
    (storable : job.Storable)
    (valid : job.mapping.validate job.file.headers = .ok (mapping, dropped))
    (parsed : ContactFile.parse job.file.name text (.scalar ',') ContactFile.defaultPreview
      = .ok job.file) {before : Engine} {stopped next : Session}
    (kept : Engine.Kept before (Engine.planOf job mapping) stopped.engine)
    (bounded : Engine.Bounded before (Engine.planOf job mapping))
    (total : stopped.engine.state.totalRows = job.file.totalRows)
    (low : 0 ≤ stopped.engine.state.row)
    (left : stopped.engine.state.row < job.file.totalRows)
    (calendar : stopped.calendar = job.calendar) (reopens : Reopens job.file.name stopped next) :
    ∃ c opened resumed, next.openText job.file.name text = (.ok (some c), opened) ∧
      c.row = stopped.engine.state.row ∧ opened.resumeProgress = (.ok [], resumed) ∧
      Ready (Engine.planOf job mapping) c.row resumed ∧ resumed.isActive = false ∧
      resumed.workspace = stopped.workspace ∧
      resumed.engine.store.now = next.engine.store.now := by
  obtain ⟨c, held, sound, named, row, rows, mapped, listed, fresh⟩ :=
    reopens.held storable valid kept bounded total low (Int.le_of_lt left)
  obtain ⟨opened, offered, file, pending, workspace, idle, now, same⟩ := openText_held parsed
    reopens.idle reopens.served held sound named (by omega) (by omega) fresh
  obtain ⟨fitting, email, _⟩ := Mapping.validate_validated valid
  obtain ⟨resumed, accepted, ready, engine⟩ := resumeProgress_fitting file pending
    (mapped ▸ fitting) (mapped ▸ email) (by omega)
  refine ⟨c, opened, resumed, offered, row, accepted, ?_, ?_, ?_, ?_⟩
  · rw [mapped, listed, same, reopens.calendar, calendar] at ready
    exact ready
  · rw [isActive, engine]
    exact idle
  · rw [Session.workspace, engine]
    exact workspace.trans reopens.workspace
  · rw [engine, now]

end Session
end Intake
