import Intake.Proofs.Run.Restraint
import Intake.Proofs.Session.Chain
import Intake.Proofs.Session.Opening

/-! Stored progress that is accepted. Whatever text was stored, and however the file has changed
since, a session that accepts what is offered with a file has the part of the stored mapping that
fits the file, at a row of the file, and its next run is refused for want of an email column or
begins at that row. -/
namespace Intake.Session
variable {s opened : Session} {file : ContactFile} {c : Checkpoint} {dropped : List Text}

/-- What accepting a checkpoint leaves of a session with a file. Keys that were stored are kept or
dropped, the latter only for want of a column of their own, and the row is the stored one, unless
the file ends before it. -/
structure Restored (file : ContactFile) (c : Checkpoint) (dropped : List Text) (s : Session) :
    Prop where
  taken : s.file? = some file
  pending : s.pending? = none
  idle : s.isActive = false
  fitting : Mapping.Fitting file.headers s.mapping
  stored : ∀ entry ∈ s.mapping, entry ∈ c.mapping
  parts : (Entries.keys s.mapping ++ dropped).Perm (Entries.keys c.mapping)
  once : (Entries.keys s.mapping ++ dropped).Nodup
  lost : ∀ key ∈ dropped, ∃ header, (key, header) ∈ c.mapping ∧
    (Mapping.Fits file.headers (key, header) → header ∈ Entries.values s.mapping)
  lists : s.lists = c.lists
  row : s.resumeRow = if c.row < file.totalRows then c.row else 0

/-- How the next run of a session with a file goes. Without an email it is refused, and nothing
happens. With one it starts at the row of the session, and delivers due rows from there on. -/
structure NextRun (file : ContactFile) (s : Session) : Prop where
  refused : Entries.get? Attribute.emailKey s.mapping = none → ∃ refused,
    s.run = (.error (.start (.mapping .emailUnmapped)), refused) ∧
      s.engine.since refused.engine = []
  started : (Entries.get? Attribute.emailKey s.mapping).isSome → ∃ begun state,
    s.run = (.ok (), begun) ∧
      (s.engine.since begun.engine).head? = some (.started file.name state) ∧
      state.row = s.resumeRow ∧
      ∀ later, s.Runs later → Delivers (Engine.planOf ⟨file, s.mapping, s.lists, s.calendar⟩ s.mapping)
        s.resumeRow.toNat s later

theorem useFile_offered (offers : s.useFile file = (.ok (some c), opened)) :
    s.engine.store.Offered file.name c ∧ opened.file? = some file ∧ opened.pending? = some c ∧
      opened.isActive = false := by
  cases active : s.isActive with
  | true => simp [useFile, active] at offers
  | false =>
    rcases loaded : s.engine.store.load s.workspace file.name with ⟨answer, events, store⟩
    cases answer with
    | error failure =>
      obtain ⟨failed, unsettled, _⟩ := useFile_unsettled active loaded
      cases unsettled.symm.trans offers
    | ok offered =>
      obtain ⟨settled, used, taken, pending, idle, _⟩ := useFile_settled active loaded
      cases used.symm.trans offers
      exact ⟨ProgressStore.offered_of_load (congrArg Prod.fst loaded), taken, pending, idle⟩

theorem resumeProgress_restored (taken : opened.file? = some file)
    (pending : opened.pending? = some c) (idle : opened.isActive = false)
    (once : (Entries.keys c.mapping).Nodup) :
    ∃ dropped resumed, opened.resumeProgress = (.ok dropped, resumed) ∧
      Restored file c dropped resumed := by
  have parts := Mapping.restrict_parts file.headers c.mapping
  have fields : opened.resumeProgress.1 = .ok (c.mapping.restrict file.headers).2 ∧
      opened.resumeProgress.2.file? = some file ∧ opened.resumeProgress.2.pending? = none ∧
      opened.resumeProgress.2.isActive = false ∧
      opened.resumeProgress.2.mapping = (c.mapping.restrict file.headers).1 ∧
      opened.resumeProgress.2.lists = c.lists ∧
      opened.resumeProgress.2.resumeRow = if c.row < file.totalRows then c.row else 0 := by
    unfold resumeProgress
    rw [taken, pending]
    dsimp only
    split_ifs <;> exact ⟨rfl, rfl, rfl, idle, rfl, rfl, rfl⟩
  obtain ⟨answer, taken, pending, idle, mapping, lists, row⟩ := fields
  refine ⟨_, _, Prod.ext answer rfl, ?_⟩
  exact
    { taken, pending, idle, lists, row
      fitting := mapping ▸ (Mapping.restrict_fitting _ _).1
      stored := fun entry here => Mapping.mem_of_mem_restrict (mapping ▸ here)
      parts := mapping ▸ parts
      once := mapping ▸ parts.nodup_iff.mpr once
      lost := fun _ gone => mapping ▸ Mapping.restrict_dropped gone }

theorem Restored.nextRun (restored : Restored file c dropped s) (low : 0 ≤ c.row) :
    NextRun file s := by
  obtain ⟨row, at_row, inside⟩ : ∃ row : Nat, s.resumeRow = row ∧ row ≤ file.totalRows := by
    refine ⟨s.resumeRow.toNat, ?_, ?_⟩ <;> rw [restored.row] <;> split_ifs <;> omega
  have idle : s.engine.state.status.isActive = false := restored.idle
  constructor
  · intro unmapped
    have invalid : s.mapping.validate file.headers = .error .emailUnmapped := by
      simp [Mapping.validate, unmapped]
    refine ⟨{ s with engine := (s.engine.start ⟨file, s.mapping, s.lists, s.calendar⟩ s.resumeRow).2 }, ?_, ?_⟩
    · simp [run, restored.taken, restored.pending, Engine.start, idle, invalid]
    · have journal : (s.engine.start ⟨file, s.mapping, s.lists, s.calendar⟩ s.resumeRow).2.journal
          = [] ++ s.engine.journal := by
        simp only [Engine.start, idle, invalid]
        split_ifs <;> rfl
      exact Engine.since_of_append journal
  · intro email
    have valid := restored.fitting.validate email
    have ready : Ready ⟨file, s.mapping, s.lists, s.calendar⟩ row s :=
      ⟨restored.taken, rfl, rfl, restored.pending, at_row, rfl⟩
    obtain ⟨begun, started⟩ := ready.run restored.idle valid
    obtain ⟨_, opened, same⟩ := Begins.start (.inl started)
    obtain rfl := Option.some.inj (restored.taken.symm.trans opened)
    have announced := @Engine.start_announced s.engine ⟨_, s.mapping, s.lists, s.calendar⟩ row idle valid inside
    rw [← at_row, same] at announced
    refine ⟨begun, _, started, announced, at_row.symm, fun later runs => ?_⟩
    obtain ⟨_, span⟩ := ready.span inside valid runs
    rw [at_row]
    exact span.delivers

/-- Whatever is stored, a checkpoint that is offered with a file, which was handed in or loaded from
a text or a path, is that of the file, stands at one of its own rows and is fresh. Accepting it
restores what of it fits the file, and the next run is refused for want of an email or starts at the
restored row. -/
theorem resume_offered {loaded : Except LoadError ContactFile}
    (offers : s.useLoaded loaded = (.ok (some c), opened)) :
    ∃ file, loaded = .ok file ∧ c.fileName = file.name ∧ 0 ≤ c.row ∧ c.row < c.totalRows ∧
      s.engine.store.now - c.savedAt < s.engine.store.freshness ∧
      ∃ dropped resumed, opened.resumeProgress = (.ok dropped, resumed) ∧
        Restored file c dropped resumed ∧ NextRun file resumed := by
  cases loaded with
  | error error => cases offers
  | ok file =>
    obtain ⟨offered, taken, pending, idle⟩ := useFile_offered offers
    obtain ⟨text, decoded⟩ := offered.decoded
    obtain ⟨dropped, resumed, accepted, restored⟩ :=
      resumeProgress_restored taken pending idle (ProgressStore.nodup_of_decode decoded)
    exact ⟨file, rfl, offered.named, offered.low, offered.high, offered.fresh, dropped, resumed,
      accepted, restored, restored.nextRun offered.low⟩

def people (headers : List Text) : ContactFile :=
  ⟨"people.csv", headers, [["ann@x.io", "Ann"], ["bob@x.io", "Bob"]], ContactFile.defaultPreview⟩

def formerProgress : Text :=
  "\x7b\"fileName\":\"people.csv\",\"currentRow\":1,\"totalRows\":3,\"currentBatch\":1," ++
    "\"totalBatches\":1,\"mappings\":\x7b\"first_name\":\"name\",\"last_name\":\"name\"," ++
    "\"phone\":\"tel\",\"email\":\"email\"\x7d,\"selectedListIds\":[],\"timestamp\":0\x7d"

def returning : Session :=
  .of { Engine.sample with
    store := ⟨.of (.memory [(progressKey "w" "people.csv", formerProgress)]),
      ProgressStore.defaultFreshness, 0⟩ } [] .own

def resumption (s : Session) (file : ContactFile) :
    Option Bool × Option (List Text) × Int × Bool :=
  let opened := s.useFile file
  let resumed := opened.2.resumeProgress
  (opened.1.toOption.map Option.isSome, resumed.1.toOption, resumed.2.resumeRow,
    (Entries.get? Attribute.emailKey resumed.2.mapping).isSome)

private theorem offered_of_resumption {row : Int} {mapped : Bool}
    (shown : s.resumption file = (some true, some dropped, row, mapped)) :
    ∃ c opened, s.useLoaded (.ok file) = (.ok (some c), opened) ∧
      opened.resumeProgress.1 = .ok dropped ∧ opened.resumeProgress.2.resumeRow = row ∧
      (Entries.get? Attribute.emailKey opened.resumeProgress.2.mapping).isSome = mapped := by
  simp only [resumption, Prod.mk.injEq] at shown
  obtain ⟨offered, answered, at_row, email⟩ := shown
  rcases used : s.useFile file with ⟨answer, opened⟩
  rw [used] at offered answered at_row email
  obtain ⟨c, rfl⟩ : ∃ c, answer = .ok (some c) := by
    cases answer with
    | error error => cases offered
    | ok offer =>
      obtain ⟨c, rfl⟩ := Option.isSome_iff_exists.mp (Option.some.inj offered)
      exact ⟨c, rfl⟩
  refine ⟨c, opened, used, ?_, at_row, email⟩
  cases accepted : opened.resumeProgress.1 with
  | error error => simp [accepted, Except.toOption] at answered
  | ok keys => simpa [accepted, Except.toOption] using answered

/-- With the columns that the file has now a run begins at the stored row, and once the column of
the email has another name it is refused. -/
theorem resume_offered_sample :
    (∃ c opened resumed begun,
      returning.useLoaded (.ok (people ["email", "name"])) = (.ok (some c), opened) ∧
        opened.resumeProgress = (.ok ["last_name", "phone"], resumed) ∧ resumed.resumeRow = 1 ∧
        resumed.run = (.ok (), begun)) ∧
      ∃ c opened resumed refused,
        returning.useLoaded (.ok (people ["mail", "name"])) = (.ok (some c), opened) ∧
          opened.resumeProgress = (.ok ["email", "last_name", "phone"], resumed) ∧
          resumed.run = (.error (.start (.mapping .emailUnmapped)), refused) := by
  let parts : List Text := ["last_name", "phone"]
  have named : returning.resumption (people ["email", "name"])
      = (some true, some parts, 1, true) := by
    decide +kernel
  have renamed : returning.resumption (people ["mail", "name"])
      = (some true, some (Attribute.emailKey :: parts), 1, false) := by
    decide +kernel
  constructor
  · obtain ⟨c, opened, offers, answer, row, email⟩ := offered_of_resumption named
    obtain ⟨_, same, _, _, _, _, dropped, resumed, accepted, _, next⟩ := resume_offered offers
    obtain rfl := Except.ok.inj same
    rw [accepted] at answer row email
    obtain rfl := Except.ok.inj answer
    obtain ⟨begun, _, started, _⟩ := next.started email
    exact ⟨c, opened, resumed, begun, offers, accepted, row, started⟩
  · obtain ⟨c, opened, offers, answer, _, email⟩ := offered_of_resumption renamed
    obtain ⟨_, same, _, _, _, _, dropped, resumed, accepted, _, next⟩ := resume_offered offers
    obtain rfl := Except.ok.inj same
    rw [accepted] at answer email
    obtain rfl := Except.ok.inj answer
    obtain ⟨refused, ended, _⟩ := next.refused (by simpa using email)
    exact ⟨c, opened, resumed, refused, offers, accepted, ended⟩

end Intake.Session
