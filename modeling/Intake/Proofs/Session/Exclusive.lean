import Intake.Proofs.Checkpoint.Decoding
import Intake.Proofs.Mapping.Exclusive
import Intake.Proofs.Session.Runs

/-! The mapping of a session is exclusive, whatever was done with the session: each of its keys is in
the catalogue and has a header of the file, and no header belongs to two keys. Suggesting, restoring
and assigning each come to such a mapping, and a run leaves it alone or closes the session. -/
namespace Intake.Session
variable {s next : Session}

inductive Deed
  | openText (name text : Text)
  | openFile (tree : FileTree) (path : Path)
  | resume
  | discard
  | assign (key : Text) (header : Option Text)
  | setLists (lists : List Text)
  | run
  | begin
  | act (act : Act)
  /-- anything comes to be stored for the session from elsewhere -/
  | stored (store : ProgressStore)

def deed (s : Session) : Deed → Session
  | .openText name text => (s.openText name text).2
  | .openFile tree path => (s.openFile tree path).2
  | .resume => s.resumeProgress.2
  | .discard => s.discardProgress.2
  | .assign key header => (s.assign key header).2
  | .setLists lists => s.setLists lists
  | .run => s.run.2
  | .begin => s.begin.2
  | .act act => s.act act
  | .stored store => { s with engine := { s.engine with store } }

def deeds (s : Session) (done : List Deed) : Session := done.foldl deed s

structure Orderly (s : Session) : Prop where
  proper : Mapping.Proper s.headers s.mapping
  offered : ∀ c, s.pending? = some c → (Entries.keys c.mapping).Nodup

inductive Leaves (s next : Session) : Prop
  | same (file : next.file? = s.file?) (mapping : next.mapping = s.mapping)
      (pending : next.pending? = s.pending?)
  | closed (file : next.file? = none) (mapping : next.mapping = [])
      (pending : next.pending? = none)

theorem Orderly.leaves (orderly : s.Orderly) (leaves : s.Leaves next) : next.Orderly := by
  cases leaves with
  | same file mapping pending =>
    refine ⟨?_, ?_⟩
    · rw [headers, file, mapping]
      exact orderly.proper
    · rw [pending]
      exact orderly.offered
  | closed file mapping pending =>
    refine ⟨?_, ?_⟩
    · rw [mapping]
      exact .nil _
    · simp [pending]

theorem orderly_of (engine : Engine) (lists : List Text) (calendar : Calendar) :
    (Session.of engine lists calendar).Orderly :=
  ⟨.nil _, nofun⟩

/-! Runs. -/

theorem Leaves.trans {later : Session} (first : s.Leaves next) (second : next.Leaves later) :
    s.Leaves later := by
  cases second with
  | closed file mapping pending => exact .closed file mapping pending
  | same file mapping pending =>
    cases first with
    | same file' mapping' pending' =>
      exact .same (file.trans file') (mapping.trans mapping') (pending.trans pending')
    | closed file' mapping' pending' =>
      exact .closed (file.trans file') (mapping.trans mapping') (pending.trans pending')

theorem leaves_finishTask (s : Session) (result : Except SessionError Outcome) :
    s.Leaves (s.finishTask result) := by
  unfold finishTask
  dsimp only
  split
  · split
    · exact .closed rfl rfl rfl
    · exact .same rfl rfl rfl
  · exact .same rfl rfl rfl

theorem leaves_settle (s : Session) (outcome : Outcome) : s.Leaves (s.settle outcome) := by
  have state (file : ContactFile) : s.Leaves (s.settleState file) := by
    unfold settleState
    dsimp only
    split <;> exact .same rfl rfl rfl
  have ending {next : Session} (settled : s.Leaves next) :
      s.Leaves (if next.runsTask then next.finishTask (.ok outcome) else next) := by
    split
    · exact settled.trans (leaves_finishTask _ _)
    · exact settled
  simp only [settle]
  cases outcome <;> cases s.engine.job? <;> simp only <;> apply ending <;>
    first | exact state _ | exact .same rfl rfl rfl

theorem leaves_follow (s : Session) (engine : Engine) : s.Leaves (s.follow engine) := by
  have moved : s.Leaves { s with engine } := .same rfl rfl rfl
  unfold follow
  dsimp only
  split
  · exact moved.trans (leaves_settle _ _)
  · exact moved

theorem leaves_act (s : Session) (act : Act) : s.Leaves (s.act act) := by
  cases act with
  | engine move => exact leaves_follow s _
  | close confirmed =>
    show s.Leaves (s.beginClose confirmed).2
    unfold beginClose
    split_ifs
    · exact .same rfl rfl rfl
    · exact .same rfl rfl rfl
    · exact .closed rfl rfl rfl
  | await =>
    show s.Leaves s.awaitTask.2
    unfold awaitTask
    split
    · exact .closed rfl rfl rfl
    · exact .same rfl rfl rfl
    · exact .closed rfl rfl rfl
    · exact .same rfl rfl rfl

theorem leaves_run (s : Session) : s.Leaves s.run.2 := by
  unfold run
  split
  · exact .same rfl rfl rfl
  · split_ifs
    · exact .same rfl rfl rfl
    · split <;> exact .same rfl rfl rfl

theorem leaves_begin (s : Session) : s.Leaves s.begin.2 := by
  have started : s.Leaves s.startTask.2 := by
    have ran := leaves_run s
    unfold startTask
    split
    · exact .same rfl rfl rfl
    · split <;> rename_i answered <;> rw [answered] at ran
      · exact ran.trans (leaves_finishTask _ _)
      · exact ran.trans (.same rfl rfl rfl)
  unfold begin
  split <;> rename_i answered <;> rw [answered] at started
  · exact started
  · split <;> exact started

/-! Files and their progress. -/

theorem Orderly.useFile (orderly : s.Orderly) (file : ContactFile) :
    (s.useFile file).2.Orderly := by
  let suggested := { s with file? := some file }.startOver file
  have proper : Mapping.Proper suggested.headers suggested.mapping :=
    Mapping.proper_suggest file.headers
  unfold Session.useFile
  split_ifs
  · exact orderly
  · cases loaded : suggested.engine.store.load suggested.workspace file.name with
    | mk answer rest =>
      rw [loadProgress, show _ = _ from loaded]
      cases answer with
      | error failure => exact ⟨proper, orderly.offered⟩
      | ok offered =>
        cases offered with
        | none => exact ⟨proper, nofun⟩
        | some c =>
          obtain ⟨text, decoded⟩ :=
            (ProgressStore.offered_of_load (congrArg Prod.fst loaded)).decoded
          refine ⟨proper, ?_⟩
          rintro _ ⟨⟩
          exact ProgressStore.nodup_of_decode decoded

theorem Orderly.useLoaded (orderly : s.Orderly) (loaded : Except LoadError ContactFile) :
    (s.useLoaded loaded).2.Orderly := by
  unfold Session.useLoaded
  split
  · exact orderly
  · exact orderly.useFile _

theorem Orderly.resumeProgress (orderly : s.Orderly) : s.resumeProgress.2.Orderly := by
  unfold Session.resumeProgress
  split
  · exact orderly
  · exact orderly
  · rename_i file c opened pending
    have proper : Mapping.Proper file.headers (c.mapping.restrict file.headers).1 :=
      Mapping.proper_restrict _ (orderly.offered c pending)
    have left (next : Session) (taken : next.file? = some file)
        (mapping : next.mapping = (c.mapping.restrict file.headers).1)
        (decided : next.pending? = none) : next.Orderly := by
      refine ⟨?_, ?_⟩
      · simpa [headers, taken, mapping] using proper
      · simp [decided]
    dsimp only
    split_ifs <;> exact left _ opened rfl rfl

theorem Orderly.discardProgress (orderly : s.Orderly) : s.discardProgress.2.Orderly := by
  unfold Session.discardProgress
  split
  · exact orderly
  · rename_i file opened
    refine ⟨?_, nofun⟩
    show Mapping.Proper s.headers (Mapping.suggest file.headers)
    simpa [headers, opened] using Mapping.proper_suggest file.headers

theorem Orderly.assign (orderly : s.Orderly) (key : Text) (header : Option Text) :
    (s.assign key header).2.Orderly := by
  unfold Session.assign
  split
  · exact orderly
  · rename_i file opened
    dsimp only
    split_ifs with foreign
    · exact orderly
    · split
      · exact orderly
      · rename_i mapping assigned
        have shown : header.getD [] ≠ [] → header.getD [] ∈ s.headers := by
          intro shown
          simpa [shown, headers, opened] using foreign
        exact ⟨orderly.proper.assign shown assigned, orderly.offered⟩

theorem Orderly.deed (orderly : s.Orderly) (done : Deed) : (s.deed done).Orderly := by
  cases done with
  | openText name text => exact orderly.useLoaded _
  | openFile tree path => exact orderly.useLoaded _
  | resume => exact orderly.resumeProgress
  | discard => exact orderly.discardProgress
  | assign key header => exact orderly.assign key header
  | setLists lists => exact orderly.leaves (.same rfl rfl rfl)
  | run => exact orderly.leaves s.leaves_run
  | begin => exact orderly.leaves s.leaves_begin
  | act act => exact orderly.leaves (s.leaves_act act)
  | stored store => exact orderly.leaves (.same rfl rfl rfl)

theorem Orderly.deeds (orderly : s.Orderly) (done : List Deed) : (s.deeds done).Orderly :=
  List.foldlRecOn (motive := Orderly) done _ orderly fun _ orderly deed _ => orderly.deed deed

/-! Assigning. -/

theorem assign_known {key header : Text} (known : Attribute.isKnown key = true)
    (shown : header ≠ []) (here : header ∈ s.headers) (exclusive : Mapping.Exclusive s.mapping) :
    ∃ mapping, s.assign key (some header) = (.ok mapping, { s with mapping }) ∧
      Mapping.Assigned s.mapping key header mapping := by
  obtain ⟨file, opened, here⟩ : ∃ file, s.file? = some file ∧ header ∈ file.headers := by
    cases opened : s.file? with
    | none => simp [headers, opened] at here
    | some file => exact ⟨file, rfl, by simpa [headers, opened] using here⟩
  obtain ⟨mapping, assigned, result⟩ := exclusive.assign known shown
  refine ⟨mapping, ?_, result⟩
  simp [Session.assign, opened, here, assigned]

/-- A key that is not in the catalogue is refused, with or without a file. -/
theorem assign_unknown {key : Text} (header : Option Text)
    (unknown : Attribute.isKnown key = false) :
    ∃ error, s.assign key header = (.error error, s) := by
  unfold Session.assign
  split
  · exact ⟨_, rfl⟩
  · dsimp only
    split_ifs
    · exact ⟨_, rfl⟩
    · rw [Mapping.assign_unknown header s.mapping unknown]
      exact ⟨_, rfl⟩

/-- Whatever was done with a session, its mapping is one of keys in the catalogue onto headers of its
file, with no key and no header twice. Assigning a header to a known key makes that key the one of the
header; it takes the header from the one other key that had it, if there is one, and leaves each of
the rest what it had. An unknown key is refused, and the mapping stays as it was. -/
theorem mapping_exclusive (engine : Engine) (lists : List Text) (calendar : Calendar)
    (done : List Deed) :
    let s := (Session.of engine lists calendar).deeds done
    Mapping.Proper s.headers s.mapping ∧
      (∀ key header, Attribute.isKnown key = true → header ≠ [] →
        (∀ mapping, Mapping.Exclusive mapping → ∃ next,
          Mapping.assign key (some header) mapping = .ok next ∧
            Mapping.Assigned mapping key header next) ∧
        (header ∈ s.headers → ∃ next,
          s.assign key (some header) = (.ok next, { s with mapping := next }) ∧
            Mapping.Assigned s.mapping key header next)) ∧
      ∀ key header, Attribute.isKnown key = false →
        (∀ mapping, Mapping.assign key header mapping = .error (.unknownAttribute key)) ∧
          ∃ error, s.assign key header = (.error error, s) := by
  intro s
  have orderly : s.Orderly := (orderly_of engine lists calendar).deeds done
  refine ⟨orderly.proper, fun key header known shown => ⟨?_, ?_⟩,
    fun key header unknown => ⟨?_, ?_⟩⟩
  · exact fun mapping exclusive => exclusive.assign known shown
  · exact fun here => assign_known known shown here orderly.proper.toExclusive
  · exact fun mapping => Mapping.assign_unknown header mapping unknown
  · exact assign_unknown header unknown

def crossMapped : Session :=
  (Session.of (Engine.of "w" Engine.defaultBatchSize Engine.defaultBatchSize_pos
    ⟨.of (.memory []), ProgressStore.defaultFreshness, 0⟩) [] .own).deeds
    [.openText "people.csv" "email,phone\nann@x.io,5550100\n",
      .assign Attribute.emailKey (some "phone")]

/-- The phone gets the column back, which leaves the email without one. -/
theorem mapping_exclusive_sample :
    crossMapped.mapping = [(Attribute.emailKey, Text.ofString "phone")] ∧
      (∃ next, crossMapped.assign "phone" (some "phone")
          = (.ok next, { crossMapped with mapping := next }) ∧
        Mapping.Assigned crossMapped.mapping "phone" "phone" next) ∧
      ∃ error, crossMapped.assign "colour" (some "phone") = (.error error, crossMapped) := by
  have properties := mapping_exclusive (Engine.of "w" Engine.defaultBatchSize
    Engine.defaultBatchSize_pos ⟨.of (.memory []), ProgressStore.defaultFreshness, 0⟩) [] .own
    [.openText "people.csv" "email,phone\nann@x.io,5550100\n",
      .assign Attribute.emailKey (some "phone")]
  refine ⟨by decide +kernel, ?_, ?_⟩
  · exact (properties.2.1 "phone" "phone" (by decide +kernel) (by decide)).2 (by decide +kernel)
  · exact (properties.2.2 "colour" (some "phone") (by decide +kernel)).2

end Intake.Session
