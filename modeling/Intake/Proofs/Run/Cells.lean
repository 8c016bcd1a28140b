import Intake.Proofs.Cell
import Intake.Proofs.Run.Statuses

/-! What the cells of a file do to its run. Each row that a run has passed has a contact, made of the
values of its cells. A run none of whose notices fails has failed only before a row that has no
contact, and has then delivered the due rows before that one. -/
namespace Intake

def Move.isFailure : Move → Bool
  | acknowledge (some _) => true
  | _ => false

@[simp] theorem Action.on_eq_failed (action : Action) (status : Status) :
    action.on status = .failed ↔ status = .failed := by
  cases action <;> cases status <;> simp [on]

def Job.Builds (job : Job) (first : Nat) (next : Int) : Prop :=
  ∀ (row : Nat) (now : Int), first ≤ row → (row : Int) < next →
    ∃ contact, job.contactAt now row = .ok contact

namespace Job.Builds
variable {job : Job} {first : Nat}

theorem mono {next next' : Int} (builds : job.Builds first next) (back : next' ≤ next) :
    job.Builds first next' :=
  fun row now low passed => builds row now low (Int.lt_of_lt_of_le passed back)

theorem succ {row : Nat} {now : Int} {contact : Contact} (builds : job.Builds first row)
    (built : job.contactAt now row = .ok contact) : job.Builds first (row + 1 : Nat) := by
  intro other later low passed
  by_cases same : other = row
  · subst same
    exact Contact.exists_build built _
  · exact builds other later low (by omega)

end Job.Builds

def Job.Takes (job : Job) (now : Int) (row : Nat) (key : Text)
    (result : Except OversizedInteger Json) : Prop :=
  ∃ header cell, (key, header) ∈ job.mapping ∧
    Contact.cell? job.file (job.file.rows[row]?.getD []) header = some cell ∧
    (Attribute.kindOf key).Parsed (job.calendar now) cell result

def Point.next (e : Engine) : Point → Int
  | batch => e.state.row
  | row next _ => next
  | stage => e.nextRow

namespace Engine
variable {before e : Engine} {plan : Job} {first : Nat} {moves : List Move} {new : List Event}
  {p : Point}

theorem Placed.row_le_next (placed : Placed before plan first p e) : e.state.row ≤ p.next e := by
  have fits := placed.fits
  cases p with
  | batch => exact Int.le_refl _
  | row next stop => exact fits.2.1
  | stage =>
    cases stage : e.stage <;> simp only [Point.Fits, stage] at fits <;>
      simp only [Point.next, nextRow, stage] <;> omega

theorem Placed.nextRow_of_completed (placed : Placed before plan first .stage e)
    (completed : e.state.status = .completed) : e.nextRow = plan.file.totalRows := by
  have fits := placed.fits
  cases stage : e.stage <;> simp_all [Point.Fits, Status.isActive, nextRow]

namespace Course

private theorem contactAt {row stop : Nat} {discards : List Discard}
    {result : Except OversizedInteger Contact}
    (course : Course before plan first moves new (.row row stop) e)
    (read : e.contactAt row = (discards, result)) : plan.contactAt e.now row = result := by
  have same := contactAt_job course.placed.job row
  rw [read] at same
  exact same.symm

/-- The rows that a run has passed have contacts. -/
theorem builds (course : Course before plan first moves new p e) : plan.Builds first (p.next e) := by
  -- A row is passed by being skipped or submitted, and both have its contact at hand.
  induction course with
  | begun begun =>
    intro row now low passed
    simp [Point.next, begun.state, reset] at passed
    omega
  | opened stop course left going ends batch counted ih =>
    have low := course.placed.low
    exact ih.mono (by simp only [Point.next]; omega)
  | finished course ending ih => exact ih.mono (by simp [Point.next, nextRow])
  | held course inside paused ih => exact ih
  | stopped course inside cancelling ih =>
    exact ih.mono (by simpa [Point.next, nextRow] using course.placed.row_le_next)
  | raised course inside unpaused going read ih =>
    exact ih.mono (by simpa [Point.next, nextRow] using course.placed.row_le_next)
  | skipped course inside unpaused going read blank ih => exact ih.succ (course.contactAt read)
  | submitted course inside unpaused going read due ih => exact ih.succ (course.contactAt read)
  | closed course outside ih => exact ih.mono (by simp [Point.next, nextRow]; omega)
  | accepted course called ih =>
    simpa [Point.next, nextRow, called, accepted_fields called] using ih
  | rejected course called failure ih =>
    simpa [Point.next, nextRow, called, rejected_fields called] using ih
  | cutOff course called move cut ih =>
    exact ih.mono (by simpa [Point.next, nextRow] using course.placed.row_le_next)
  | interrupted course waiting ih =>
    exact ih.mono (by simpa [Point.next, nextRow] using course.placed.row_le_next)
  | returned course noticed ih => simpa [Point.next, nextRow, noticed] using ih
  | yielded course noticed ih => simpa [Point.next, nextRow, noticed] using ih
  | crashed course noticed failure ih =>
    exact ih.mono (by simpa [Point.next, nextRow] using course.placed.row_le_next)
  | ended course noticed failure? outcome ih => simpa [Point.next, nextRow, noticed] using ih
  | continued course waiting ih => simpa [Point.next, nextRow, waiting] using ih
  | released course waiting signal ih => simpa [Point.next, nextRow, waiting] using ih
  | operated course action ih => simpa [Point.next, nextRow] using ih
  | saved course ih => simpa [Point.next, nextRow] using ih
  | ticked course now shown ih => exact ih

end Course

structure Spoiled (plan : Job) (first : Nat) (new : List Event) (e : Engine) (row : Nat)
    (error : OversizedInteger) : Prop where
  low : first ≤ row
  inside : row < plan.file.totalRows
  unbuilt : ∀ now, plan.contactAt now row = .error error
  builds : plan.Builds first row
  fatal : e.state.fatal = some error.message
  calls : (new.filterMap Event.call?).reverse.map Prod.fst = plan.dueRows first row

theorem Spoiled.carry {e e' : Engine} {new new' : List Event} {row : Nat} {error : OversizedInteger}
    (spoiled : Spoiled plan first new e row error) (fatal : e'.state.fatal = e.state.fatal)
    (calls : new'.filterMap Event.call? = new.filterMap Event.call?) :
    Spoiled plan first new' e' row error :=
  { spoiled with fatal := fatal.trans spoiled.fatal, calls := calls ▸ spoiled.calls }

theorem oversized_text (error : OversizedInteger) :
    Failure.text ⟨"ValueError", error.message⟩ = error.message := by
  simp [Failure.text, OversizedInteger.message, Json.digitsMessage, Text.ofString]

/-- A run none of whose notices fails has failed by a row whose contact cannot be built. -/
theorem Course.spoiled (course : Course before plan first moves new p e)
    (quiet : ∀ move ∈ moves, move.isFailure = false) (failed : e.state.status = .failed) :
    ∃ row error, Spoiled plan first new e row error := by
  have carry {e e' : Engine} {new new' : List Event}
      (spoiled : ∃ row error, Spoiled plan first new e row error)
      (fatal : e'.state.fatal = e.state.fatal)
      (calls : new'.filterMap Event.call? = new.filterMap Event.call?) :
      ∃ row error, Spoiled plan first new' e' row error := by
    obtain ⟨row, error, spoiled⟩ := spoiled
    exact ⟨row, error, spoiled.carry fatal calls⟩
  have earlier {moves : List Move} {last : Move}
      (quiet : ∀ move ∈ moves ++ [last], move.isFailure = false) :
      ∀ move ∈ moves, move.isFailure = false :=
    fun move here => quiet move (List.mem_append_left _ here)
  induction course with
  | begun begun => simp [begun.state, reset] at failed
  | opened stop course left going ends batch counted ih => exact carry (ih quiet failed) rfl rfl
  | finished course ending ih =>
    simp only [finish_fields] at failed
    split_ifs at failed
  | held course inside paused ih => exact carry (ih quiet failed) rfl rfl
  | stopped course inside cancelling ih => simp [cancelling] at failed
  | @raised _ _ e row stop discards error course inside unpaused going read ih =>
    obtain ⟨reach, tally⟩ := course.tallied
    obtain rfl : reach = row := tally.reaches
    obtain ⟨_, _, _, within⟩ := course.placed.fits
    refine ⟨reach, error, ?_⟩
    exact
      { low := tally.low
        inside := Nat.lt_of_lt_of_le inside within
        unbuilt := fun now => Job.contactAt_error_iff.mp (course.contactAt read)
        builds := course.builds
        fatal := by simp [oversized_text]
        calls := by simpa using tally.rows }
  | skipped course inside unpaused going read blank ih => exact carry (ih quiet failed) rfl rfl
  | @submitted _ _ e row stop discards contact course inside unpaused going read due ih =>
    have failed : e.state.status = .failed := failed
    have active := course.placed.fits.1
    simp [failed, Status.isActive] at active
  | closed course outside ih => exact carry (ih quiet (by simpa using failed)) (by simp) (by simp)
  | accepted course called ih =>
    refine carry (ih (earlier quiet) ?_) ?_ ?_
    · simpa [accepted_fields called] using failed
    · simp [accepted_fields called]
    · exact List.filterMap_cons_none rfl
  | rejected course called failure ih =>
    refine carry (ih (earlier quiet) ?_) ?_ ?_
    · simpa [rejected_fields called, RunState.reject] using failed
    · simp [rejected_fields called, RunState.reject]
    · exact List.filterMap_cons_none rfl
  | cutOff course called move cut ih => simp at failed
  | interrupted course waiting ih => simp at failed
  | returned course noticed ih => exact carry (ih (earlier quiet) failed) rfl rfl
  | yielded course noticed ih => exact carry (ih (earlier quiet) failed) rfl rfl
  | crashed course noticed failure ih =>
    have loud := quiet (.acknowledge (some failure)) (by simp)
    cases loud
  | ended course noticed failure? outcome ih => exact carry (ih (earlier quiet) failed) rfl rfl
  | continued course waiting ih => exact carry (ih (earlier quiet) failed) rfl rfl
  | released course waiting signal ih => exact carry (ih (earlier quiet) failed) rfl rfl
  | operated course action ih =>
    exact carry (ih (earlier quiet) (by simpa using failed)) (by simp) (by simp)
  | saved course ih => exact carry (ih (earlier quiet) (by simpa using failed)) (by simp) (by simp)
  | ticked course now shown ih => exact carry (ih (earlier quiet) failed) rfl rfl

/-- Without a failing notice, a run fails by nothing but a row with a mapped cell that is read as JSON
and holds more digits in a row than an integer may have: it stops before the first such row, after
the deliveries of the due rows before it. A run that is completed had no such row; it has delivered
every row whose email is not blank, with the value of each of its mapped cells. -/
theorem start_reads (before : Engine) (job : Job) (row : Int) {mapping : Mapping}
    {dropped : List Text} (idle : before.state.status.isActive = false)
    (valid : job.mapping.validate job.file.headers = .ok (mapping, dropped)) {moves : List Move}
    {e : Engine} (reached : Moves (before.start job row).2 moves e)
    (quiet : ∀ move ∈ moves, move.isFailure = false) :
    let plan := planOf job mapping
    let first := resumeRow job.file row
    (∀ (kind : Kind) (dates : Dates) (raw : Text),
        kind.Parsed dates raw (kind.parse dates raw)) ∧
      (e.state.status = .failed → ∃ bad error, first ≤ bad ∧ bad < job.file.totalRows ∧
        (∃ key, ∀ now, plan.Takes now bad key (.error error)) ∧ plan.Builds first bad ∧
        e.state.fatal = some error.message ∧
        (before.callsSince e).map Prod.fst = plan.dueRows first bad) ∧
      (e.state.status = .completed → ∀ row, first ≤ row → row < job.file.totalRows →
        ∃ now contact, plan.contactAt now row = .ok contact ∧
          (contact.email?.isSome → before.HasShown moves now ∧
            (row, .of before.workspace plan.lists contact) ∈ before.callsSince e) ∧
          ∀ key header cell, (key, header) ∈ mapping →
            Contact.cell? job.file (job.file.rows[row]?.getD []) header = some cell →
            ∃ value, (Attribute.kindOf key).Parsed (plan.calendar now) cell (.ok value) ∧
              (key, value) ∈ contact) := by
  intro plan first
  obtain ⟨e₀, begun, started⟩ := start_valid before job row idle valid
  rw [started] at reached
  obtain ⟨new, course⟩ := Course.of_moves begun reached
  refine ⟨Kind.parsed, ?_, ?_⟩
  · intro failed
    obtain ⟨bad, error, spoiled⟩ := course.spoiled quiet failed
    refine ⟨bad, error, spoiled.low, spoiled.inside, ?_, spoiled.builds, spoiled.fatal, ?_⟩
    · obtain ⟨key, header, cell, mapped, found, parsed⟩ :=
        Contact.build_error (spoiled.unbuilt 0)
      have refused (now : Int) : (Attribute.kindOf key).parse (plan.calendar now) cell
          = .error error := Kind.parse_error_iff.mp parsed
      exact ⟨key, fun now => ⟨header, cell, mapped, found, refused now ▸ Kind.parsed _ _ cell⟩⟩
    · rw [callsSince, course.filterMap_since call_isMark]
      exact spoiled.calls
  · intro completed row low inside
    have next := course.placed.nextRow_of_completed completed
    have passed : (row : Int) < Point.stage.next e := by
      simp only [Point.next, next]
      exact_mod_cast inside
    have values {now : Int} {contact : Contact} (built : plan.contactAt now row = .ok contact)
        (key header cell : Text) (mapped : (key, header) ∈ mapping)
        (found : Contact.cell? job.file (job.file.rows[row]?.getD []) header = some cell) :
        ∃ value, (Attribute.kindOf key).Parsed (plan.calendar now) cell (.ok value) ∧
          (key, value) ∈ contact := by
      obtain ⟨value, parsed, here⟩ := Contact.mem_build built mapped found
      exact ⟨value, parsed ▸ Kind.parsed _ _ cell, here⟩
    by_cases due : (plan.emailAt? row).isSome
    · obtain ⟨reach, tally⟩ := course.tallied
      have last := tally.last_row course.placed completed
      have listed : row ∈ (before.callsSince e).map Prod.fst := by
        rw [tally.callsSince_fst course, last]
        exact Job.mem_dueRows.mpr ⟨low, inside, due⟩
      obtain ⟨⟨_, delivery⟩, made, rfl⟩ := List.mem_map.mp listed
      obtain ⟨now, contact, shown, built, shape⟩ := tally.mem_callsSince course made
      exact ⟨now, contact, built, fun _ => ⟨shown, shape ▸ made⟩, values built⟩
    · obtain ⟨contact, built⟩ := course.builds row 0 low passed
      rw [← Job.email?_contactAt built] at due
      exact ⟨0, contact, built, fun found => absurd found due, values built⟩

def cellJob (cell : Text) : Job :=
  { file := ⟨"people.csv", ["email", "data"], [["ann@x.io", cell]], 15⟩
    mapping := [(Attribute.emailKey, "email"), ("custom_json_1", "data")]
    lists := []
    calendar := .own }

theorem cellJob_valid (cell : Text) :
    (cellJob cell).mapping.validate (cellJob cell).file.headers
      = .ok ((cellJob cell).mapping, []) := by
  rfl

private theorem kindOf_cellJob : Attribute.kindOf "custom_json_1" = .json := by
  decide +kernel

/-- A run whose cell is no JSON is completed, and its row is delivered with null. -/
theorem start_reads_sample :
    ∃ moves e, Moves (sample.start (cellJob "\x7b") 0).2 moves e ∧ e.state.status = .completed ∧
      ∃ contact : Contact, (Text.ofString "custom_json_1", Json.null) ∈ contact ∧
        (0, .of sample.workspace [] contact) ∈ sample.callsSince e := by
  let moves : List Move := [.answer .accepted, .acknowledge none, .acknowledge none, .proceed]
  have ended : ((sample.start (cellJob "\x7b") 0).2.after? moves).map (·.state.status)
      = some .completed := by
    decide +kernel
  obtain ⟨e, reached, completed⟩ := Option.map_eq_some_iff.mp ended
  have run := reaches_iff.mpr reached
  obtain ⟨now, contact, built, delivered, values⟩ := (start_reads sample (cellJob "\x7b") 0 rfl
    (cellJob_valid _) run (by decide)).2.2 completed 0 (Nat.le_refl _) (by decide)
  obtain ⟨value, parsed, here⟩ := values "custom_json_1" "data" "\x7b" (by decide) (by decide)
  have due : contact.email?.isSome := by
    rw [Job.email?_contactAt built]
    decide +kernel
  have coerced : Kind.json.coerce (Calendar.own now) (Text.strip "\x7b")
      = .ok (.rejected (.invalidJson .nameExpected)) := by
    rfl
  rw [kindOf_cellJob] at parsed
  refine ⟨moves, e, run, completed, contact, ?_, (delivered due).2⟩
  cases parsed with
  | blank => exact here
  | rejected => exact here
  | value coerced' => cases coerced.symm.trans coerced'

private theorem walk_unbuilt {e : Engine} {row stop : Nat} {error : OversizedInteger}
    (inside : row < stop) (running : e.state.status = .running)
    (unbuilt : (e.contactAt row).2 = .error error) :
    (e.walk row stop).stage = .finalNotice ∧ (e.walk row stop).state.status = .failed := by
  rw [walk, if_pos inside, if_neg (by simp [running]), if_neg (by simp [running])]
  simp [unbuilt]

/-- A run fails at its first row if the contact of that row cannot be built. -/
theorem start_unbuilt (before : Engine) (job : Job) (row : Int) {mapping : Mapping}
    {dropped : List Text} (idle : before.state.status.isActive = false)
    (valid : job.mapping.validate job.file.headers = .ok (mapping, dropped))
    (inside : resumeRow job.file row < job.file.totalRows) {error : OversizedInteger}
    {now : Int}
    (unbuilt : (planOf job mapping).contactAt now (resumeRow job.file row) = .error error) :
    (before.start job row).2.stage = .finalNotice ∧
      (before.start job row).2.state.status = .failed := by
  obtain ⟨e₀, begun, started⟩ := start_valid before job row idle valid
  obtain ⟨row_eq, total, running⟩ : e₀.state.row = resumeRow job.file row ∧
      e₀.state.totalRows = job.file.totalRows ∧ e₀.state.status = .running := by
    simp [begun.state, reset, planOf]
  have size := e₀.batchSize_pos
  have left : e₀.state.row < e₀.state.totalRows ∧ e₀.state.status ≠ .cancelling := by
    simp [row_eq, total, running, inside]
  rw [started, nextBatch, if_pos left]
  refine walk_unbuilt ?_ running (?_ : _ = Except.error error)
  · omega
  · rw [row_eq, Int.toNat_natCast]
    exact (contactAt_job begun.job _).trans (Job.contactAt_error_iff.mp unbuilt)

private theorem contactAt_overlong {n : Nat} (long : 10 ^ Json.digitLimit ≤ n) :
    ∃ error, (cellJob (Text.ofNat n)).contactAt 0 0 = .error error := by
  cases built : (cellJob (Text.ofNat n)).contactAt 0 0 with
  | error error => exact ⟨error, rfl⟩
  | ok contact =>
    have mapped : (Text.ofString "custom_json_1", Text.ofString "data") ∈ (cellJob []).mapping := by
      decide
    obtain ⟨value, parsed, _⟩ := Contact.mem_build built mapped rfl
    rw [kindOf_cellJob, Kind.parse_overlong long] at parsed
    cases parsed

/-- A cell that is read as JSON and is an integer with too many digits ends a run as failed, though
none of its notices fails. -/
theorem start_overlong {n : Nat} (long : 10 ^ Json.digitLimit ≤ n) :
    ∃ moves e, Moves (sample.start (cellJob (Text.ofNat n)) 0).2 moves e ∧
      (∀ move ∈ moves, move.isFailure = false) ∧ e.stage = .ended .finished ∧
      e.state.status = .failed := by
  obtain ⟨error, unbuilt⟩ := contactAt_overlong long
  obtain ⟨stage, failed⟩ := start_unbuilt sample (cellJob (Text.ofNat n)) 0 rfl (cellJob_valid _)
    Nat.zero_lt_one unbuilt
  have admitted : (sample.start (cellJob (Text.ofNat n)) 0).2.admits (.acknowledge none) = true := by
    simp [admits, stage]
  refine ⟨[.acknowledge none], _, .next _ .none admitted, by decide, ?_⟩
  simp [Engine.move, acknowledge, stage, failed]

theorem overlong_cell_fails :
    ∃ moves e, Moves (sample.start (cellJob (Text.ofNat (10 ^ Json.digitLimit))) 0).2 moves e ∧
      (∀ move ∈ moves, move.isFailure = false) ∧ e.stage = .ended .finished ∧
      e.state.status = .failed := by
  exact start_overlong (Nat.le_refl _)

end Engine
end Intake
