import Intake.Proofs.Cell
import Intake.Run.Engine
import Mathlib.Data.List.Basic

/-! The rows of a job that are due: those whose email resolves to a text that is not blank. Neither
that nor whether a row has a contact depends on the time at which it is read. -/
namespace Intake

namespace Job

def contactAt (job : Job) (now : Int) (row : Nat) : Except OversizedInteger Contact :=
  Contact.build (job.calendar now) job.file (job.file.rows[row]?.getD []) job.mapping

theorem contactAt_error_iff {job : Job} {now later : Int} {row : Nat} {error : OversizedInteger} :
    job.contactAt now row = .error error ↔ job.contactAt later row = .error error :=
  Contact.build_error_iff

def cellAt? (job : Job) (key : Text) (row : Nat) : Option Text :=
  job.mapping.findSome? fun entry =>
    if entry.1 = key then
      (job.file.column? entry.2).bind ((job.file.rows[row]?.getD [])[·]?)
    else none

def emailAt? (job : Job) (row : Nat) : Option Text :=
  (job.cellAt? Attribute.emailKey row).bind fun cell =>
    if cell.strip.isEmpty then none else some cell.strip

def Timeless (job : Job) : Prop :=
  ∀ row now later, (job.emailAt? row).isSome → job.contactAt now row = job.contactAt later row

theorem timeless_of_dateless {job : Job}
    (dateless : ∀ entry ∈ job.mapping, Attribute.kindOf entry.1 ≠ .date) : job.Timeless :=
  fun _ _ _ _ => Contact.build_of_dateless dateless _ _

def dueRows (job : Job) (start stop : Nat) : List Nat :=
  (List.range' start (stop - start)).filter fun row => (job.emailAt? row).isSome

theorem dueRows_self (job : Job) (row : Nat) : job.dueRows row row = [] := by simp [dueRows]

theorem dueRows_append (job : Job) {start middle stop : Nat} (left : start ≤ middle)
    (right : middle ≤ stop) :
    job.dueRows start middle ++ job.dueRows middle stop = job.dueRows start stop := by
  have size : stop - start = (middle - start) + (stop - middle) := by omega
  have place : start + (middle - start) = middle := by omega
  unfold dueRows
  rw [size, ← List.range'_append_1, List.filter_append, place]

theorem dueRows_succ (job : Job) {start row : Nat} (left : start ≤ row) :
    job.dueRows start (row + 1)
      = job.dueRows start row ++ if (job.emailAt? row).isSome then [row] else [] := by
  rw [← dueRows_append job left (Nat.le_succ row)]
  congr 1
  have size : row + 1 - row = 1 := by omega
  simp only [dueRows, size, List.range'_one]
  by_cases due : (job.emailAt? row).isSome <;> simp [due]

theorem mem_dueRows {job : Job} {start stop row : Nat} :
    row ∈ job.dueRows start stop ↔ start ≤ row ∧ row < stop ∧ (job.emailAt? row).isSome := by
  simp only [dueRows, List.mem_filter, List.mem_range'_1]
  constructor
  · rintro ⟨⟨low, high⟩, due⟩
    exact ⟨low, by omega, due⟩
  · rintro ⟨low, high, due⟩
    exact ⟨⟨low, by omega⟩, due⟩

theorem dueRows_nodup (job : Job) (start stop : Nat) : (job.dueRows start stop).Nodup :=
  List.Pairwise.filter _ List.nodup_range'

def deliveryAt? (job : Job) (now : Int) (workspace : Text) (row : Nat) : Option Delivery :=
  match job.contactAt now row with
  | .ok contact => some (.of workspace job.lists contact)
  | .error _ => none

def deliveries (job : Job) (now : Int) (workspace : Text) (start stop : Nat) : List Delivery :=
  (job.dueRows start stop).filterMap (job.deliveryAt? now workspace)

theorem Timeless.deliveryAt? {job : Job} (timeless : job.Timeless) {workspace : Text} {row : Nat}
    (due : (job.emailAt? row).isSome) (now later : Int) :
    job.deliveryAt? now workspace row = job.deliveryAt? later workspace row := by
  rw [Job.deliveryAt?, Job.deliveryAt?, timeless row now later due]

theorem Timeless.deliveries_of_calls {job : Job} (timeless : job.Timeless) {workspace : Text}
    {start stop : Nat} {calls : List (Nat × Delivery)}
    (rows : calls.map Prod.fst = job.dueRows start stop)
    (each : ∀ call ∈ calls, ∃ now, job.deliveryAt? now workspace call.1 = some call.2) (now : Int) :
    calls.map Prod.snd = job.deliveries now workspace start stop := by
  rw [deliveries, ← rows, List.filterMap_map, eq_comm]
  refine List.filterMap_eq_map_iff_forall_eq_some.mpr fun call made => ?_
  obtain ⟨earlier, found⟩ := each call made
  have due := (mem_dueRows.mp (rows ▸ List.mem_map_of_mem made)).2.2
  exact (timeless.deliveryAt? due now earlier).trans found

theorem deliveries_append (job : Job) (now : Int) (workspace : Text) {start middle stop : Nat}
    (left : start ≤ middle) (right : middle ≤ stop) :
    job.deliveries now workspace start middle ++ job.deliveries now workspace middle stop
      = job.deliveries now workspace start stop := by
  rw [deliveries, deliveries, ← List.filterMap_append, dueRows_append job left right, deliveries]

end Job

namespace Contact

def texts (contact : Contact) : List Text :=
  contact.filterMap fun entry => match entry.2 with
    | .text t => some t
    | _ => none

theorem kindOf_email : Attribute.kindOf Attribute.emailKey = .string := by
  decide +kernel

private theorem email_value (dates : Dates) (cell : Text) (value : Json) (why : Option Rejection)
    (read : Kind.string.readCell dates cell = .ok (value, why)) :
    value = if cell.strip = [] then .null else .text cell.strip := by
  by_cases blank : cell.strip = []
  · simp_all [Kind.readCell]
  · simp_all [Kind.readCell, Kind.coerce]

private theorem email?_read (dates : Dates) (file : ContactFile) (row : List Text) (mapping : Mapping)
    (discards : List Discard) (contact : Contact)
    (read : Contact.read dates file row mapping = (discards, .ok contact)) :
    contact.email? = (mapping.findSome? fun entry =>
      if entry.1 = Attribute.emailKey then (file.column? entry.2).bind (row[·]?) else none).bind
        fun cell => if cell.strip.isEmpty then none else some cell.strip := by
  induction mapping generalizing discards contact with
  | nil =>
    simp only [Contact.read, Prod.mk.injEq, Except.ok.injEq] at read
    obtain ⟨_, rfl⟩ := read
    rfl
  | cons entry rest ih =>
    obtain ⟨key, header⟩ := entry
    simp only [Contact.read] at read
    cases found : (file.column? header).bind (row[·]?) with
    | none =>
      simp only [found] at read
      simp [ih _ _ read, found]
    | some cell =>
      simp only [found] at read
      cases value : (Attribute.kindOf key).readCell dates cell with
      | error error => simp [value] at read
      | ok result =>
        obtain ⟨value', why⟩ := result
        cases tail : Contact.read dates file row rest with
        | mk more later =>
          cases later with
          | error error => simp [value, tail, Except.map] at read
          | ok others =>
            simp only [value, tail, Except.map, Prod.mk.injEq, Except.ok.injEq] at read
            obtain ⟨_, rfl⟩ := read
            by_cases same : key = Attribute.emailKey
            · subst same
              rw [kindOf_email] at value
              rw [email_value dates cell value' why value]
              cases stripped : cell.strip <;> simp [Contact.email?, Entries.get?, found, stripped]
            · simpa [Contact.email?, Entries.get?, same, found] using ih _ _ tail

end Contact

namespace Job

/-- The contact of a row has the email that the row resolves to. -/
theorem email?_contactAt {job : Job} {now : Int} {row : Nat} {contact : Contact}
    (built : job.contactAt now row = .ok contact) : contact.email? = job.emailAt? row := by
  cases read : Contact.read (job.calendar now) job.file (job.file.rows[row]?.getD [])
    job.mapping with
  | mk discards outcome =>
    simp only [contactAt, Contact.build, read] at built
    subst built
    exact Contact.email?_read _ _ _ _ _ _ read

end Job

theorem Engine.contactAt_job {e : Engine} {job : Job} (given : e.job? = some job) (row : Nat) :
    (e.contactAt row).2 = job.contactAt e.now row := by
  simp [Engine.contactAt, given, Job.contactAt, Contact.build]

end Intake
