import Intake.Proofs.Number.Duration
import Intake.Settings.Loader

/-! What a configuration comes to: settings with a store of progress, or an error for its cause. Most
errors are reported as what is wrong with the configuration; which ones are not is said here, too. -/
namespace Intake
variable {α β ε : Type}

def Yields (result : Except ε α) (done : α → Prop) (failed : ε → Prop) : Prop :=
  match result with
  | .ok a => done a
  | .error error => failed error

namespace Yields
variable {done : α → Prop} {failed : ε → Prop}

theorem bind {first : Except ε α} {next : α → Except ε β} {done' : β → Prop}
    (yields : Yields first done failed) (rest : ∀ a, done a → Yields (next a) done' failed) :
    Yields (first >>= next) done' failed := by
  cases first with
  | ok a => exact rest a yields
  | error error => exact yields

theorem mapError {ε' : Type} {result : Except ε α} {f : ε → ε'} {failed : ε' → Prop}
    (yields : Yields result done fun error => failed (f error)) :
    Yields (result.mapError f) done failed := by
  cases result <;> exact yields

end Yields

inductive Unready
  | settings (error : SettingsError)
  | store (error : StoreError)
  deriving DecidableEq, Repr

namespace Settings
variable {config : Section} {homes : Text → Option Path}

def ready (config : Section) (homes : Text → Option Path) (tree : FileTree) (now : Int) :
    Except Unready (Settings × ProgressStore) := do
  let settings ← (ofConfig config).mapError .settings
  let store ← (settings.checkpointStore homes tree now).mapError .store
  return (settings, store)

/-! What a configuration says. -/

def entriesOf (config : Section) (name : Text) : Section :=
  match Datum.get? name config with
  | some (.map entries) => entries
  | _ => []

def setting (config : Section) (name key : Text) (usual : Datum) : Datum :=
  (Datum.get? key (entriesOf config name)).getD usual

def sectionNames : List Text := ["api", "checkpoints", "import", "writer"]

inductive Measure
  | timeout
  | freshness
  | callsPerMinute
  | delay

namespace Measure

def name : Measure → Text
  | timeout => "api.timeout"
  | freshness => "checkpoints.freshness_days"
  | callsPerMinute => "writer.rate_limit_per_minute"
  | delay => "writer.delay_seconds"

def datum (config : Section) : Measure → Datum
  | timeout => setting config "api" "timeout" (.real (.ofRat 30))
  | freshness => setting config "checkpoints" "freshness_days" (.integer 7)
  | callsPerMinute => setting config "writer" "rate_limit_per_minute" .null
  | delay => setting config "writer" "delay_seconds" .null

end Measure

inductive Denotes : Datum → Binary64 → Prop
  | boolean (value : Bool) : Denotes (.boolean value) (.ofRat (if value then 1 else 0))
  | integer {i : Int} {x : Binary64} (near : Binary64.ofInt? i = some x) : Denotes (.integer i) x
  | real (x : Binary64) : Denotes (.real x) x
  | text {t : Text} {x : Binary64} (read : numeral? t = some x) : Denotes (.text t) x
  | bytes {value : Bytes} {t : Text} {x : Binary64} (ascii : asciiOf? value = some t)
      (read : numeral? t = some x) : Denotes (.bytes value) x

def IsSilent (datum : Datum) : Prop := datum = .null ∨ datum = .text []

def Answers (datum : Datum) (answer : Option Binary64) : Prop :=
  answer = none ∧ IsSilent datum ∨ ∃ x, answer = some x ∧ Denotes datum x

inductive Keeps (config : Section) : Path → Prop
  | usual (silent : (setting config "checkpoints" "directory" .null).isVoid = true) :
      Keeps config defaultDirectory
  | named {t : Text} (given : setting config "checkpoints" "directory" .null = .text t)
      (shown : t ≠ []) : Keeps config (.ofText t)

def IsInHome (p : Path) (account : Text) : Prop :=
  p.root = [] ∧ p.parts.head? = some (.scalar '~' :: account)

structure Sound (homes : Text → Option Path) (config : Section) : Prop where
  sections : ∀ name ∈ sectionNames, ∀ datum, Datum.get? name config = some datum →
    datum.isVoid = true ∨ ∃ entries, datum = .map entries
  batchSize : ∃ n : Int, 0 < n ∧ setting config "import" "batch_size" (.integer 25) = .integer n
  measures : ∀ m : Measure, IsSilent (m.datum config) ∨ ∃ x, Denotes (m.datum config) x
  freshness : ∃ x days, Denotes (Measure.freshness.datum config) x ∧ x.toRat? = some days ∧
    0 < days ∧ days < 1000000000
  options : ∃ entries, setting config "writer" "options" (.map []) = .map entries
  directory : ∃ p, Keeps config p ∧ ∀ account, IsInHome p account →
    FileTree.checkNames ⟨[], [account]⟩ = .ok () ∧ (homes account).isSome = true

inductive Wrong (config : Section) : ConfigError → Prop
  | notSection {name : Text} {datum : Datum} (known : name ∈ sectionNames)
      (given : Datum.get? name config = some datum) (shown : datum.isVoid = false)
      (noMap : ∀ entries, datum ≠ .map entries) : Wrong config (.notSection name)
  | batchSize (wrong : ∀ n : Int, setting config "import" "batch_size" (.integer 25) = .integer n →
      n ≤ 0) : Wrong config .badBatchSize
  | notNumber (m : Measure) (asked : ¬ IsSilent (m.datum config))
      (noInteger : ∀ i, m.datum config ≠ .integer i) (nothing : ∀ x, ¬ Denotes (m.datum config) x) :
      Wrong config (.notNumber m.name)
  | noFreshness (silent : IsSilent (Measure.freshness.datum config)) : Wrong config .badFreshness
  | badFreshness {x : Binary64} (given : Denotes (Measure.freshness.datum config) x)
      (low : x = .infinite true ∨ ∃ days, x.toRat? = some days ∧ days ≤ 0) :
      Wrong config .badFreshness
  | options (noMap : ∀ entries, setting config "writer" "options" (.map []) ≠ .map entries) :
      Wrong config .badOptions

inductive Unreported (homes : Text → Option Path) (config : Section) : Unready → Prop
  /-- a whole number that is not near to any value -/
  | overflow (m : Measure) {i : Int} (given : m.datum config = .integer i)
      (huge : Binary64.leastOverflow ≤ i.natAbs) :
      Unreported homes config (.settings .overflow)
  /-- a directory that is neither silent nor a text -/
  | notPath (shown : (setting config "checkpoints" "directory" .null).isVoid = false)
      (noText : ∀ t, setting config "checkpoints" "directory" .null ≠ .text t) :
      Unreported homes config (.settings .notPath)
  /-- a directory in the home of an account that nobody can have -/
  | account {p : Path} (keeps : Keeps config p) {account : Text} (inHome : IsInHome p account)
      {error : FileError} (refused : FileTree.checkNames ⟨[], [account]⟩ = .error error) :
      Unreported homes config (.store (.account error))
  /-- a directory in the home of an account that nobody has -/
  | homeless {p : Path} (keeps : Keeps config p) {account : Text} (inHome : IsInHome p account)
      (unknown : homes account = none) : Unreported homes config (.store .homeless)
  /-- a freshness that is no number -/
  | undefined (given : Denotes (Measure.freshness.datum config) .nan) :
      Unreported homes config (.store (.window .undefined))
  /-- a freshness of a billion days or more -/
  | unbounded {x : Binary64} (given : Denotes (Measure.freshness.datum config) x)
      (great : x = .infinite false ∨ ∃ days, x.toRat? = some days ∧ 1000000000 ≤ days) :
      Unreported homes config (.store (.window .unbounded))

def Caused (homes : Text → Option Path) (config : Section) : Unready → Prop
  | .settings (.invalid error) => Wrong config error
  | error => Unreported homes config error

/-! What is read. -/

theorem yields_section {name : Text} (known : name ∈ sectionNames) :
    Yields (section? config name)
      (fun entries => entries = entriesOf config name ∧
        ∀ datum, Datum.get? name config = some datum →
          datum.isVoid = true ∨ ∃ entries, datum = .map entries)
      (fun error => Caused homes config (.settings error)) := by
  unfold section? entriesOf
  split <;> rename_i given
  · simp [Yields, given]
  · simp [Yields, given]
  · rename_i datum noMap
    split_ifs with silent
    · refine ⟨?_, fun datum' given' => .inl ?_⟩
      · split
        · rename_i entries given'
          exact (noMap entries (Option.some.inj (given.symm.trans given'))).elim
        · rfl
      · rwa [← Option.some.inj (given.symm.trans given')]
    · exact Wrong.notSection known given (by simpa using silent) fun entries => noMap entries

theorem yields_real (m : Measure) (asked : ¬ IsSilent (m.datum config)) :
    Yields (real m.name (m.datum config)) (Denotes (m.datum config))
      (fun error => Caused homes config (.settings error)) := by
  have wrong := fun noInteger nothing => Wrong.notNumber m asked noInteger nothing
  have overflow := @Unreported.overflow homes config m
  generalize m.datum config = datum at wrong overflow
  unfold real
  cases datum with
  | boolean value => exact .boolean value
  | integer i =>
    dsimp only
    split
    · exact .integer ‹_›
    · rename_i far
      refine overflow rfl (Nat.le_of_not_lt fun near => ?_)
      rw [← Binary64.isSome_ofInt?_iff, far] at near
      cases near
  | real x => exact .real x
  | text t =>
    dsimp only
    split
    · exact .text ‹_›
    · rename_i unread
      exact wrong nofun fun x denotes => by
        cases denotes with
        | text read => cases unread.symm.trans read
  | bytes value =>
    dsimp only
    split
    · rename_i x read
      obtain ⟨t, ascii, read⟩ := Option.bind_eq_some_iff.mp read
      exact .bytes ascii read
    · rename_i unread
      exact wrong nofun fun x denotes => by
        cases denotes with
        | bytes ascii read => simp [ascii, read] at unread
  | null | list | map | moment | set =>
    refine wrong (fun _ same => ?_) fun _ denotes => ?_
    · cases same
    · cases denotes

theorem yields_optionalReal (m : Measure) :
    Yields (optionalReal m.name (m.datum config)) (Answers (m.datum config))
      (fun error => Caused homes config (.settings error)) := by
  have asked := @yields_real config homes m
  unfold optionalReal
  split <;> rename_i given
  · exact .inl ⟨rfl, .inl given⟩
  · exact .inl ⟨rfl, .inr given⟩
  · rename_i noNull
    have read := asked fun silent => silent.elim noNull given
    cases same : real m.name (m.datum config) with
    | ok x => exact .inr ⟨x, rfl, by rwa [same] at read⟩
    | error error => rwa [same] at read

end Settings

namespace Binary64

theorem le_zero_iff {x : Binary64} : x.le (zero false) = true ↔
    x = infinite true ∨ ∃ r, x.toRat? = some r ∧ r ≤ 0 := by
  have origin : zero false = finite false 0 (-1074) (by decide) := ofParts_of_canonical _
  rw [origin]
  cases x with
  | nan => simp [le, lt, same, toRat?]
  | infinite negative => simp [le, lt, same, toRat?, isZero]
  | finite negative significand exponent canonical =>
    have power : (0 : ℚ) < 2 ^ exponent := by positivity
    obtain rfl | some := Nat.eq_zero_or_pos significand
    · simp [le, lt, same, toRat?, isZero]
    · have magnitude : (0 : ℚ) < significand * 2 ^ exponent := by positivity
      cases negative <;>
        simp [le, lt, same, toRat?, isZero, magnitude, magnitude.le, magnitude.not_ge, some.ne']

end Binary64

namespace Settings
variable {config : Section} {homes : Text → Option Path}

theorem yields_freshness :
    Yields (freshnessOf (Measure.freshness.datum config))
      (fun x => Denotes (Measure.freshness.datum config) x ∧ x.le (.zero false) = false)
      (fun error => Caused homes config (.settings error)) := by
  refine (yields_optionalReal .freshness).bind fun answer read => ?_
  obtain ⟨rfl, silent⟩ | ⟨x, rfl, denotes⟩ := read
  · exact Wrong.noFreshness silent
  · dsimp only
    split_ifs with low
    · exact Wrong.badFreshness denotes (Binary64.le_zero_iff.mp low)
    · exact ⟨denotes, by simpa using low⟩

theorem yields_batchSize :
    Yields (batchSizeOf (setting config "import" "batch_size" (.integer 25)))
      (fun n => 0 < n ∧ setting config "import" "batch_size" (.integer 25) = .integer n)
      (fun error => Caused homes config (.settings error)) := by
  unfold batchSizeOf
  split <;> rename_i given
  · split_ifs with positive
    · exact ⟨positive, given⟩
    · refine Wrong.batchSize fun n same => ?_
      cases given.symm.trans same
      omega
  · exact Wrong.batchSize fun n same => (given n same).elim

theorem yields_directory :
    Yields (directoryOf (setting config "checkpoints" "directory" .null)) (Keeps config)
      (fun error => Caused homes config (.settings error)) := by
  unfold directoryOf
  split_ifs with silent
  · exact .usual silent
  · split <;> rename_i given
    · refine .named given ?_
      rintro rfl
      simp [given, Datum.isVoid] at silent
    · exact Unreported.notPath (by simpa using silent) given

structure Read (config : Section) (s : Settings) : Prop where
  sections : ∀ name ∈ sectionNames, ∀ datum, Datum.get? name config = some datum →
    datum.isVoid = true ∨ ∃ entries, datum = .map entries
  batchSize : setting config "import" "batch_size" (.integer 25) = .integer s.batchSize
  positive : 0 < s.batchSize
  timeout : Answers (Measure.timeout.datum config) s.timeout
  freshness : Denotes (Measure.freshness.datum config) s.freshnessDays
  fresh : s.freshnessDays.le (.zero false) = false
  callsPerMinute : Answers (Measure.callsPerMinute.datum config) s.callsPerMinute
  delay : ∃ answer, Answers (Measure.delay.datum config) answer ∧ s.delaySeconds = delayOf answer
  options : setting config "writer" "options" (.map []) = .map s.deliveryOptions
  directory : Keeps config s.checkpointDirectory

theorem Answers.readable {datum : Datum} {answer : Option Binary64}
    (answers : Answers datum answer) : IsSilent datum ∨ ∃ x, Denotes datum x :=
  answers.imp And.right fun ⟨x, _, denotes⟩ => ⟨x, denotes⟩

theorem Read.measures {s : Settings} (read : Read config s) (m : Measure) :
    IsSilent (m.datum config) ∨ ∃ x, Denotes (m.datum config) x := by
  cases m with
  | timeout => exact read.timeout.readable
  | freshness => exact .inr ⟨_, read.freshness⟩
  | callsPerMinute => exact read.callsPerMinute.readable
  | delay =>
    obtain ⟨answer, answers, -⟩ := read.delay
    exact answers.readable

theorem yields_ofConfig :
    Yields (ofConfig config) (Read config) (fun error => Caused homes config (.settings error)) := by
  unfold ofConfig
  refine (yields_section (by decide)).bind fun api found => ?_
  obtain ⟨rfl, api⟩ := found
  refine (yields_section (by decide)).bind fun checkpoints found => ?_
  obtain ⟨rfl, checkpoints⟩ := found
  refine (yields_section (by decide)).bind fun imports found => ?_
  obtain ⟨rfl, imports⟩ := found
  refine (yields_section (by decide)).bind fun writer found => ?_
  obtain ⟨rfl, writer⟩ := found
  refine yields_batchSize.bind fun n batchSize => ?_
  refine yields_freshness.bind fun days freshness => ?_
  split
  · rename_i options given
    refine (yields_optionalReal .timeout).bind fun timeout timed => ?_
    refine yields_directory.bind fun directory kept => ?_
    refine (yields_optionalReal .callsPerMinute).bind fun calls called => ?_
    refine (yields_optionalReal .delay).bind fun delay delayed => ?_
    refine ⟨?_, batchSize.2, batchSize.1, timed, freshness.1, freshness.2, called,
      ⟨delay, delayed, rfl⟩, given, kept⟩
    simpa only [sectionNames, List.forall_mem_cons, List.not_mem_nil, false_imp_iff, implies_true,
      and_true] using ⟨api, checkpoints, imports, writer⟩
  · exact Wrong.options ‹_›

/-! The store of progress. -/

theorem yields_directoryAt {p : Path} (keeps : Keeps config p) :
    Yields (directoryAt homes p)
      (fun _ => ∀ account, IsInHome p account →
        FileTree.checkNames ⟨[], [account]⟩ = .ok () ∧ (homes account).isSome = true)
      (fun error => Caused homes config (.store error)) := by
  unfold directoryAt
  split
  · rename_i account rest root parts
    have inHome : IsInHome p account := ⟨root, by rw [parts]; rfl⟩
    have same {other : Text} (other_inHome : IsInHome p other) : other = account := by
      have first := inHome.2.symm.trans other_inHome.2
      simpa using first.symm
    cases checked : FileTree.checkNames ⟨[], [account]⟩ with
    | error error => exact Unreported.account keeps inHome checked
    | ok done =>
      cases known : homes account with
      | none => exact Unreported.homeless keeps inHome known
      | some home =>
        intro other other_inHome
        rw [same other_inHome, known]
        exact ⟨checked, rfl⟩
  · rename_i elsewhere
    intro account inHome
    obtain ⟨root, first⟩ := inHome
    obtain ⟨rest, parts⟩ := List.head?_eq_some_iff.mp first
    exact (elsewhere _ _ root parts).elim

theorem yields_window {x : Binary64} (given : Denotes (Measure.freshness.datum config) x)
    (fresh : x.le (.zero false) = false) :
    Yields ((Duration.ofDays (.real x)).mapError StoreError.window)
      (fun _ => ∃ days, x.toRat? = some days ∧ 0 < days ∧ days < 1000000000)
      (fun error => Caused homes config (.store error)) := by
  have low : ¬ (x = .infinite true ∨ ∃ days, x.toRat? = some days ∧ days ≤ 0) := by
    rw [← Binary64.le_zero_iff, fresh]
    decide
  cases x with
  | nan => exact Unreported.undefined given
  | infinite negative =>
    cases negative with
    | true => exact (low (.inl rfl)).elim
    | false => exact Unreported.unbounded given (.inl rfl)
  | finite negative significand exponent canonical =>
    obtain ⟨days, value⟩ : ∃ days,
        (Binary64.finite negative significand exponent canonical).toRat? = some days := ⟨_, rfl⟩
    have positive : 0 < days := lt_of_not_ge fun below => low (.inr ⟨days, value, below⟩)
    obtain ⟨spans, exceeds⟩ := Duration.ofDays_of_natural value positive.le
    obtain below | beyond := lt_or_ge days 1000000000
    · obtain ⟨window, span⟩ := spans below
      rw [span]
      exact ⟨days, value, positive, below⟩
    · rw [exceeds beyond]
      exact Unreported.unbounded given (.inr ⟨days, value, beyond⟩)

theorem yields_ready (tree : FileTree) (now : Int) :
    Yields (ready config homes tree now)
      (fun made => Sound homes config ∧ Read config made.1 ∧ 0 < made.1.batchSize ∧
        ∃ days, made.1.freshnessDays.toRat? = some days ∧ 0 < days)
      (Caused homes config) := by
  refine yields_ofConfig.mapError.bind fun s read => ?_
  have stored : Yields (s.checkpointStore homes tree now)
      (fun _ => Sound homes config ∧ ∃ days, s.freshnessDays.toRat? = some days ∧ 0 < days)
      (fun error => Caused homes config (.store error)) := by
    refine (yields_directoryAt read.directory).bind fun directory found => ?_
    refine (yields_window read.freshness read.fresh).bind fun window fresh => ?_
    obtain ⟨days, value, positive, below⟩ := fresh
    have sound : Sound homes config :=
      ⟨read.sections, ⟨_, read.positive, read.batchSize⟩, read.measures,
        ⟨_, days, read.freshness, value, positive, below⟩, ⟨_, read.options⟩,
        ⟨_, read.directory, found⟩⟩
    exact ⟨sound, days, value, positive⟩
  exact stored.mapError.bind fun store made => ⟨made.1, read, read.positive, made.2⟩

/-! An error has its cause in what is not sound. -/

theorem Denotes.unique {datum : Datum} {x y : Binary64} (first : Denotes datum x)
    (second : Denotes datum y) : x = y := by
  cases first with
  | boolean | real => cases second; rfl
  | integer near =>
    cases second with
    | integer near' => exact Option.some.inj (near.symm.trans near')
  | text read =>
    cases second with
    | text read' => exact Option.some.inj (read.symm.trans read')
  | bytes ascii read =>
    cases second with
    | bytes ascii' read' =>
      obtain rfl := Option.some.inj (ascii.symm.trans ascii')
      exact Option.some.inj (read.symm.trans read')

theorem Keeps.unique {p q : Path} (first : Keeps config p) (second : Keeps config q) : p = q := by
  cases first with
  | usual silent =>
    cases second with
    | usual => rfl
    | named given shown =>
      rw [given] at silent
      simp [Datum.isVoid, shown] at silent
  | named given shown =>
    cases second with
    | usual silent =>
      rw [given] at silent
      simp [Datum.isVoid, shown] at silent
    | named given' => cases given.symm.trans given'; rfl

theorem not_denotes_of_isSilent {datum : Datum} (silent : IsSilent datum) (x : Binary64) :
    ¬ Denotes datum x := by
  have unread : numeral? [] = none := by decide +kernel
  intro denotes
  obtain rfl | rfl := silent
  · cases denotes
  · cases denotes with
    | text read => cases unread.symm.trans read

theorem Wrong.not_sound {error : ConfigError} (wrong : Wrong config error) :
    ¬ Sound homes config := by
  intro sound
  obtain ⟨x, days, denotes, value, positive, -⟩ := sound.freshness
  cases wrong with
  | notSection known given shown noMap =>
    obtain silent | ⟨entries, map⟩ := sound.sections _ known _ given
    · cases shown.symm.trans silent
    · exact noMap entries map
  | batchSize wrong =>
    obtain ⟨n, some, given⟩ := sound.batchSize
    exact (wrong n given).not_gt some
  | notNumber m asked _ nothing =>
    obtain silent | ⟨x, denotes⟩ := sound.measures m
    · exact asked silent
    · exact nothing x denotes
  | noFreshness silent => exact not_denotes_of_isSilent silent x denotes
  | badFreshness given low =>
    cases given.unique denotes
    obtain rfl | ⟨days', value', below⟩ := low
    · cases value
    · cases value.symm.trans value'
      exact below.not_gt positive
  | options noMap =>
    obtain ⟨entries, given⟩ := sound.options
    exact noMap entries given

theorem Unreported.not_sound {error : Unready} (unreported : Unreported homes config error) :
    ¬ Sound homes config := by
  intro sound
  obtain ⟨x, days, denotes, value, -, below⟩ := sound.freshness
  obtain ⟨p, keeps, inHomes⟩ := sound.directory
  cases unreported with
  | overflow m given huge =>
    obtain silent | ⟨x, denotes⟩ := sound.measures m
    · rw [given] at silent
      exact silent.elim nofun nofun
    · rw [given] at denotes
      cases denotes with
      | integer near =>
        have inRange := Binary64.isSome_ofInt?_iff.mp (Option.isSome_of_eq_some near)
        exact huge.not_gt inRange
  | notPath shown noText =>
    cases keeps with
    | usual silent => cases shown.symm.trans silent
    | named given => exact noText _ given
  | account keeps' inHome refused =>
    cases keeps'.unique keeps
    cases refused.symm.trans (inHomes _ inHome).1
  | homeless keeps' inHome unknown =>
    cases keeps'.unique keeps
    have known := (inHomes _ inHome).2
    rw [unknown] at known
    cases known
  | undefined given =>
    cases given.unique denotes
    cases value
  | unbounded given great =>
    cases given.unique denotes
    obtain rfl | ⟨days', value', beyond⟩ := great
    · cases value
    · cases value.symm.trans value'
      exact beyond.not_gt below

/-- A configuration makes settings with a store of progress if it is sound. They say what it says, with
a positive size of batches and a positive, finite freshness. Else the error says what is wrong with the
configuration, unless it is one of those that report nothing: a number beyond floating point, a
directory that is no text or lies in a home that there is not, or a freshness that is no number or no
span of time. -/
theorem ready_settled (config : Section) (homes : Text → Option Path) (tree : FileTree)
    (now : Int) :
    match ready config homes tree now with
    | .ok (settings, _) => Sound homes config ∧ Read config settings ∧ 0 < settings.batchSize ∧
        ∃ days, settings.freshnessDays.toRat? = some days ∧ 0 < days
    | .error (.settings (.invalid error)) => ¬ Sound homes config ∧ Wrong config error
    | .error error => ¬ Sound homes config ∧ Unreported homes config error := by
  have yields := @yields_ready config homes tree now
  split <;> rename_i same <;> rw [same] at yields
  · exact yields
  · exact ⟨Wrong.not_sound yields, yields⟩
  · rename_i error other
    have unreported : Unreported homes config error := by
      change Caused homes config error at yields
      unfold Caused at yields
      split at yields
      · exact (other _ rfl).elim
      · exact yields
    exact ⟨unreported.not_sound, unreported⟩

def sampleConfig (name key : Text) (datum : Datum) : Section :=
  [(.text name, .map [(.text key, datum)])]

def sampleHomes (account : Text) : Option Path :=
  if account.isEmpty then some (.ofText "/home/ann") else none

def sampleError? (name key : Text) (datum : Datum) : Option Unready :=
  match ready (sampleConfig name key datum) sampleHomes .empty 0 with
  | .ok _ => none
  | .error error => some error

/-- Six entries for which no error says what is wrong with the configuration. -/
theorem entries_unreported :
    sampleError? "api" "timeout" (.integer (10 ^ 309)) = some (.settings .overflow) ∧
    sampleError? "checkpoints" "directory" (.integer 5) = some (.settings .notPath) ∧
    sampleError? "checkpoints" "directory" (.text "~nobody/progress") = some (.store .homeless) ∧
    sampleError? "checkpoints" "freshness_days" (.real .nan)
      = some (.store (.window .undefined)) ∧
    sampleError? "checkpoints" "freshness_days" (.real (.infinite false))
      = some (.store (.window .unbounded)) ∧
    sampleError? "checkpoints" "freshness_days" (.integer 1000000000)
      = some (.store (.window .unbounded)) := by
  decide +kernel

end Settings
end Intake
