import Intake.Calendar.Reader
import Intake.Delivery.Http
import Intake.Proofs.Cell
import Intake.Proofs.Json.Within

/-! Which contacts can be put in a request. A body is written for a contact of a row exactly if each
number of it is finite and no surrogate stands in a text of it, and it is read back as what was to be
sent. The cells of all kinds but one take care of the numbers: a cell that is read as JSON may hold a
number that is not finite, and it may spell a surrogate. -/
namespace Intake

namespace Json

def Sendable : Json → Prop
  | real x => x.isFinite = true
  | text t => t.isScalar = true
  | object entries => ∀ entry ∈ entries, entry.1.isScalar = true
  | _ => True

private theorem isScalar_writePoint (c : CodePoint) :
    (writePoint false c).isScalar = c.isScalar := by
  have form := written false c
  generalize writePoint false c = t at form
  have scalar {c : CodePoint} (outside : c.value < 0xD800 ∨ 0xE000 ≤ c.value) :
      c.isScalar = true := by
    cases c with
    | scalar c => rfl
    | surrogate half =>
      have := half.isLt
      simp only [CodePoint.value] at outside
      omega
  cases form with
  | unit basic needed =>
    have control : c.value < 0x20 := by simpa using needed
    rw [scalar (.inl (by omega)), Text.isScalar_of_isPlain (isPlain_unitEscape basic)]
  | pair high low isHigh isLow whole =>
    rw [scalar (.inr (by omega)), Text.isScalar_append,
      Text.isScalar_of_isPlain (isPlain_unitEscape (by omega)),
      Text.isScalar_of_isPlain (isPlain_unitEscape (by omega))]
    rfl
  | letter name char plain named same =>
    subst same
    rfl
  | itself unquoted unescaped shown => simp

theorem isScalar_writeString (t : Text) : (writeString false t).isScalar = t.isScalar := by
  have each : Text.isScalar (t.flatMap (writePoint false)) = t.isScalar := by
    induction t with
    | nil => rfl
    | cons c t ih => simp [isScalar_writePoint, ih]
  have quote : CodePoint.isScalar (.scalar '"') = true := rfl
  simp [writeString, each, quote]

mutual

/-- A body without surrogates is what is written for texts and keys without them. -/
theorem isScalar_write : ∀ (j : Json) {t : Text}, write compact j = .ok t →
    (t.isScalar = true ↔ ∀ v, Within v j → Sendable v)
  | null => by
    intro written
    cases written
    exact ⟨fun _ v inside => by cases inside; trivial, fun _ => rfl⟩
  | boolean value => by
    intro written
    cases written
    exact ⟨fun _ v inside => by cases inside; trivial, fun _ => by cases value <;> rfl⟩
  | integer i => by
    intro written
    rw [write] at written
    have plain := Text.isScalar_of_isPlain (isPlain_writeInteger written)
    exact ⟨fun _ v inside => by cases inside; trivial, fun _ => plain⟩
  | real x => by
    intro written
    cases x with
    | nan | infinite _ => cases written
    | finite negative significand exponent canonical =>
      cases written
      have plain := Text.isScalar_of_isPlain
        (Binary64.isPlain_text (.finite negative significand exponent canonical))
      exact ⟨fun _ v inside => by cases inside; rfl, fun _ => plain⟩
  | text value => by
    intro written
    cases written
    change (writeString false value).isScalar = true ↔ _
    rw [isScalar_writeString]
    exact ⟨fun scalar v inside => by cases inside; exact scalar, fun each => each _ .self⟩
  | list items => by
    intro written
    obtain ⟨texts, parts, rfl⟩ := write_list written
    have comma : compact.comma.isScalar = true := rfl
    rw [forall_within_list, ← isScalar_writeItems items parts, ← Text.isScalar_join comma]
    simp [Sendable, CodePoint.isScalar, CodePoint.char?]
  | object entries => by
    intro written
    obtain ⟨texts, parts, rfl⟩ := write_object written
    have comma : compact.comma.isScalar = true := rfl
    rw [forall_within_object, Sendable, ← forall₂_and, ← isScalar_writeEntries entries parts,
      ← Text.isScalar_join comma]
    simp [CodePoint.isScalar, CodePoint.char?]

theorem isScalar_writeItems : ∀ (items : List Json) {texts : List Text},
    writeItems compact items = .ok texts →
    ((∀ t ∈ texts, t.isScalar = true) ↔ ∀ item ∈ items, ∀ v, Within v item → Sendable v)
  | [] => by
    intro written
    cases written
    simp
  | item :: items => by
    intro written
    obtain ⟨t, rest, first, others, rfl⟩ := writeItems_cons written
    rw [List.forall_mem_cons, List.forall_mem_cons, isScalar_write item first,
      isScalar_writeItems items others]

theorem isScalar_writeEntries : ∀ (entries : List (Text × Json)) {texts : List Text},
    writeEntries compact entries = .ok texts →
    ((∀ t ∈ texts, t.isScalar = true) ↔
      ∀ entry ∈ entries, entry.1.isScalar = true ∧ ∀ v, Within v entry.2 → Sendable v)
  | [] => by
    intro written
    cases written
    simp
  | (key, value) :: entries => by
    intro written
    obtain ⟨t, rest, first, others, rfl⟩ := writeEntries_cons written
    have name : (writeString compact.ascii key).isScalar = key.isScalar := isScalar_writeString key
    have colon : compact.colon.isScalar = true := rfl
    rw [List.forall_mem_cons, List.forall_mem_cons, ← isScalar_write value first,
      ← isScalar_writeEntries entries others]
    simp [name, colon]

end

/-! What was read and what a cell is read as. -/

theorem Readable.short {characters : Prop} {depth : Nat} {value : Json} {i : Int}
    (readable : Readable characters depth value) (inside : Within (Json.integer i) value) : i.natAbs < 10 ^ digitLimit := by
  induction inside generalizing depth with
  | self =>
    cases readable with
    | integer short => exact short
  | item listed _ ih =>
    cases readable with
    | list all => exact ih (all _ listed)
  | entry listed _ ih =>
    cases readable with
    | object once named all => exact ih (all _ listed)

/-- Where surrogates are not escaped, whatever was read can be told from its written form. -/
theorem Readable.faithful {characters : Prop} {depth : Nat} {value : Json}
    (readable : Readable characters depth value) : Faithful compact depth value := by
  induction readable with
  | null => exact .null
  | boolean value => exact .boolean value
  | integer short => exact .integer _
  | real value => exact .real value
  | text joined => exact .text fun escaped => by cases escaped
  | list all ih => exact .list ih
  | object once named all ih => exact .object once (fun _ _ escaped => by cases escaped) ih

end Json

namespace Kind
variable {kind : Kind} {dates : Dates} {raw : Text} {value : Json}

/-- A cell that is not read as JSON becomes null, a text, or a finite number. -/
theorem coerce_plain {t : Text} (other : kind ≠ .json)
    (coerced : kind.coerce dates t = .ok (.value value)) :
    (∃ x : Binary64, value = .real x ∧ x.isFinite = true) ∨ ∃ t, value = .text t := by
  cases kind with
  | json => exact absurd rfl other
  | string =>
    cases coerced
    exact .inr ⟨t, rfl⟩
  | date =>
    simp only [coerce, coerceDate, Except.ok.injEq] at coerced
    split at coerced
    · cases coerced
      exact .inr ⟨_, rfl⟩
    · cases coerced
  | number =>
    simp only [coerce, coerceNumber, Except.ok.injEq] at coerced
    split_ifs at coerced
    split at coerced
    · cases coerced
    · rename_i x _
      split_ifs at coerced with finite
      cases coerced
      exact .inl ⟨x, rfl, finite⟩

theorem coerce_json {t : Text} (coerced : Kind.json.coerce dates t = .ok (.value value)) :
    Json.read t = .ok value := by
  simp only [coerce, coerceJson] at coerced
  split at coerced <;> cases coerced
  assumption

theorem readable_parse (parsed : kind.parse dates raw = .ok value) :
    Json.Readable False Json.depthLimit value := by
  have became := kind.parsed dates raw
  rw [parsed] at became
  cases became with
  | blank | rejected => exact .null
  | value coerced =>
    by_cases json : kind = .json
    · subst json
      exact Json.readable_read False.elim (coerce_json coerced)
    · rcases coerce_plain json coerced with ⟨x, rfl, _⟩ | ⟨t, rfl⟩
      · exact .real x
      · exact .text False.elim

theorem finite_parse (other : kind ≠ .json) (parsed : kind.parse dates raw = .ok value)
    {x : Binary64} (inside : Json.Within (.real x) value) : x.isFinite = true := by
  have became := kind.parsed dates raw
  rw [parsed] at became
  cases became with
  | blank | rejected => cases inside
  | value coerced =>
    rcases coerce_plain other coerced with ⟨y, rfl, finite⟩ | ⟨t, rfl⟩
    · cases inside
      exact finite
    · cases inside

end Kind

namespace Http
variable {target : Target} {delivery : Delivery}

theorem request_eq_ok {r : Request} (sent : request target delivery = .ok r) :
    ∃ text, (payload delivery).write Json.compact = .ok text ∧
      Text.encodeUtf8 text = some r.body ∧ r.url = base target.address ++ path delivery := by
  unfold request at sent
  cases written : (payload delivery).write Json.compact with
  | error error => simp [written, Except.mapError, bind, Except.bind] at sent
  | ok text =>
    cases encoded : Text.encodeUtf8 text with
    | none =>
      simp [written, encoded, Except.mapError, bind, Except.bind, throw, throwThe,
        MonadExceptOf.throw] at sent
    | some body =>
      simp only [written, encoded, Except.mapError, bind, Except.bind, pure, Except.pure,
        Except.ok.injEq] at sent
      subst sent
      exact ⟨text, rfl, encoded, rfl⟩

theorem sendable_of_request {r : Request} (sent : request target delivery = .ok r) :
    ∀ v, Json.Within v (payload delivery) → v.Sendable := by
  obtain ⟨text, written, encoded, _⟩ := request_eq_ok sent
  exact (Json.isScalar_write _ written).mp (Text.isScalar_of_encodeUtf8 encoded)

/-- A request is made exactly if each value within its body can stand in it. -/
theorem exists_request_iff
    (short : ∀ i, Json.Within (.integer i) (payload delivery) → i.natAbs < 10 ^ Json.digitLimit) :
    (∃ r, request target delivery = .ok r) ↔
      ∀ v, Json.Within v (payload delivery) → v.Sendable := by
  constructor
  · rintro ⟨r, sent⟩
    exact sendable_of_request sent
  · intro each
    have spelled : ∀ v, Json.Within v (payload delivery) → Json.Spells Json.compact v := by
      intro v inside
      cases v with
      | integer i => exact short i inside
      | real x => exact .inr (each _ inside)
      | null | boolean _ | text _ | list _ | object _ => trivial
    obtain ⟨text, written⟩ := Json.exists_write_iff.mpr spelled
    obtain ⟨body, encoded, _⟩ :=
      Text.decodeUtf8_encodeUtf8 ((Json.isScalar_write _ written).mpr each)
    simp only [request, written, encoded, Except.mapError, bind, Except.bind, pure, Except.pure]
    exact ⟨_, rfl⟩

/-- The body of a request is decoded as text and read as what was to be sent. -/
theorem readValue_body {depth : Nat} (faithful : Json.Faithful Json.compact depth (payload delivery))
    {r : Request} (sent : request target delivery = .ok r) :
    ∃ text, Text.decodeUtf8 false r.body = some text ∧
      Json.readValue (2 * text.length) depth text = .ok (payload delivery, []) := by
  obtain ⟨text, written, encoded, _⟩ := request_eq_ok sent
  obtain ⟨body, encoded', decoded⟩ :=
    Text.decodeUtf8_encodeUtf8 (Text.isScalar_of_encodeUtf8 encoded)
  cases encoded.symm.trans encoded'
  have read := Json.reads_of_faithful Json.compact_regular faithful text written (2 * text.length) []
    (Nat.le_refl _) (.inl rfl)
  rw [List.append_nil] at read
  exact ⟨text, decoded, read⟩

private theorem within_payload {v : Json} (inside : Json.Within v (payload delivery))
    (number : (∃ i, v = .integer i) ∨ ∃ x, v = .real x) :
    ∃ entry ∈ delivery.contact, Json.Within v entry.2 := by
  have whole : Json.Within v (.object delivery.contact) := by
    cases delivery with
    | upsert workspace contact =>
      cases inside with
      | self => simp [payload] at number
      | entry listed inside =>
        simp only [List.mem_cons, List.not_mem_nil, or_false] at listed
        rcases listed with rfl | rfl
        · cases inside
          simp at number
        · exact inside
    | subscribe workspace contact lists =>
      cases inside with
      | self => simp [payload] at number
      | entry listed inside =>
        simp only [List.mem_cons, List.not_mem_nil, or_false] at listed
        rcases listed with rfl | rfl | rfl
        · cases inside
          simp at number
        · exact inside
        · cases inside with
          | self => simp at number
          | item listed inside =>
            obtain ⟨list, _, rfl⟩ := List.mem_map.mp listed
            cases inside
            simp at number
  cases whole with
  | self => simp at number
  | entry listed inside => exact ⟨_, listed, inside⟩

private theorem faithful_payload {depth : Nat} (once : (Entries.keys delivery.contact).Nodup)
    (each : ∀ entry ∈ delivery.contact, Json.Faithful Json.compact depth entry.2) :
    Json.Faithful Json.compact (depth + 2) (payload delivery) := by
  have unescaped {t : Text} (escaped : Json.compact.ascii = true) : t.isJoined = true := by
    cases escaped
  have contact : Json.Faithful Json.compact (depth + 1) (.object delivery.contact) :=
    .object once (fun _ _ => unescaped) each
  cases delivery with
  | upsert workspace =>
    refine .object (by simp only [Entries.keys, List.map_cons, List.map_nil]; decide +kernel)
      (fun _ _ => unescaped) ?_
    simpa using ⟨.text unescaped, contact⟩
  | subscribe workspace _ lists =>
    refine .object (by simp only [Entries.keys, List.map_cons, List.map_nil]; decide +kernel)
      (fun _ _ => unescaped) ?_
    have listed : Json.Faithful Json.compact (depth + 1) (.list (lists.map .text)) := by
      refine .list fun item here => ?_
      obtain ⟨list, _, rfl⟩ := List.mem_map.mp here
      exact .text unescaped
    simpa using ⟨.text unescaped, contact, listed⟩

/-- A contact that a row gives is put in a request exactly if no number in what is to be sent is
unbounded and no text or key of it holds a surrogate. The body of a request is read back as what was
to be sent, and only a cell that is read as JSON may give an unbounded number. -/
theorem request_of_build {dates : Dates} {file : ContactFile} {row : List Text} {mapping : Mapping}
    (once : (Entries.keys mapping).Nodup) (target : Target) (delivery : Delivery)
    (built : Contact.build dates file row mapping = .ok delivery.contact) :
    ((∃ r, request target delivery = .ok r) ↔
        ∀ v, Json.Within v (payload delivery) → v.Sendable) ∧
      (∀ r, request target delivery = .ok r →
        r.url = base target.address ++ path delivery ∧
        ∃ text, Text.decodeUtf8 false r.body = some text ∧
          Json.readValue (2 * text.length) (Json.depthLimit + 2) text
            = .ok (payload delivery, [])) ∧
      ∀ x : Binary64, Json.Within (.real x) (payload delivery) → x.isFinite = false →
        ∃ key header cell, (key, header) ∈ mapping ∧ Contact.cell? file row header = some cell ∧
          Attribute.kindOf key = .json ∧
          ∃ value, Json.read cell.strip = .ok value ∧ Json.Within (.real x) value := by
  obtain ⟨part, parsed⟩ := Contact.of_mem_build built
  have readable : ∀ entry ∈ delivery.contact, Json.Readable False Json.depthLimit entry.2 := by
    intro entry here
    obtain ⟨_, _, _, _, value⟩ := parsed entry here
    exact Kind.readable_parse value
  refine ⟨exists_request_iff ?_, ?_, ?_⟩
  · intro i inside
    obtain ⟨entry, here, inside⟩ := within_payload inside (.inl ⟨i, rfl⟩)
    exact (readable entry here).short inside
  · intro r sent
    obtain ⟨_, _, _, url⟩ := request_eq_ok sent
    refine ⟨url, readValue_body (faithful_payload (once.sublist part) ?_) sent⟩
    exact fun entry here => (readable entry here).faithful
  · intro x inside unbounded
    obtain ⟨entry, here, inside⟩ := within_payload inside (.inr ⟨x, rfl⟩)
    obtain ⟨header, cell, mapped, found, value⟩ := parsed entry here
    have json : Attribute.kindOf entry.1 = .json := by
      by_contra other
      simp [Kind.finite_parse other value inside] at unbounded
    have became := (Attribute.kindOf entry.1).parsed dates cell
    rw [value, json] at became
    refine ⟨entry.1, header, cell, mapped, found, json, entry.2, ?_, inside⟩
    generalize entry.2 = value at became inside
    cases became with
    | blank | rejected => cases inside
    | value coerced => exact Kind.coerce_json coerced

def sampleFile : ContactFile := ⟨"people.csv", ["email", "data"], [], 15⟩

def sampleMapping : Mapping := [(Attribute.emailKey, "email"), ("custom_json_1", "data")]

private theorem build_sample {dates : Dates} {cell : Text} {value : Json}
    (parsed : Kind.json.parse dates cell = .ok value) :
    Contact.build dates sampleFile ["ann@x.io", cell] sampleMapping
      = .ok [(Attribute.emailKey, .text "ann@x.io"), ("custom_json_1", value)] := by
  have first : Contact.cell? sampleFile ["ann@x.io", cell] "email" = some "ann@x.io" := rfl
  have second : Contact.cell? sampleFile ["ann@x.io", cell] "data" = some cell := rfl
  have json : Attribute.kindOf "custom_json_1" = .json := by decide +kernel
  simp only [sampleMapping, Contact.build_cons, first, second, json, parsed]
  rfl

/-- A cell that spells a text is sent, and the body of its request is read back. -/
theorem request_of_build_sample :
    let contact : Contact :=
      [(Attribute.emailKey, .text "ann@x.io"), ("custom_json_1", .text "é")]
    Contact.build (Calendar.own 0) sampleFile ["ann@x.io", "\"é\""] sampleMapping
        = .ok contact ∧
      ∃ r, request ⟨"https://api.x.io/", none⟩ (.subscribe "ws_1" contact ["l1"]) = .ok r ∧
        ∃ text, Text.decodeUtf8 false r.body = some text ∧
          Json.readValue (2 * text.length) (Json.depthLimit + 2) text
            = .ok (payload (.subscribe "ws_1" contact ["l1"]), []) := by
  intro contact
  have built : Contact.build (Calendar.own 0) sampleFile ["ann@x.io", "\"é\""] sampleMapping
      = .ok contact := build_sample rfl
  have result := request_of_build (by decide +kernel) ⟨"https://api.x.io/", none⟩
    (.subscribe "ws_1" contact ["l1"]) built
  have made : (request ⟨"https://api.x.io/", none⟩
      (.subscribe "ws_1" contact ["l1"])).isOk = true := by
    decide +kernel
  cases sent : request ⟨"https://api.x.io/", none⟩ (.subscribe "ws_1" contact ["l1"]) with
  | error error => simp [sent, Except.isOk, Except.toBool] at made
  | ok r => exact ⟨built, r, rfl, (result.2.1 r sent).2⟩

/-- A cell that names no number, and one that spells half of a surrogate pair, are read, and the
contacts that they give cannot be sent. -/
theorem read_cells_unsent :
    (∃ contact, Contact.build (Calendar.own 0) sampleFile ["ann@x.io", "NaN"] sampleMapping
        = .ok contact ∧
      contact.email? = some "ann@x.io" ∧
      ∀ target r, request target (.upsert "ws_1" contact) ≠ .ok r) ∧
    ∃ contact, Contact.build (Calendar.own 0) sampleFile ["ann@x.io", "\"\\ud800\""] sampleMapping
        = .ok contact ∧
      contact.email? = some "ann@x.io" ∧
      ∀ target r, request target (.upsert "ws_1" contact) ≠ .ok r := by
  have within (contact : Contact) {entry : Text × Json} (here : entry ∈ contact) :
      Json.Within entry.2 (payload (.upsert "ws_1" contact)) :=
    .entry (List.mem_cons_of_mem _ List.mem_cons_self) (.entry here .self)
  have email (value : Json) : Contact.email?
      [(Attribute.emailKey, .text "ann@x.io"), ("custom_json_1", value)] = some "ann@x.io" := by
    simp only [Contact.email?, Entries.get?, if_true]
    rfl
  have nan : Kind.json.parse (Calendar.own 0) "NaN" = .ok (.real .nan) := by rfl
  have half : Kind.json.parse (Calendar.own 0) "\"\\ud800\"" = .ok (.text [.surrogate 0]) := by
    have written : (Json.text [.surrogate 0]).write Json.stored = .ok "\"\\ud800\"" := by
      decide +kernel
    have read := Json.read_write Json.stored_regular (.text fun _ => rfl) written
    have bare : Text.strip "\"\\ud800\"" = Text.ofString "\"\\ud800\"" := by decide +kernel
    simp only [Kind.parse, Kind.readCell, bare, Kind.coerce, Kind.coerceJson, read]
    rfl
  refine ⟨⟨_, build_sample nan, email _, fun target r sent => ?_⟩,
    ⟨_, build_sample half, email _, fun target r sent => ?_⟩⟩
  · cases sendable_of_request sent _ (within _ (List.mem_cons_of_mem _ List.mem_cons_self))
  · cases sendable_of_request sent _ (within _ (List.mem_cons_of_mem _ List.mem_cons_self))

end Http
end Intake
