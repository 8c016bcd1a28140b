import Intake.Proofs.Delivery.Request
import Intake.Proofs.Json.Limits
import Mathlib.Data.List.TakeWhile

/-! What comes of a delivery over HTTP, whatever the transport has for a response. A response with a
status from 200 to 299 accepts it. Any other rejects it with the status, if there is one, and with a
message that is not blank, unless the values in the body are nested too deeply. -/
namespace Intake

namespace Text

private theorem all_dropWhile (t : Text) :
    (t.dropWhile CodePoint.isBlank).all CodePoint.isBlank = t.all CodePoint.isBlank := by
  induction t with
  | nil => rfl
  | cons c t ih => cases blank : c.isBlank <;> simp [blank, ih]

/-- Only blanks are stripped, so that a text that is not blank stays so. -/
theorem isBlank_strip (t : Text) : t.strip.isBlank = t.isBlank := by
  rw [strip, stripEnd, isBlank, List.all_reverse, all_dropWhile, List.all_reverse, all_dropWhile,
    isBlank]

/-- Nothing is left of a blank text. -/
theorem isEmpty_strip (t : Text) : t.strip.isEmpty = t.isBlank := by
  cases blank : t.isBlank with
  | true =>
    have gone : t.dropWhile CodePoint.isBlank = [] :=
      List.dropWhile_eq_nil_iff.mpr (List.all_eq_true.mp blank)
    rw [strip, gone]
    rfl
  | false =>
    rw [List.isEmpty_eq_false_iff]
    intro gone
    rw [← isBlank_strip, gone] at blank
    cases blank

end Text

namespace Http

def Encodable (delivery : Delivery) : Prop :=
  ∀ v, Json.Within v (payload delivery) →
    v.Sendable ∧ ∀ i, v = .integer i → i.natAbs < 10 ^ Json.digitLimit

/-- Just these are. -/
theorem encodable_iff {target : Target} {delivery : Delivery} :
    Encodable delivery ↔ ∃ r, request target delivery = .ok r := by
  constructor
  · intro encodable
    exact (exists_request_iff fun i inside => (encodable _ inside).2 i rfl).mpr
      fun v inside => (encodable v inside).1
  · rintro ⟨r, sent⟩ v inside
    obtain ⟨text, written, -⟩ := request_eq_ok sent
    refine ⟨sendable_of_request sent v inside, ?_⟩
    rintro i rfl
    exact Json.exists_write_iff.mp ⟨text, written⟩ _ inside

def Response.status? : Response → Option Nat
  | answered status _ => some status
  | timedOut | failed _ => none

inductive Response.Accepts : Response → Prop
  | answered {status : Nat} {body : Bytes} (least : 200 ≤ status) (most : status ≤ 299) :
      Accepts (.answered status body)

inductive Heard (body : Bytes) : Option Json → Prop
  | value {t : Text} {value : Json} (decoded : Text.decodeGuessed body = some t)
      (read : Json.read t = .ok value) : Heard body (some value)
  | undecodable (undecoded : Text.decodeGuessed body = none) : Heard body none
  | malformed {t : Text} {error : Json.SyntaxError} {place : Nat}
      (decoded : Text.decodeGuessed body = some t)
      (unread : Json.read t = .error (.malformed error place)) : Heard body none
  | overlong {t : Text} {count : Nat} (decoded : Text.decodeGuessed body = some t)
      (unread : Json.read t = .error (.digits count)) (long : Json.digitLimit < count)
      (there : t.HasRun count) : Heard body none

inductive TooDeep (body : Bytes) : Prop
  | intro {t : Text} (decoded : Text.decodeGuessed body = some t)
      (unread : Json.read t = .error .nested) (opened : Json.depthLimit < t.openings)

inductive Tells (key : Text) : Option Json → Text → Prop
  | object {entries : List (Text × Json)} {t : Text} (there : Entries.get? key entries = some (.text t))
      (shown : t.isBlank = false) : Tells key (some (.object entries)) t

inductive Explained (status : Nat) (said : Option Json) : Text → Prop
  | error {t : Text} (told : Tells "error" said t) : Explained status said t.strip
  | message {t : Text} (noError : ∀ t, ¬ Tells "error" said t) (told : Tells "message" said t) :
      Explained status said t.strip
  | statusLine (noError : ∀ t, ¬ Tells "error" said t) (noMessage : ∀ t, ¬ Tells "message" said t) :
      Explained status said (statusLine status)

inductive Refuses (delivery : Delivery) : Response → Refusal → Prop
  | timedOut : Refuses delivery .timedOut
      (.rejected none ("Request to " ++ path delivery ++ " timed out"))
  | failed (reason : Text) : Refuses delivery (.failed reason)
      (.rejected none ("Request to " ++ path delivery ++ " failed: " ++ reason))
  | answered {status : Nat} {body : Bytes} {said : Option Json} {text : Text}
      (heard : Heard body said) (explained : Explained status said text) :
      Refuses delivery (.answered status body) (.rejected (some status) text)
  | nested {status : Nat} {body : Bytes} (deep : TooDeep body) :
      Refuses delivery (.answered status body) .nested

/-! What a body is taken to say, and how a rejection is explained by it. -/

theorem tells_iff {key t : Text} {value : Json} :
    Tells key (some value) t ↔ value.get? key = some (.text t) ∧ t.isBlank = false := by
  constructor
  · rintro ⟨there, shown⟩
    exact ⟨there, shown⟩
  · rintro ⟨there, shown⟩
    cases value with
    | object entries => exact .object there shown
    | _ => cases there

theorem textUnder_eq_some {key text : Text} {value : Json} :
    textUnder key value = some text ↔ ∃ t, Tells key (some value) t ∧ text = t.strip := by
  simp only [textUnder, tells_iff, Text.isEmpty_strip]
  split
  · rename_i t there
    constructor
    · intro same
      split_ifs at same with blank
      exact ⟨t, ⟨there, by simpa using blank⟩, (Option.some.inj same).symm⟩
    · rintro ⟨s, ⟨same, shown⟩, rfl⟩
      cases there.symm.trans same
      rw [if_neg (by simp [shown])]
  · rename_i other
    exact ⟨nofun, fun ⟨t, ⟨there, _⟩, _⟩ => (other t there).elim⟩

theorem textUnder_eq_none {key : Text} {value : Json} :
    textUnder key value = none ↔ ∀ t, ¬ Tells key (some value) t := by
  have said (text : Text) :
      textUnder key value = some text ↔ ∃ t, Tells key (some value) t ∧ text = t.strip :=
    textUnder_eq_some
  rw [Option.eq_none_iff_forall_ne_some]
  constructor
  · exact fun nothing t told => nothing _ ((said _).mpr ⟨t, told, rfl⟩)
  · intro untold text same
    obtain ⟨t, told, -⟩ := (said text).mp same
    exact untold t told

theorem not_tells_none {key t : Text} : ¬ Tells key none t := nofun

theorem isBlank_statusLine (status : Nat) : (statusLine status).isBlank = false := by
  have first : (Text.ofString "HTTP ").all CodePoint.isBlank = false := by decide
  rw [statusLine, Text.isBlank_strip]
  simp [Text.isBlank, List.all_append, first]

/-- What is said of a value explains a rejection. -/
theorem explained_value (status : Nat) (value : Json) :
    Explained status (some value)
      (((textUnder "error" value).or (textUnder "message" value)).getD (statusLine status)) := by
  cases error : textUnder "error" value with
  | some text =>
    obtain ⟨t, told, rfl⟩ := textUnder_eq_some.mp error
    exact .error told
  | none =>
    have noError := textUnder_eq_none.mp error
    cases message : textUnder "message" value with
    | some text =>
      obtain ⟨t, told, rfl⟩ := textUnder_eq_some.mp message
      exact .message noError told
    | none => exact .statusLine noError (textUnder_eq_none.mp message)

theorem explained_none (status : Nat) : Explained status none (statusLine status) :=
  .statusLine (fun _ => not_tells_none) (fun _ => not_tells_none)

theorem Explained.shown {status : Nat} {said : Option Json} {text : Text}
    (explained : Explained status said text) : text.isBlank = false := by
  cases explained with
  | error told | message _ told =>
    cases told with
    | object there shown => rw [Text.isBlank_strip, shown]
  | statusLine => exact isBlank_statusLine status

/-! What comes of a delivery. -/

/-- An answer that does not accept a delivery refuses it. -/
theorem refuses_answer (delivery : Delivery) (status : Nat) (body : Bytes) :
    match message status body with
    | .ok text => Refuses delivery (.answered status body) (.rejected (some status) text)
    | .error refusal => Refuses delivery (.answered status body) refusal := by
  unfold message
  cases decoded : Text.decodeGuessed body with
  | none => exact .answered (.undecodable decoded) (explained_none status)
  | some t =>
    cases read : Json.read t with
    | ok value =>
      simp only [Option.map_some, read]
      exact .answered (.value decoded read) (explained_value status value)
    | error error =>
      simp only [Option.map_some, read]
      cases error with
      | nested => exact .nested ⟨decoded, read, Json.read_nested read⟩
      | malformed error place => exact .answered (.malformed decoded read) (explained_none status)
      | digits count =>
        obtain ⟨long, there⟩ := Json.read_digits read
        exact .answered (.overlong decoded read long there) (explained_none status)

/-- A rejection has the status of the response and a message that is not blank. -/
theorem Refuses.rejected {delivery : Delivery} {response : Response} {refusal : Refusal}
    (refuses : Refuses delivery response refusal) {status : Option Nat} {message : Text}
    (same : refusal = .rejected status message) :
    status = response.status? ∧ message.isBlank = false := by
  have first : (Text.ofString "Request to ").all CodePoint.isBlank = false := by decide
  cases refuses with
  | timedOut | failed =>
    cases same
    exact ⟨rfl, by simp [Text.isBlank, List.all_append, first]⟩
  | answered heard explained =>
    cases same
    exact ⟨rfl, explained.shown⟩
  | nested => cases same

theorem isSuccess_iff {status : Nat} : isSuccess status = true ↔ 200 ≤ status ∧ status ≤ 299 := by
  simp [isSuccess]

theorem Response.accepts_answered {status : Nat} {body : Bytes} :
    (Response.answered status body).Accepts ↔ isSuccess status = true := by
  rw [isSuccess_iff]
  constructor
  · rintro ⟨least, most⟩
    exact ⟨least, most⟩
  · exact fun within => .answered within.1 within.2

/-- A response accepts a delivery, or it refuses it. -/
theorem verdict_cases (delivery : Delivery) (response : Response) :
    response.Accepts ∧ verdict delivery response = .ok () ∨
      ¬ response.Accepts ∧
        ∃ refusal, verdict delivery response = .error refusal ∧ Refuses delivery response refusal := by
  cases response with
  | timedOut => exact .inr ⟨nofun, _, rfl, .timedOut⟩
  | failed reason => exact .inr ⟨nofun, _, rfl, .failed reason⟩
  | answered status body =>
    rw [Response.accepts_answered, verdict]
    cases success : isSuccess status with
    | true => exact .inl ⟨rfl, rfl⟩
    | false =>
      have refuses := refuses_answer delivery status body
      refine .inr ⟨nofun, ?_⟩
      cases told : message status body with
      | ok text => exact ⟨_, rfl, by rwa [told] at refuses⟩
      | error refusal => exact ⟨_, rfl, by rwa [told] at refuses⟩

/-- A delivery that can be written is made by one request. It is accepted exactly if the status of the
response is from 200 to 299. Otherwise it is rejected with that status, if there is one, and with a
message that is not blank: what the body, which is an object in JSON, tells as an error or else as a
message, or else the status line. Only for a body whose values are nested too deeply it is neither. -/
theorem post_settled (target : Target) (transport : Request → Response) {delivery : Delivery}
    (encodable : Encodable delivery) :
    ∃ r, request target delivery = .ok r ∧
      (post target transport delivery = .ok () ↔ (transport r).Accepts) ∧
      ∀ error, post target transport delivery = .error error →
        ∃ refusal, error = .refused refusal ∧ Refuses delivery (transport r) refusal ∧
          ∀ status message, refusal = .rejected status message →
            status = (transport r).status? ∧ message.isBlank = false := by
  obtain ⟨r, made⟩ := encodable_iff.mp encodable
  refine ⟨r, made, ?_⟩
  simp only [post, made]
  obtain ⟨accepts, accepted⟩ | ⟨refused, refusal, same, refuses⟩ :=
    verdict_cases delivery (transport r)
  · rw [accepted]
    exact ⟨iff_of_true rfl accepts, nofun⟩
  · rw [same]
    refine ⟨iff_of_false nofun refused, ?_⟩
    rintro _ ⟨⟩
    exact ⟨refusal, rfl, refuses, fun status message => refuses.rejected⟩

def sampleTarget : Target := ⟨"https://api.x.io", none⟩

def sampleDelivery : Delivery := .upsert "ws_1" [(Attribute.emailKey, .text "ann@x.io")]

def sampleResponse : Response :=
  .answered 409 ((Text.encodeUtf8 "\x7b\"error\": \" \", \"message\": \" taken \"\x7d").getD [])

theorem post_settled_sample :
    Encodable sampleDelivery ∧ ¬ sampleResponse.Accepts ∧
      post sampleTarget (fun _ => sampleResponse) sampleDelivery
        = .error (.refused (.rejected (some 409) "taken")) ∧
      Refuses sampleDelivery sampleResponse (.rejected (some 409) "taken") := by
  have encodable : Encodable sampleDelivery := by
    have made : (request sampleTarget sampleDelivery).isOk = true := by decide +kernel
    cases sent : request sampleTarget sampleDelivery with
    | error error => simp [sent, Except.isOk, Except.toBool] at made
    | ok r => exact encodable_iff.mpr ⟨r, sent⟩
  obtain ⟨r, -, accepted, refused⟩ :=
    post_settled sampleTarget (fun _ => sampleResponse) encodable
  have outcome : post sampleTarget (fun _ => sampleResponse) sampleDelivery
      = .error (.refused (.rejected (some 409) "taken")) := by
    decide +kernel
  obtain ⟨_, ⟨⟩, refuses, -⟩ := refused _ outcome
  refine ⟨encodable, fun accepts => ?_, outcome, refuses⟩
  cases outcome.symm.trans (accepted.mpr accepts)

private theorem decodeUtf8_brackets (n : Nat) :
    Text.decodeUtf8 true (List.replicate n 0x5B) = some (List.replicate n (.scalar '[')) := by
  induction n with
  | zero => simp [Text.decodeUtf8]
  | succ n ih =>
    rw [List.replicate_succ, List.replicate_succ]
    unfold Text.decodeUtf8
    rw [ih]
    rfl

private theorem message_brackets {n : Nat} (deep : Json.depthLimit < n) (status : Nat) :
    message status (List.replicate n 0x5B) = .error .nested := by
  obtain ⟨n, rfl⟩ : ∃ more, n = more + 4 :=
    Nat.exists_eq_add_of_le' ((show 4 ≤ Json.depthLimit by decide).trans deep.le)
  have decoded : Text.decodeGuessed (List.replicate (n + 4) 0x5B)
      = some (List.replicate (n + 4) (.scalar '[')) := by
    rw [← decodeUtf8_brackets]
    rfl
  rw [message, decoded, Option.map_some, Json.read_brackets deep]

/-- A delivery is neither accepted nor rejected by a status outside of 200 to 299 whose body is a row
of opening brackets. -/
theorem deep_body_unsettled :
    post sampleTarget (fun _ => .answered 400 (List.replicate 5000 0x5B)) sampleDelivery
      = .error (.refused .nested) := by
  have made : (request sampleTarget sampleDelivery).isOk = true := by decide +kernel
  have told : message 400 (List.replicate 5000 0x5B) = .error .nested :=
    message_brackets (by decide) 400
  generalize List.replicate 5000 0x5B = body at told
  cases sent : request sampleTarget sampleDelivery with
  | error error => simp [sent, Except.isOk, Except.toBool] at made
  | ok r =>
    simp only [post, sent, verdict, isSuccess, told]
    rfl

end Http
end Intake
