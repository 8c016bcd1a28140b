import Intake.Delivery.Basic
import Intake.Json.Reader
import Intake.Json.Writer
import Intake.Text.Case
import Intake.Text.Encoding

/-! Delivery over HTTP: one request for each contact. A delivery is accepted exactly by a status from
200 to 299; any other answer rejects it with the message of the body or the status line. -/
namespace Intake.Http

structure Target where
  address : Text
  token : Option Text

structure Request where
  url : Text
  authorization : Option Text
  body : Bytes
  deriving DecidableEq, Repr

def contentType : Text := "application/json"

inductive RequestError
  | value (error : Json.WriteError)
  /-- a surrogate that stands alone -/
  | unencodable
  deriving DecidableEq, Repr

/-- What comes back. -/
inductive Response
  | answered (status : Nat) (body : Bytes)
  | timedOut
  | failed (message : Text)

inductive Refusal
  /-- rejected, with the status of the answer if there is one -/
  | rejected (status : Option Nat) (message : Text)
  /-- an answer with values nested too deeply -/
  | nested
  deriving DecidableEq, Repr

/-! Addresses. -/

/-- The ports that need not be written. -/
def defaultPorts : List (String × String) :=
  [("http", "80"), ("https", "443"), ("ws", "80"), ("wss", "443"), ("ftp", "21")]

def lowerAscii (t : Text) : Text :=
  t.map fun c => if 0x41 ≤ c.value ∧ c.value ≤ 0x5A then (CodePoint.ofNat? (c.value + 32)).getD c else c

/-- What stands before and after the first colon that a slash, a slash follow. -/
def scheme? (address : Text) : Option (Text × Text) :=
  match Text.cut? (.scalar ':') address with
  | some (scheme, .scalar '/' :: .scalar '/' :: rest) => some (lowerAscii scheme, rest)
  | _ => none

/-- A host and a port in small letters; the port is left out if it is the usual one. -/
def hostOf (scheme host : Text) : Text :=
  let host := lowerAscii host
  match Text.cutLast? (.scalar ':') host with
  | some (name, port) =>
    let usual := defaultPorts.any fun entry =>
      Text.ofString entry.1 = scheme ∧ Text.ofString entry.2 = port
    if port.isEmpty ∨ usual then name else host
  | none => host

/-- The address without the slashes at its end, and with the usual port left out. -/
def base (address : Text) : Text :=
  let trimmed : Text := (address.reverse.dropWhile (· = .scalar '/')).reverse
  match scheme? trimmed with
  | none => trimmed
  | some (scheme, rest) =>
    let host := rest.takeWhile fun c => !(Text.ofString "/?#").contains c
    scheme ++ "://" ++ hostOf scheme host ++ rest.drop host.length

/-! Requests. -/

def path : Delivery → Text
  | .upsert .. => "/api/contacts.upsert"
  | .subscribe .. => "/api/lists.subscribe"

def payload : Delivery → Json
  | .upsert workspace contact =>
    .object [("workspace_id", .text workspace), ("contact", .object contact)]
  | .subscribe workspace contact lists =>
    .object [("workspace_id", .text workspace), ("contact", .object contact),
      ("list_ids", .list (lists.map .text))]

def request (target : Target) (delivery : Delivery) : Except RequestError Request := do
  let text ← ((payload delivery).write Json.compact).mapError .value
  let some body := Text.encodeUtf8 text | throw .unencodable
  return {
    url := base target.address ++ path delivery
    authorization := (target.token.filter fun token => !token.isEmpty).map fun token =>
      "Bearer " ++ token
    body }

/-! Answers. -/

def phrase (status : Nat) : Text :=
  match status with
  | 100 => "Continue"
  | 101 => "Switching Protocols"
  | 102 => "Processing"
  | 103 => "Early Hints"
  | 300 => "Multiple Choices"
  | 301 => "Moved Permanently"
  | 302 => "Found"
  | 303 => "See Other"
  | 304 => "Not Modified"
  | 305 => "Use Proxy"
  | 307 => "Temporary Redirect"
  | 308 => "Permanent Redirect"
  | 400 => "Bad Request"
  | 401 => "Unauthorized"
  | 402 => "Payment Required"
  | 403 => "Forbidden"
  | 404 => "Not Found"
  | 405 => "Method Not Allowed"
  | 406 => "Not Acceptable"
  | 407 => "Proxy Authentication Required"
  | 408 => "Request Timeout"
  | 409 => "Conflict"
  | 410 => "Gone"
  | 411 => "Length Required"
  | 412 => "Precondition Failed"
  | 413 => "Request Entity Too Large"
  | 414 => "Request-URI Too Long"
  | 415 => "Unsupported Media Type"
  | 416 => "Requested Range Not Satisfiable"
  | 417 => "Expectation Failed"
  | 418 => "I'm a teapot"
  | 421 => "Misdirected Request"
  | 422 => "Unprocessable Entity"
  | 423 => "Locked"
  | 424 => "Failed Dependency"
  | 425 => "Too Early"
  | 426 => "Upgrade Required"
  | 428 => "Precondition Required"
  | 429 => "Too Many Requests"
  | 431 => "Request Header Fields Too Large"
  | 451 => "Unavailable For Legal Reasons"
  | 500 => "Internal Server Error"
  | 501 => "Not Implemented"
  | 502 => "Bad Gateway"
  | 503 => "Service Unavailable"
  | 504 => "Gateway Timeout"
  | 505 => "HTTP Version Not Supported"
  | 506 => "Variant Also Negotiates"
  | 507 => "Insufficient Storage"
  | 508 => "Loop Detected"
  | 510 => "Not Extended"
  | 511 => "Network Authentication Required"
  | _ => []

def isSuccess (status : Nat) : Bool := 200 ≤ status && status ≤ 299

def statusLine (status : Nat) : Text :=
  Text.strip ("HTTP " ++ Text.ofNat status ++ " " ++ phrase status)

/-- A text of the body under a key, stripped, if it is not blank. -/
def textUnder (key : Text) (body : Json) : Option Text :=
  match body.get? key with
  | some (.text t) => if t.strip.isEmpty then none else some t.strip
  | _ => none

def message (status : Nat) (body : Bytes) : Except Refusal Text :=
  match (Text.decodeGuessed body).map Json.read with
  | some (.error .nested) => .error .nested
  | some (.ok value) =>
    .ok (((textUnder "error" value).or (textUnder "message" value)).getD (statusLine status))
  | _ => .ok (statusLine status)

def verdict (delivery : Delivery) : Response → Except Refusal Unit
  | .timedOut => .error (.rejected none ("Request to " ++ path delivery ++ " timed out"))
  | .failed reason =>
    .error (.rejected none ("Request to " ++ path delivery ++ " failed: " ++ reason))
  | .answered status body =>
    if isSuccess status then .ok ()
    else match message status body with
      | .ok text => .error (.rejected (some status) text)
      | .error refusal => .error refusal

/-- Why a delivery is not accepted. -/
inductive PostError
  /-- its request cannot be written -/
  | unsent (error : RequestError)
  | refused (refusal : Refusal)
  deriving DecidableEq, Repr

/-- Makes a delivery by one request, to which the transport has the response. -/
def post (target : Target) (transport : Request → Response) (delivery : Delivery) :
    Except PostError Unit :=
  match request target delivery with
  | .error error => .error (.unsent error)
  | .ok r => (verdict delivery (transport r)).mapError .refused

end Intake.Http
