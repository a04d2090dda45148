import BatchRun.Cluster.Body
import BatchRun.Cluster.Shape
import BatchRun.Document.Reader
import BatchRun.Fault

/-!
# Servers

The server of a cluster answers requests in order. An answer has a status and a body; a request may
also not get through at all, and a server that has no answer left keeps silent.

* `ServerAnswer`, `Server`;
* `ErrorResponse.ofDocument`: the report in a body;
* `Awaited`: what comes of a request, or silence;
* **`ServerAnswer.accepted`**: the body of an answer that is no report of an error.
-/

namespace BatchRun

/-- What a server does with a request. -/
inductive ServerAnswer where
  | refused (reason : String)
  | answered (status : Nat) (body : Body)
  deriving DecidableEq, Inhabited

/-- How long it takes until all of an answer has arrived. -/
def ServerAnswer.duration : ServerAnswer → Nat
  | refused _ => 0
  | answered _ body => body.duration

/-- A server with the answers that are left. -/
structure Server where
  answers : List ServerAnswer
  deriving DecidableEq, Inhabited

/-- What comes of a request; `none` is silence for ever. -/
abbrev Awaited (α : Type) := Option (Except ExchangeError α)

/-- A natural number below `2 ^ 16`. -/
def Document.asUnsigned16 : Document → Except Mismatch Nat
  | .int i =>
    if 0 ≤ i ∧ i < Nat.pow 2 16 then .ok i.toNat else .error (.value (.int i) "u16")
  | d => .error (.kind d "u16")

/-- A field that must be there. -/
def fieldRequired {α : Type} (ms : Members) (key : String)
    (read : Document → Except Mismatch α) : Except Mismatch α :=
  match Members.get? key ms with
  | some d => read d
  | none => .error (.missing key)

/-- The report of an error that a document holds. -/
def ErrorResponse.ofDocument : Document → Except Mismatch ErrorResponse
  | .object ms => do
    checkMembers
      [("status", admits Document.asString), ("message", admits Document.asString),
       ("reason", admits Document.asString), ("code", admits Document.asUnsigned16)] ms
    let status ← fieldRequired ms "status" Document.asString
    let message ← fieldOr ms "message" "" Document.asString
    let reason ← fieldOr ms "reason" "" Document.asString
    let code ← fieldRequired ms "code" Document.asUnsigned16
    .ok ⟨status, message, reason, code⟩
  | d => .error (.kind d "struct ErrorResponse")

/-- The usual phrase for a status that reports an error. -/
def statusPhrase : Nat → String
  | 400 => "Bad Request"
  | 401 => "Unauthorized"
  | 402 => "Payment Required"
  | 403 => "Forbidden"
  | 404 => "Not Found"
  | 405 => "Method Not Allowed"
  | 406 => "Not Acceptable"
  | 407 => "Proxy Authentication Required"
  | 408 => "Request Timeout"
  | 409 => "Conflict"
  | 410 => "Gone"
  | 411 => "Length Required"
  | 412 => "Precondition Failed"
  | 413 => "Payload Too Large"
  | 414 => "URI Too Long"
  | 415 => "Unsupported Media Type"
  | 416 => "Range Not Satisfiable"
  | 417 => "Expectation Failed"
  | 418 => "I'm a teapot"
  | 421 => "Misdirected Request"
  | 422 => "Unprocessable Entity"
  | 423 => "Locked"
  | 424 => "Failed Dependency"
  | 425 => "Too Early"
  | 426 => "Upgrade Required"
  | 428 => "Precondition Required"
  | 429 => "Too Many Requests"
  | 431 => "Request Header Fields Too Large"
  | 451 => "Unavailable For Legal Reasons"
  | 500 => "Internal Server Error"
  | 501 => "Not Implemented"
  | 502 => "Bad Gateway"
  | 503 => "Service Unavailable"
  | 504 => "Gateway Timeout"
  | 505 => "HTTP Version Not Supported"
  | 506 => "Variant Also Negotiates"
  | 507 => "Insufficient Storage"
  | 508 => "Loop Detected"
  | 510 => "Not Extended"
  | 511 => "Network Authentication Required"
  | _ => "<unknown status code>"

/-- The report that stands for a body without one. -/
def ErrorResponse.ofStatus (status : Nat) (text : String) : ErrorResponse :=
  ⟨s!"{status} {statusPhrase status}", Text.quoted text, "Failed to parse error data", status⟩

/-- The report in a text, if it holds one. -/
def ErrorResponse.parse? (text : String) : Option ErrorResponse :=
  match Json.parse? text with
  | some d => (ErrorResponse.ofDocument d).toOption
  | none => none

/-- The text of bytes, or why they are none. -/
def readText (bs : List UInt8) : Except ExchangeError String :=
  match Text.ofBytes? bs with
  | some text => .ok text
  | none => .error (.encoding ((Text.defect? bs).getD default).message)

/-- The whole text of a body. -/
def Body.whole (b : Body) : Awaited String :=
  match b.ending with
  | .complete => some (readText b.bytes)
  | .broken reason => some (.error (.service reason))
  | .endless => none

/-- Whether a status reports an error. -/
def isErrorStatus (status : Nat) : Bool := 400 ≤ status && status < 600

/-- The body of an answer, unless the answer reports an error. -/
def ServerAnswer.accepted : ServerAnswer → Awaited Body
  | refused reason => some (.error (.service reason))
  | answered status body =>
    if isErrorStatus status then
      match body.whole with
      | none => none
      | some (.error e) => some (.error e)
      | some (.ok text) =>
        some (.error (.response ((ErrorResponse.parse? text).getD (.ofStatus status text))))
    else some (.ok body)

/-- The wording of a mismatch in a text, with the place where the reading stopped. -/
def placed (text : String) (d : Document) (m : Mismatch) : String :=
  let stop := match m, d with
    | .kind (.array _) _, .array _ => 0
    | _, _ => text.length
  let (line, column) := Json.position (text.toList.take stop)
  s!"{m.message} at line {line} column {column}"

/-- Reads what a text holds. -/
def decode {α : Type} (read : Document → Except Mismatch α) (text : String) :
    Except ExchangeError α :=
  match Json.parse text with
  | .error failure => .error (.decoding (failure.message text))
  | .ok d =>
    match read d with
    | .ok value => .ok value
    | .error m => .error (.decoding (placed text d m))

/-- What an answer holds. -/
def ServerAnswer.content {α : Type} (read : Document → Except Mismatch α) (a : ServerAnswer) :
    Awaited α :=
  match a.accepted with
  | none => none
  | some (.error e) => some (.error e)
  | some (.ok body) =>
    match body.whole with
    | none => none
    | some (.error e) => some (.error e)
    | some (.ok text) => some (decode read text)

end BatchRun
