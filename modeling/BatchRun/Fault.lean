import BatchRun.Text.Quoted

/-!
# Faults

A fault is a failure on the way to the cluster and back: an answer of the server that reports an
error, a request that did not get through, a text that could not be read, a watch that broke, or
an operation that failed in between.

* `ErrorResponse`: what the server reports;
* `Fault`, **`Fault.message`**, `Fault.context?`, `Fault.isNotFound`.
-/

namespace BatchRun

/-- An error that the server reports. -/
structure ErrorResponse where
  status : String
  message : String
  reason : String
  code : Nat
  deriving DecidableEq, Inhabited

/-- The message and the reason of the server. -/
def ErrorResponse.summary (r : ErrorResponse) : String := s!"{r.message}: {r.reason}"

/-- All parts of a report, in the form of a record. -/
def ErrorResponse.record (r : ErrorResponse) : String :=
  "ErrorResponse \x7b status: " ++ Text.quoted r.status ++ ", message: " ++
    Text.quoted r.message ++ ", reason: " ++ Text.quoted r.reason ++
    s!", code: {r.code} \x7d"

/-- A failure of an exchange with the server. -/
inductive ExchangeError where
  /-- The server answered with an error. -/
  | response (report : ErrorResponse)
  /-- The request did not get through. -/
  | service (reason : String)
  /-- The answer could not be read. -/
  | decoding (reason : String)
  /-- The answer is no text. -/
  | encoding (reason : String)
  /-- The request could not be formed. -/
  | request (reason : String)
  deriving DecidableEq, Inhabited

/-- The wording of a failed exchange. -/
def ExchangeError.message : ExchangeError → String
  | response report => s!"ApiError: {report.summary} ({report.record})"
  | service reason => s!"ServiceError: {reason}"
  | decoding reason => s!"Error deserializing response: {reason}"
  | encoding reason => s!"UTF-8 Error: {reason}"
  | request reason => s!"Failed to build request: {reason}"

/-- A failure outside the configuration. -/
inductive Fault where
  | exchange (error : ExchangeError)
  /-- A text or an object that cannot be read, and what it was to be. -/
  | serialization (subject : Option String) (reason : String)
  | watch (resource : String) (reason : String)
  | operation (context : String) (reason : String)
  deriving DecidableEq, Inhabited

namespace Fault

/-- The context of an operation of which nothing is known. -/
def unknownContext : String := "unknown"

/-- A failed operation of which nothing more is known. -/
def unexplained (reason : String) : Fault := operation unknownContext reason

/-- The wording of a fault. -/
def message : Fault → String
  | exchange error => s!"kubernetes error: {error.message}"
  | serialization _ reason => s!"serialization error: {reason}"
  | watch resource reason => s!"watch error on {resource}: {reason}"
  | operation context reason => s!"internal error [{context}]: {reason}"

/-- What the fault concerns, where it says so. -/
def context? : Fault → Option String
  | operation context _ => some context
  | watch resource _ => some resource
  | _ => none

/-- What a text that could not be read was to be. -/
def subject? : Fault → Option String
  | serialization subject _ => subject
  | _ => none

/-- Whether the server reports that there is no such object. -/
def isNotFound : Fault → Bool
  | exchange (.response report) => report.code == 404
  | _ => false

end Fault

end BatchRun
