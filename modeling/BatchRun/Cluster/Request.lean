import BatchRun.Document.Basic

/-!
# Requests

A request asks the server of a cluster for one thing.

* `Method`, `Request`.
-/

namespace BatchRun

/-- What a request does. -/
inductive Method where
  | get
  | post
  deriving DecidableEq, Inhabited

/-- The spelling of a method. -/
def Method.name : Method → String
  | get => "GET"
  | post => "POST"

/-- A request. -/
structure Request where
  method : Method
  path : String
  /-- The parameters, in the order of their names. -/
  query : List (String × String)
  body : Option Document
  deriving Inhabited

end BatchRun
