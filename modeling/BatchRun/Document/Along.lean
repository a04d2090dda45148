import BatchRun.Document.Basic

/-!
# Reading along member names

* **`Document.along`**: the value at the end of a path of member names;
* `Document.textAlong`, `Document.itemsAlong`.
-/

namespace BatchRun

namespace Document

/-- The value at the end of a path of member names. -/
def along : List String → Document → Option Document
  | [], d => some d
  | key :: rest, d =>
    match d.member? key with
    | some inner => along rest inner
    | none => none

/-- The text at the end of a path. -/
def textAlong (d : Document) (path : List String) : Option String :=
  match along path d with
  | some (.string s) => some s
  | _ => none

/-- The items at the end of a path; there are none if it does not lead to an array. -/
def itemsAlong (d : Document) (path : List String) : List Document :=
  match along path d with
  | some (.array xs) => xs
  | _ => []

end Document

end BatchRun
