import BatchRun.Document.Basic

/-!
# The identity of a job

The cluster chooses the name of a job; with its namespace it is the handle by which everything
that follows finds the job and its pods.

* `JobIdentity`, `JobIdentity.display`, `JobIdentity.toDocument`;
* `JobIdentity.podSelector`, `JobIdentity.nameSelector`.
-/

namespace BatchRun

/-- The name and the namespace that the cluster gave a job. -/
structure JobIdentity where
  name : String
  ns : String
  deriving DecidableEq, Inhabited

/-- The label that every pod of a job carries. -/
def jobNameLabel : String := "job-name"

namespace JobIdentity

/-- Namespace and name. -/
def display (j : JobIdentity) : String := s!"{j.ns}/{j.name}"

/-- The identity as an object. -/
def toDocument (j : JobIdentity) : Document :=
  .object [("name", .string j.name), ("namespace", .string j.ns)]

/-- The label selector of the pods of the job. -/
def podSelector (j : JobIdentity) : String := s!"{jobNameLabel}={j.name}"

/-- The field selector of the job alone. -/
def nameSelector (j : JobIdentity) : String := s!"metadata.name={j.name}"

end JobIdentity

end BatchRun
