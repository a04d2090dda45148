import BatchRun.Fault
import BatchRun.Manifest.Compose
import BatchRun.Time.Span

/-!
# How a run ends

A run that got a job accepted ends in a result, with the exit code of the container or, where that
could not be found out, with a code of its own. Only a bad configuration or a refused submission
ends it in an error.

* `RunResult`, `RunResult.degraded`: **no exit code is known**;
* `LifecycleError`: why none is known;
* `RunError`: why there is no job.
-/

namespace BatchRun

/-- The result of a run. -/
structure RunResult where
  status : Int
  /-- The name of the job. -/
  identifier : String
  deriving DecidableEq, Inhabited

namespace RunResult

/-- The status of a job of which no exit code is known. -/
def unknownStatus : Int := -1

/-- The result of a job of which no exit code is known. -/
def degraded (identifier : String) : RunResult := ⟨unknownStatus, identifier⟩

def isSuccess (r : RunResult) : Bool := r.status == 0

def isDegraded (r : RunResult) : Bool := r.status == unknownStatus

/-- The result as a sentence. -/
def display (r : RunResult) : String := s!"{r.identifier} exited with {r.status}"

/-- The result as an object. -/
def toDocument (r : RunResult) : Document :=
  .object [("statusCode", .int r.status), ("identifier", .string r.identifier)]

end RunResult

/-- Why the exit code of a job is not known. Limits are in milliseconds. -/
inductive LifecycleError where
  | podNeverStarted (job : String) (limit : Nat)
  | jobNeverCompleted (job : String) (limit : Nat)
  | jobNotFound (job : String)
  | podNotFound (pod : String)
  | exitCodeUnavailable (pod : String) (reason : String)
  | api (job : String) (fault : Fault)
  | worker (stage : String) (reason : String)
  deriving DecidableEq, Inhabited

/-- The wording of a lifecycle error. -/
def LifecycleError.message : LifecycleError → String
  | podNeverStarted job limit => s!"job '{job}': pod never started within {Time.span limit}"
  | jobNeverCompleted job limit => s!"job '{job}': did not complete within {Time.span limit}"
  | jobNotFound job => s!"job '{job}' no longer exists"
  | podNotFound pod => s!"pod '{pod}' no longer exists"
  | exitCodeUnavailable pod reason => s!"pod '{pod}' has no exit code: {reason}"
  | api job fault => s!"job '{job}': {fault.message}"
  | worker stage reason => s!"{stage} worker failed: {reason}"

/-- Why there is no job. -/
inductive RunError where
  | manifest (error : ManifestError)
  | submission (ns : String) (fault : Fault)

/-- The wording of a run error. -/
def RunError.message : RunError → String
  | manifest error => s!"invalid job configuration: {error.message}"
  | submission ns fault => s!"failed to submit job in namespace '{ns}': {fault.message}"

end BatchRun
