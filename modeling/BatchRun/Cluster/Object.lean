import BatchRun.Cluster.Schema
import BatchRun.Document.Along

/-!
# Pods and jobs

Of an object of the cluster a run looks at few things: the phase of a pod and the states of its
containers, and whether a job has finished.

* `Metadata`, `Pod`, `Job`: the parts that matter, each the view of an object whose shape has been
  checked; `Pod.ofDocument` and `Job.ofDocument` check it first;
* `PodPhase`, `Pod.phase`: **no phase yet counts as pending, any other text as unknown**;
* `Pod.exitCode?`, `Pod.primaryContainer?`, `Job.completion?`.
-/

namespace BatchRun

/-- The name and the namespace of an object. -/
structure Metadata where
  name : Option String
  ns : Option String
  deriving DecidableEq, Inhabited

/-- The name and the namespace in metadata whose shape has been checked. -/
def Metadata.view (d : Document) : Metadata := ⟨d.textAlong ["name"], d.textAlong ["namespace"]⟩

/-- What the status of a pod says of one container. -/
structure ContainerStatus where
  name : String
  /-- The exit code, if the container has terminated. -/
  exitCode : Option Int
  deriving DecidableEq, Inhabited

/-- A pod. -/
structure Pod where
  name : Option String
  /-- The names of the containers that it is to run. -/
  containers : List String
  /-- The phase, as the cluster spells it. -/
  reported : Option String
  statuses : List ContainerStatus
  deriving DecidableEq, Inhabited

namespace Pod

/-- The state of a container in a status. -/
def containerStatus (d : Document) : ContainerStatus :=
  ⟨(d.textAlong ["name"]).getD "",
    match Document.along ["state", "terminated", "exitCode"] d with
    | some (.int code) => some code
    | _ => none⟩

/-- The parts of a pod whose shape has been checked. -/
def view (d : Document) : Pod where
  name := d.textAlong ["metadata", "name"]
  containers := (d.itemsAlong ["spec", "containers"]).filterMap fun (c : Document) =>
    c.textAlong ["name"]
  reported := d.textAlong ["status", "phase"]
  statuses := (d.itemsAlong ["status", "containerStatuses"]).map containerStatus

/-- The pod that a document describes. -/
def ofDocument (d : Document) : Except Mismatch Pod := (Shape.pod.read d).map view

end Pod

/-- How far a pod has come. -/
inductive PodPhase where
  | pending
  | running
  | succeeded
  | failed
  | unknown
  deriving DecidableEq, Inhabited

namespace PodPhase

/-- The spelling of a phase. -/
def name : PodPhase → String
  | pending => "Pending"
  | running => "Running"
  | succeeded => "Succeeded"
  | failed => "Failed"
  | unknown => "Unknown"

/-- The phase that a cluster reports. -/
def ofReport : Option String → PodPhase
  | none => pending
  | some "Pending" => pending
  | some "Running" => running
  | some "Succeeded" => succeeded
  | some "Failed" => failed
  | some _ => unknown

end PodPhase

namespace Pod

/-- The phase of a pod. -/
def phase (p : Pod) : PodPhase := .ofReport p.reported

/-- The exit code of the first container, if that has terminated. -/
def exitCode? (p : Pod) : Option Int := p.statuses.head?.bind ContainerStatus.exitCode

/-- The container whose output is followed. -/
def primaryContainer? (p : Pod) : Option String := p.containers.head?

end Pod

/-- A condition of a job. -/
structure JobCondition where
  kind : String
  status : String
  deriving DecidableEq, Inhabited

/-- A job. -/
structure Job where
  name : Option String
  /-- Whether the time of its completion is set. -/
  completed : Bool
  conditions : List JobCondition
  deriving DecidableEq, Inhabited

/-- How a job ended. -/
inductive Completion where
  | completed
  | failed
  deriving DecidableEq, Inhabited

/-- The spelling of how a job ended. -/
def Completion.name : Completion → String
  | completed => "Completed"
  | failed => "Failed"

namespace Job

/-- The parts of a job whose shape has been checked. -/
def view (d : Document) : Job where
  name := d.textAlong ["metadata", "name"]
  completed := (d.textAlong ["status", "completionTime"]).isSome
  conditions := (d.itemsAlong ["status", "conditions"]).map fun (c : Document) =>
    ⟨(c.textAlong ["type"]).getD "", (c.textAlong ["status"]).getD ""⟩

/-- The job that a document describes. -/
def ofDocument (d : Document) : Except Mismatch Job := (Shape.job.read d).map view

/-- Whether a condition says that the job has failed. -/
def hasFailed (j : Job) : Bool :=
  j.conditions.any fun (c : JobCondition) => c.kind == "Failed" && c.status == "True"

/-- How a job ended, if it has. -/
def completion? (j : Job) : Option Completion :=
  if j.completed then some .completed
  else if j.hasFailed then some .failed
  else none

end Job

end BatchRun
