import BatchRun.Document.Basic

/-!
# The canonical template

Every manifest holds at least what the canonical template holds: the kind of object, one
completion of one pod that is never restarted, and a first container with an environment.

* `Template.document`: **the canonical template**;
* `PullPolicy`, `RestartPolicy`: the policies by name.
-/

namespace BatchRun

/-- When the image of a container is fetched. -/
inductive PullPolicy where
  | ifNotPresent | always | never
  deriving DecidableEq, Inhabited

namespace PullPolicy

def name : PullPolicy → String
  | ifNotPresent => "IfNotPresent"
  | always => "Always"
  | never => "Never"

/-- All policies. -/
def all : List PullPolicy := [ifNotPresent, always, never]

/-- The policy of a name. -/
def ofName? (s : String) : Option PullPolicy := all.find? fun (p : PullPolicy) => p.name == s

end PullPolicy

/-- When the containers of a pod are started again. -/
inductive RestartPolicy where
  | onFailure | never
  deriving DecidableEq, Inhabited

namespace RestartPolicy

def name : RestartPolicy → String
  | onFailure => "OnFailure"
  | never => "Never"

/-- All policies. -/
def all : List RestartPolicy := [onFailure, never]

end RestartPolicy

namespace Template

/-- The name of the first container. -/
def containerName : String := "kubejob"

/-- The first container. -/
def container : Document := .object [("name", .string containerName), ("env", .array [])]

/-- The pod that the job creates. -/
def podSpec : Document :=
  .object [("restartPolicy", .string RestartPolicy.never.name), ("containers", .array [container])]

/-- The canonical template. -/
def document : Document :=
  .object
    [("apiVersion", .string "batch/v1"),
     ("kind", .string "Job"),
     ("metadata", .object [("labels", .object [])]),
     ("spec", .object
       [("parallelism", .int 1),
        ("completions", .int 1),
        ("template", .object [("spec", podSpec)])])]

end Template

end BatchRun
