import BatchRun.Manifest.Compose
import BatchRun.Manifest.Fields
import BatchRun.Patch.Wire
import BatchRun.Yaml.Writer

/-!
# The configuration of a run

A configuration holds all that one run needs besides the cluster: the base manifest, the
shortcuts, the overrides, the bounds of the two watches and whether the output is followed. It is
written as one object, with the shortcuts among the other fields.

* `JobConfig`, `JobConfig.standard`;
* `JobConfig.toDocument`, **`JobConfig.ofDocument`**;
* `JobConfig.manifest`, `JobConfig.preview`.
-/

namespace BatchRun

/-- The configuration of one run. -/
structure JobConfig where
  /-- The base manifest. -/
  job : Document
  /-- The overrides, applied after the shortcuts. -/
  customizations : Patch
  shortcuts : Shortcuts
  /-- How many seconds the pod may take to leave its first phase. -/
  podSeconds : Nat
  /-- How many seconds the job may take to finish after that. -/
  jobSeconds : Nat
  /-- Whether the output of the container is followed. -/
  streamOutput : Bool

namespace JobConfig

/-- The configuration in which nothing is chosen. -/
def standard : JobConfig := ⟨Template.document, [], Shortcuts.standard, 60, 5, true⟩

/-- The fields before the shortcuts. -/
def leadingMembers (c : JobConfig) : Members :=
  [("job", c.job), ("customizations", c.customizations.toDocument)]

/-- The fields after the shortcuts. -/
def trailingMembers (c : JobConfig) : Members :=
  [("podWatchTimeoutSeconds", .int c.podSeconds), ("jobWatchTimeoutSeconds", .int c.jobSeconds),
   ("streamOutput", .bool c.streamOutput)]

/-- The configuration as an object. -/
def toDocument (c : JobConfig) : Document :=
  .object (c.leadingMembers ++ c.shortcuts.toMembers ++ c.trailingMembers)

/-- The kind of value that each field besides the shortcuts wants. -/
def fieldChecks : List (String × (Document → Except Mismatch Unit)) :=
  [("job", fun _ => .ok ()),
   ("customizations", admits Patch.ofDocument),
   ("podWatchTimeoutSeconds", admits Document.asUnsigned),
   ("jobWatchTimeoutSeconds", admits Document.asUnsigned),
   ("streamOutput", admits Document.asBool)]

/-- The configuration that a document describes. The shortcuts are read after the other fields. -/
def ofDocument : Document → Except Mismatch JobConfig
  | .object ms => do
    checkMembers fieldChecks ms
    let job ← fieldOr ms "job" standard.job .ok
    let customizations ← fieldOr ms "customizations" standard.customizations Patch.ofDocument
    let podSeconds ← fieldOr ms "podWatchTimeoutSeconds" standard.podSeconds Document.asUnsigned
    let jobSeconds ← fieldOr ms "jobWatchTimeoutSeconds" standard.jobSeconds Document.asUnsigned
    let streamOutput ← fieldOr ms "streamOutput" standard.streamOutput Document.asBool
    let shortcuts ← Shortcuts.ofMembers true ms
    .ok { job, customizations, shortcuts, podSeconds, jobSeconds, streamOutput }
  | d => .error (.kind d "struct JobConfig")

/-- The manifest to submit. -/
def manifest (c : JobConfig) : Except ManifestError Document := do
  let base ← ManifestBase.ofDocument c.job
  base.compose c.shortcuts c.customizations

/-- The text of the manifest, for a look at it beforehand. -/
def preview (c : JobConfig) : Except ManifestError String := c.manifest.map Document.toYaml

end JobConfig

end BatchRun
