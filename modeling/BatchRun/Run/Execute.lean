import BatchRun.Run.Config
import BatchRun.Run.JobEnd
import BatchRun.Run.PodStart
import BatchRun.Run.Stages

/-!
# Executing a job

A run composes the manifest, submits it, waits for the pod, follows its output, waits for the job
and reads the exit code. Once the job is accepted nothing fails the run any more: what goes wrong
after that ends it in a degraded result.

* `Act.onWorker`, `Act.detached`: stages that a worker does, in which a panic is contained;
* `monitor`: everything after the submission;
* **`execute`**: the whole run.
-/

namespace BatchRun

/-- The report of a worker that panicked. -/
def panicReport (message : String) : String :=
  s!"task N panicked with message {Text.quoted message}"

namespace Act

variable {σ ε α : Type}

/-- A stage that a worker does, which is aborted if nobody waits for it any more. A panic there is a
failure of the stage. -/
def onWorker (stage : String) (x : Act σ LifecycleError α) : Act σ LifecycleError α := do
  match ← spawn .abortOnDrop x with
  | .ok (.ok value) => return value
  | .ok (.error error) => fail error
  | .error message => fail (.worker stage (panicReport message))

/-- A stage that a worker does and that cannot fail. A panic there is only noted. -/
def detached (stage : String) (x : Act σ Empty Unit) : Act σ ε Unit := do
  match ← spawn .abortOnDrop x with
  | .ok _ => return ()
  | .error message => note (.workerEnded stage (panicReport message))

end Act

variable {σ : Type}

/-- Everything after the submission. -/
def monitor (client : Client σ) (config : JobConfig) (job : JobIdentity) :
    Act σ LifecycleError RunResult := do
  match ← Act.ask (.getJob job.ns job.name) (client.getJob job.ns job.name) with
  | .error f => Act.fail (.api job.name f)
  | .ok none => Act.fail (.jobNotFound job.name)
  | .ok (some _) => do
    let pod ← Act.onWorker "pod-watch" (podStart client job (config.podSeconds * 1000))
    match pod.name with
    | none => Act.fail (.podNotFound s!"{job.name} (unnamed)")
    | some name => do
      if config.streamOutput then
        Act.detached "logs" (followOutput client job name pod.primaryContainer?)
      let _ ← Act.onWorker "completion-watch" (jobEnd client job (config.jobSeconds * 1000))
      exitResult client job name

/-- The namespace that a manifest is submitted to: its own, if it names one. -/
def targetNamespace (manifest : Document) (fallback : String) : String :=
  match manifest.textAlong ["metadata", "namespace"] with
  | some ns => if ns = "" then fallback else ns
  | none => fallback

/-- Who waits for the identity of the job. -/
inductive Listener where
  | nobody
  | listening
  /-- There was one, but it is gone. -/
  | gone
  deriving DecidableEq, Inhabited

/-- Hands the identity over to the one who waits for it. -/
def Listener.tell {ε : Type} (listener : Listener) (job : JobIdentity) : Course ε Unit :=
  match listener with
  | nobody => .pure ()
  | listening => .deed (.started job)
  | gone => .note (.receiverDropped job.name)

/-- The result of a job that was accepted: its own, or a degraded one. -/
def settle (job : JobIdentity) (c : Course LifecycleError RunResult) :
    Course RunError RunResult :=
  match c.ending with
  | .returned result =>
    ⟨c.entries ++ [⟨c.length, false, .note (.runFinished job.name result.status)⟩],
      .returned result, c.length⟩
  | .failed error =>
    ⟨c.entries ++ [⟨c.length, false, .note (.outcomeUnknown job error)⟩],
      .returned (.degraded job.name), c.length⟩
  | .panicked message => ⟨c.entries, .panicked message, c.length⟩
  | .stuck => ⟨c.entries, .stuck, c.length⟩

/-- The whole run, on a client in a given state. -/
def execute (client : Client σ) (config : JobConfig) (listener : Listener) (state : σ) :
    Course RunError RunResult :=
  match config.manifest with
  | .error e => .fail (.manifest e)
  | .ok manifest => do
    Course.note (.composed config.shortcuts.toPatch.length config.customizations.length
      config.shortcuts.ns)
    let (job, state) ← submit client manifest (targetNamespace manifest config.shortcuts.ns) state
    listener.tell job
    settle job ((monitor client config job).run' state)

end BatchRun
