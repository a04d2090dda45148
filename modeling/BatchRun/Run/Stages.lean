import BatchRun.Run.Client

/-!
# Single stages of a run

* `submit`: the job is created once, and the cluster names it;
* `followOutput`: **the output of a container is forwarded as far as it can be had**;
* `exitResult`: the exit code is read back from the pod.
-/

namespace BatchRun

variable {σ : Type}

/-- Creates the job and returns the identity that the cluster gave it. -/
def submit (client : Client σ) (manifest : Document) (ns : String) :
    Act σ RunError JobIdentity := do
  match ← Act.ask (.createJob ns manifest) (client.createJob ns manifest) with
  | .error f => Act.fail (.submission ns f)
  | .ok made =>
    match made.name with
    | none =>
      Act.fail (.submission ns
        (.operation "create_job" "API server returned a Job without a name"))
    | some name => do
      let job : JobIdentity := ⟨name, made.ns.getD ns⟩
      Act.note (.submitted job)
      return job

/-- Follows the log of a container until it closes or breaks, which makes no difference to what
comes after. -/
def followOutput {ε : Type} (client : Client σ) (job : JobIdentity) (pod : String)
    (container : Option String) : Act σ ε Unit := do
  Act.note (.followingLog job.name pod)
  match ← Act.held .log
      (Act.ask (.followLogs job.ns pod container) (client.followLogs job.ns pod container)) with
  | .ok count => Act.note (.logClosed job.name pod count)
  | .error f => Act.note (.logStopped job.name pod f)

/-- Reads the pod back and takes the exit code of its first container. -/
def exitResult (client : Client σ) (job : JobIdentity) (pod : String) :
    Act σ LifecycleError RunResult := do
  match ← Act.ask (.podStatus job.ns pod) (client.podStatus job.ns pod) with
  | .error f => Act.fail (.api job.name f)
  | .ok none => Act.fail (.podNotFound pod)
  | .ok (some observed) =>
    match observed.exitCode? with
    | none => Act.fail (.exitCodeUnavailable pod "first container has not terminated")
    | some code => do
      Act.note (.containerExited job.name pod code)
      return ⟨code, job.name⟩

end BatchRun
