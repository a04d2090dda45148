import BatchRun.Run.Client
import BatchRun.Run.Phases

/-!
# Waiting for the pod to start

The pods of a job are watched until one has left its first phase. A watch that cannot be opened
counts as one that closes at once; a fault in between does not matter, since the watch goes on.

* `PodStart.react`: what an event means;
* **`podStart`**: the first pod that is no longer pending, within a limit.
-/

namespace BatchRun

namespace PodStart

/-- The notice of a change of phase. -/
def changeNotice (job : String) (pod : Pod) (change : PhaseChange) : Notice :=
  .phaseChanged job pod.name change.before change.after

/-- What an event means after the last phase observed: a pod that is not pending decides. -/
def react (job : String) (last : Option PodPhase) :
    WatchEvent Pod → Reaction (Option PodPhase) Pod
  | .applied pod =>
    let observed := PhaseChange.observe last pod.phase
    ⟨observed.1.toList.map (changeNotice job pod),
      if pod.phase = .pending then .inl observed.2 else .inr pod⟩
  | .deleted pod => ⟨[.podDeleted job pod.name], .inl last⟩
  | .fault f => ⟨[.podWatchFault job f], .inl last⟩

end PodStart

variable {σ : Type}

/-- The first pod of the job that is not pending; `none` if the watch ends before that. -/
def firstStarted {ε : Type} (client : Client σ) (job : JobIdentity) :
    Act σ ε (Option Pod) := do
  Act.note (.watchingPods job.name job.podSelector)
  match ← Act.ask (.watchPods job.ns job.podSelector)
      (client.watchPods job.ns job.podSelector) with
  | .error f => do
    Act.note (.podWatchRefused job.name f)
    return none
  | .ok feed => Act.held .podWatch (Act.follow (PodStart.react job.name) none feed)

/-- Waits for a pod of the job to start, at most so many milliseconds. -/
def podStart (client : Client σ) (job : JobIdentity) (limit : Nat) :
    Act σ LifecycleError Pod :=
  Act.within limit (.podLate job.name limit) (.podNeverStarted job.name limit) do
    match ← firstStarted client job with
    | some pod => return pod
    | none => do
      Act.note (.podWatchEnded job.name)
      Act.fail (.podNeverStarted job.name limit)

end BatchRun
