import BatchRun.Cluster.Object
import BatchRun.Log.Level
import BatchRun.Run.Identity
import BatchRun.Run.Outcome

/-!
# Notices

What happens in a run is told to whoever listens, as notices of a level, with a fixed message and
named values.

* `Notice`;
* `Notice.level`, `Notice.message`, **`Notice.fields`**.
-/

namespace BatchRun

/-- Something that happened in a run. Jobs and pods are given by their names, limits in
milliseconds. -/
inductive Notice where
  | composed (shortcuts overrides : Nat) (ns : String)
  | submitted (job : JobIdentity)
  | receiverDropped (job : String)
  | watchingPods (job selector : String)
  | podWatchRefused (job : String) (fault : Fault)
  | phaseChanged (job : String) (pod : Option String) (before : Option PodPhase)
      (after : PodPhase)
  | podDeleted (job : String) (pod : Option String)
  | podWatchFault (job : String) (fault : Fault)
  | podWatchEnded (job : String)
  | podLate (job : String) (limit : Nat)
  | followingLog (job pod : String)
  | logClosed (job pod : String) (lines : Nat)
  | logStopped (job pod : String) (fault : Fault)
  | workerEnded (stage reason : String)
  | watchingJob (job selector : String)
  | jobFinished (job : String) (completion : Completion)
  | jobDeleted (job : String)
  | jobWatchFault (job : String) (fault : Fault)
  | jobWatchClosed (job : String)
  | jobLate (job : String) (limit : Nat)
  | containerExited (job pod : String) (code : Int)
  | runFinished (job : String) (code : Int)
  | outcomeUnknown (job : JobIdentity) (error : LifecycleError)
  | openingPodWatch (ns selector : String)
  | openingJobWatch (ns selector : String)
  deriving DecidableEq, Inhabited

namespace Notice

/-- The level of a notice. -/
def level : Notice → Level
  | composed .. | receiverDropped .. | watchingPods .. | podDeleted .. | followingLog ..
  | logClosed .. | watchingJob .. | openingPodWatch .. | openingJobWatch .. => .debug
  | submitted .. | phaseChanged .. | jobFinished .. | containerExited .. | runFinished .. => .info
  | podWatchRefused .. | podWatchFault .. | logStopped .. | workerEnded ..
  | jobWatchFault .. => .warn
  | podWatchEnded .. | podLate .. | jobDeleted .. | jobWatchClosed .. | jobLate ..
  | outcomeUnknown .. => .error

/-- The message of a notice. -/
def message : Notice → String
  | composed .. => "composed job manifest"
  | submitted .. => "job submitted"
  | receiverDropped .. => "started receiver dropped"
  | watchingPods .. => "watching for job pod"
  | podWatchRefused .. => "failed to open pod watch"
  | phaseChanged .. => "pod phase changed"
  | podDeleted .. => "job pod deleted"
  | podWatchFault .. => "pod watch error"
  | podWatchEnded .. => "pod watch ended before the pod started"
  | podLate .. => "pod did not start in time"
  | followingLog .. => "following pod log"
  | logClosed .. => "pod log closed"
  | logStopped .. => "log streaming stopped"
  | workerEnded .. => "worker ended abnormally"
  | watchingJob .. => "watching for job completion"
  | jobFinished .. => "job finished"
  | jobDeleted .. => "job was deleted while running"
  | jobWatchFault .. => "job watch error"
  | jobWatchClosed .. => "job watch closed before completion"
  | jobLate .. => "job did not complete in time"
  | containerExited .. => "job container exited"
  | runFinished .. => "job finished"
  | outcomeUnknown .. => "could not determine job outcome"
  | openingPodWatch .. => "opening pod watch"
  | openingJobWatch .. => "opening job watch"

/-- The named values of a notice. -/
def fields : Notice → Members
  | composed shortcuts overrides ns =>
    [("shortcuts", .int shortcuts), ("overrides", .int overrides), ("namespace", .string ns)]
  | submitted job => [("job", .string job.name), ("namespace", .string job.ns)]
  | receiverDropped job | podWatchEnded job | jobDeleted job | jobWatchClosed job =>
    [("job", .string job)]
  | watchingPods job selector | watchingJob job selector =>
    [("job", .string job), ("selector", .string selector)]
  | podWatchRefused job fault | podWatchFault job fault | jobWatchFault job fault =>
    [("job", .string job), ("error", .string fault.message)]
  | phaseChanged job pod before after =>
    [("job", .string job), ("pod", .string (Text.quotedOption pod)),
     ("from", .string (Text.quotedOption (before.map PodPhase.name))),
     ("phase", .string after.name)]
  | podDeleted job pod => [("job", .string job), ("pod", .string (Text.quotedOption pod))]
  | podLate job limit | jobLate job limit =>
    [("job", .string job), ("timeout", .string (Time.span limit))]
  | followingLog job pod => [("job", .string job), ("pod", .string pod)]
  | logClosed job pod lines =>
    [("job", .string job), ("pod", .string pod), ("lines", .int lines)]
  | logStopped job pod fault =>
    [("job", .string job), ("pod", .string pod), ("error", .string fault.message)]
  | workerEnded stage reason => [("stage", .string stage), ("error", .string reason)]
  | jobFinished job completion =>
    [("job", .string job), ("completion", .string completion.name)]
  | containerExited job pod code =>
    [("job", .string job), ("pod", .string pod), ("exit_code", .int code)]
  | runFinished job code => [("job", .string job), ("exit_code", .int code)]
  | outcomeUnknown job error =>
    [("job", .string job.name), ("namespace", .string job.ns),
     ("error", .string error.message)]
  | openingPodWatch ns selector =>
    [("namespace", .string ns), ("label_selector", .string selector)]
  | openingJobWatch ns selector =>
    [("namespace", .string ns), ("field_selector", .string selector)]

end Notice

end BatchRun
