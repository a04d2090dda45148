import BatchRun.Run.Client

/-!
# Waiting for the job to finish

The job is watched until it has finished, well or not. A job that is deleted will never finish; a
fault in between does not matter, since the watch goes on.

* `JobEnd.react`: what an event means;
* **`jobEnd`**: the finished job, within a limit.
-/

namespace BatchRun

namespace JobEnd

/-- What an event means: a finished job decides, and so does the deletion of the job. -/
def react (job : String) : Unit → WatchEvent Job → Reaction Unit (Except LifecycleError Job)
  | (), .applied observed =>
    match observed.completion? with
    | some completion => ⟨[.jobFinished job completion], .inr (.ok observed)⟩
    | none => ⟨[], .inl ()⟩
  | (), .deleted _ => ⟨[.jobDeleted job], .inr (.error (.jobNotFound job))⟩
  | (), .fault f => ⟨[.jobWatchFault job f], .inl ()⟩

end JobEnd

variable {σ : Type}

/-- Waits for the job to finish, at most so many milliseconds. -/
def jobEnd (client : Client σ) (job : JobIdentity) (limit : Nat) :
    Act σ LifecycleError Job :=
  Act.within limit (.jobLate job.name limit) (.jobNeverCompleted job.name limit) do
    Act.note (.watchingJob job.name job.nameSelector)
    match ← Act.ask (.watchJobs job.ns job.nameSelector)
        (client.watchJobs job.ns job.nameSelector) with
    | .error f => Act.fail (.api job.name f)
    | .ok feed =>
      match ← Act.held .jobWatch (Act.follow (JobEnd.react job.name) () feed) with
      | some (.ok finished) => return finished
      | some (.error e) => Act.fail e
      | none => do
        Act.note (.jobWatchClosed job.name)
        Act.fail (.jobNeverCompleted job.name limit)

end BatchRun
