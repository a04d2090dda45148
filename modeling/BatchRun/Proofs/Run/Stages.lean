import BatchRun.Proofs.Run.Act
import BatchRun.Run.Execute

/-!
# What each stage of a run comes to

A stage is described by what the client answers, without the activity itself: the server names the
job, finds it, its pod starts, the log is over, the job finishes, the pod reports an exit code.

* `Client.Creates`, `Refuses`, `Finds`, `StartsPod`, `LeavesLog`, `FinishesJob`, `ReportsExit`;
* `submit_returns_iff`, `podStart_returns_iff`, `jobEnd_returns_iff`, `exitResult_returns_iff`: **a
  stage returns a value exactly if the client answers so**;
* `Act.orderly_onWorker`: what a worker does returns or fails, unless it hangs.
-/

namespace BatchRun

variable {σ ε α β γ : Type}

/-- What the pod watch waits past: everything but a pod that has left its first phase. -/
def PodStart.Waits : WatchEvent Pod → Prop
  | .applied pod => pod.phase = .pending
  | .deleted _ | .fault _ => True

/-- What the job watch waits past: faults, and a job that has neither completed nor failed. -/
def JobEnd.Waits : WatchEvent Job → Prop
  | .applied job => job.completed = false ∧ job.hasFailed = false
  | .deleted _ => False
  | .fault _ => True

/-! ## Answers of a client -/

namespace Client

/-- The fault of a job that came back without a name. -/
def nameless : Fault := .operation "create_job" "API server returned a Job without a name"

variable (client : Client σ) (job : JobIdentity)

/-- The server takes a manifest in and names the job. -/
def Creates (ns : String) (manifest : Document) (s : σ) (job : JobIdentity) (t : σ) : Prop :=
  ∃ made name, (client.createJob ns manifest s).outcome = .returns (.ok made) t ∧
    made.name = some name ∧ job = ⟨name, made.ns.getD ns⟩

/-- The server does not take a manifest in, or does not name the job. -/
def Refuses (ns : String) (manifest : Document) (s : σ) (fault : Fault) : Prop :=
  ∃ t, (client.createJob ns manifest s).outcome = .returns (.error fault) t ∨
    ∃ made, (client.createJob ns manifest s).outcome = .returns (.ok made) t ∧
      made.name = none ∧ fault = nameless

/-- The job is there. -/
def Finds (s t : σ) : Prop :=
  ∃ found, (client.getJob job.ns job.name s).outcome = .returns (.ok (some found)) t

/-- The pod watch delivers a pod that is not pending, the first such, within the limit. -/
def StartsPod (limit : Nat) (s : σ) (pod : Pod) (t : σ) : Prop :=
  ∃ feed u time, (client.watchPods job.ns job.podSelector s).outcome = .returns (.ok feed) u ∧
    Step.Delivers PodStart.Waits feed.steps (.applied pod) time t ∧
    (client.watchPods job.ns job.podSelector s).delay + time ≤ limit

/-- The log has been followed to its end, or as far as it can be had. -/
def LeavesLog (pod : String) (container : Option String) (s t : σ) : Prop :=
  (∃ answer, (client.followLogs job.ns pod container s).outcome = .returns answer t) ∨
    ∃ message, (client.followLogs job.ns pod container s).outcome = .panics message ∧ t = s

/-- The job watch delivers a job that has finished, before any deletion and within the limit. -/
def FinishesJob (limit : Nat) (s : σ) (finished : Job) (t : σ) : Prop :=
  ∃ feed u time, (client.watchJobs job.ns job.nameSelector s).outcome = .returns (.ok feed) u ∧
    Step.Delivers JobEnd.Waits feed.steps (.applied finished) time t ∧
    (client.watchJobs job.ns job.nameSelector s).delay + time ≤ limit

/-- The pod is there and its first container has terminated with a code. -/
def ReportsExit (pod : String) (s : σ) (code : Int) (t : σ) : Prop :=
  ∃ observed, (client.podStatus job.ns pod s).outcome = .returns (.ok (some observed)) t ∧
    observed.exitCode? = some code

end Client

/-! ## Submission -/

variable {client : Client σ} {job : JobIdentity}

/-- **The submission gives exactly the identity that the server assigns.** -/
theorem submit_returns_iff {manifest : Document} {ns : String} {s t : σ} :
    (submit client manifest ns s).ending = .returned (job, t) ↔
      client.Creates ns manifest s job t := by
  rw [submit, Act.ending_bind_eq_returned_iff]
  simp only [Act.ending_ask_eq_returned_iff]
  constructor
  · rintro ⟨answer, u, hanswer, hreturns⟩
    cases answer with
    | error f => cases hreturns
    | ok made =>
      cases hname : made.name with
      | none =>
        simp only [hname] at hreturns
        cases hreturns
      | some name =>
        simp only [hname] at hreturns
        cases hreturns
        exact ⟨made, name, hanswer, hname, rfl⟩
  · rintro ⟨made, name, hanswer, hname, rfl⟩
    refine ⟨.ok made, t, hanswer, ?_⟩
    simp only [hname]
    rfl

theorem ending_submit_of_refuses {manifest : Document} {ns : String} {s : σ} {fault : Fault}
    (h : client.Refuses ns manifest s fault) :
    (submit client manifest ns s).ending = .failed (.submission ns fault) := by
  rw [submit, Act.ending_bind, Act.ending_ask]
  obtain ⟨t, h | ⟨made, h, hname, rfl⟩⟩ := h
  · rw [h]
    rfl
  · rw [h]
    simp only [Ending.bind, Outcome.ending, hname]
    rfl

theorem creates_or_refuses {manifest : Document} {ns : String} {s : σ}
    (h : ∃ answer t, (client.createJob ns manifest s).outcome = .returns answer t) :
    (∃ job t, client.Creates ns manifest s job t) ∨
      ∃ fault, client.Refuses ns manifest s fault := by
  obtain ⟨answer, t, h⟩ := h
  cases answer with
  | error fault => exact .inr ⟨fault, t, .inl h⟩
  | ok made =>
    cases hname : made.name with
    | none => exact .inr ⟨Client.nameless, t, .inr ⟨made, h, hname, rfl⟩⟩
    | some name => exact .inl ⟨⟨name, made.ns.getD ns⟩, t, made, name, h, hname, rfl⟩

theorem not_creates_of_refuses {manifest : Document} {ns : String} {s t : σ} {fault : Fault}
    (h : client.Refuses ns manifest s fault) : ¬ client.Creates ns manifest s job t := by
  intro hcreates
  have hreturns := submit_returns_iff.2 hcreates
  rw [ending_submit_of_refuses h] at hreturns
  cases hreturns

/-! ## The pod watch -/

namespace PodStart

/-- The pod that an event decides for. -/
def verdict : WatchEvent Pod → Option Pod
  | .applied pod => if pod.phase = .pending then none else some pod
  | _ => none

theorem getRight?_react (job : String) (last : Option PodPhase) (event : WatchEvent Pod) :
    (react job last event).next.getRight? = verdict event := by
  cases event with
  | applied pod =>
    rw [react, verdict]
    split <;> rfl
  | deleted pod => rfl
  | fault f => rfl

theorem verdict_eq_none : (fun (e : WatchEvent Pod) => verdict e = none) = Waits := by
  funext e
  cases e <;> simp [verdict, Waits]

end PodStart

theorem gives_firstStarted_iff {s t : σ} {pod : Pod} {n : Nat} :
    (firstStarted client job s : Course ε _).Gives (some pod, t) n ↔
      ∃ feed u time, (client.watchPods job.ns job.podSelector s).outcome = .returns (.ok feed) u ∧
        Step.Delivers PodStart.Waits feed.steps (.applied pod) time t ∧
        n = (client.watchPods job.ns job.podSelector s).delay + time := by
  rw [firstStarted, Act.gives_note_bind_iff, Act.gives_bind_iff]
  simp only [Act.gives_ask_iff]
  constructor
  · rintro ⟨answer, u, m, k, ⟨hanswer, rfl⟩, hgives, rfl⟩
    cases answer with
    | error f =>
      simp only [Act.gives_note_bind_iff, Act.gives_pure_iff] at hgives
      cases hgives.1
    | ok feed =>
      obtain ⟨event, hverdict, hdelivers⟩ :=
        (Act.gives_follow_iff (PodStart.getRight?_react job.name)).1 hgives
      rw [PodStart.verdict_eq_none] at hdelivers
      cases event with
      | applied other =>
        simp only [PodStart.verdict] at hverdict
        split at hverdict
        · cases hverdict
        · cases hverdict
          exact ⟨feed, u, k, hanswer, hdelivers, rfl⟩
      | deleted other => cases hverdict
      | fault f => cases hverdict
  · rintro ⟨feed, u, time, hanswer, hdelivers, rfl⟩
    refine ⟨.ok feed, u, _, time, ⟨hanswer, rfl⟩, ?_, rfl⟩
    refine (Act.gives_follow_iff (PodStart.getRight?_react job.name)).2
      ⟨.applied pod, ?_, by rwa [PodStart.verdict_eq_none]⟩
    obtain ⟨_, _, _, _, _, _, hwaits, _⟩ := hdelivers
    exact if_neg hwaits

/-- **The pod stage gives exactly the pod that the watch delivers in time.** -/
theorem podStart_returns_iff {limit : Nat} {s t : σ} {pod : Pod} :
    (podStart client job limit s).ending = .returned (pod, t) ↔
      client.StartsPod job limit s pod t := by
  rw [← Course.exists_gives_iff]
  simp only [podStart, Act.within, Act.mapCourse, Course.gives_within_iff, Act.gives_bind_iff]
  constructor
  · rintro ⟨n, ⟨result, u, m, k, hfirst, hgives, rfl⟩, hlimit⟩
    cases result with
    | none =>
      rw [Act.gives_note_bind_iff] at hgives
      exact absurd hgives Act.not_gives_fail
    | some other =>
      obtain ⟨rfl, rfl, rfl⟩ := Act.gives_pure_iff.1 hgives
      obtain ⟨feed, v, time, hanswer, hdelivers, rfl⟩ := gives_firstStarted_iff.1 hfirst
      exact ⟨feed, v, time, hanswer, hdelivers, hlimit⟩
  · rintro ⟨feed, u, time, hanswer, hdelivers, hlimit⟩
    exact ⟨_, ⟨some pod, t, _, 0,
      gives_firstStarted_iff.2 ⟨feed, u, time, hanswer, hdelivers, rfl⟩,
      Act.gives_pure_iff.2 ⟨rfl, rfl, rfl⟩, rfl⟩, hlimit⟩

/-! ## The job watch -/

namespace JobEnd

/-- What an event decides: the finished job, or that there is none any more. -/
def verdict (job : String) : WatchEvent Job → Option (Except LifecycleError Job)
  | .applied observed => observed.completion?.map fun _ => .ok observed
  | .deleted _ => some (.error (.jobNotFound job))
  | .fault _ => none

theorem getRight?_react (job : String) (u : Unit) (event : WatchEvent Job) :
    (react job u event).next.getRight? = verdict job event := by
  cases event with
  | applied observed =>
    rw [react, verdict]
    cases observed.completion? <;> rfl
  | deleted observed => rfl
  | fault f => rfl

theorem completion?_eq_none_iff {job : Job} :
    job.completion? = none ↔ job.completed = false ∧ job.hasFailed = false := by
  rw [Job.completion?]
  cases job.completed <;> cases job.hasFailed <;> simp

theorem verdict_eq_none (job : String) :
    (fun (e : WatchEvent Job) => verdict job e = none) = Waits := by
  funext e
  cases e <;> simp [verdict, Waits, completion?_eq_none_iff]

end JobEnd

/-- **The job stage gives exactly the job that the watch delivers in time.** -/
theorem jobEnd_returns_iff {limit : Nat} {s t : σ} {finished : Job} :
    (jobEnd client job limit s).ending = .returned (finished, t) ↔
      client.FinishesJob job limit s finished t := by
  rw [← Course.exists_gives_iff]
  simp only [jobEnd, Act.within, Act.mapCourse, Course.gives_within_iff, Act.gives_note_bind_iff]
  simp only [Act.gives_bind_iff, Act.gives_ask_iff]
  constructor
  · rintro ⟨n, ⟨answer, u, m, k, ⟨hanswer, rfl⟩, hgives, rfl⟩, hlimit⟩
    cases answer with
    | error f => exact absurd hgives Act.not_gives_fail
    | ok feed =>
      obtain ⟨result, v, m, j, hheld, hgives, rfl⟩ := Act.gives_bind_iff.1 hgives
      cases result with
      | none =>
        rw [Act.gives_note_bind_iff] at hgives
        exact absurd hgives Act.not_gives_fail
      | some decision =>
        cases decision with
        | error e => exact absurd hgives Act.not_gives_fail
        | ok other =>
          obtain ⟨rfl, rfl, rfl⟩ := Act.gives_pure_iff.1 hgives
          obtain ⟨event, hverdict, hdelivers⟩ :=
            (Act.gives_follow_iff (JobEnd.getRight?_react job.name)).1 hheld
          rw [JobEnd.verdict_eq_none] at hdelivers
          cases event with
          | applied observed =>
            obtain ⟨_, _, heq⟩ := Option.map_eq_some_iff.1 hverdict
            cases heq
            exact ⟨feed, u, m, hanswer, hdelivers, hlimit⟩
          | deleted observed => cases hverdict
          | fault f => cases hverdict
  · rintro ⟨feed, u, time, hanswer, hdelivers, hlimit⟩
    have hverdict : JobEnd.verdict job.name (.applied finished) = some (.ok finished) := by
      obtain ⟨_, _, _, _, _, _, hwaits, _⟩ := hdelivers
      rw [← JobEnd.verdict_eq_none job.name] at hwaits
      obtain ⟨decision, hd⟩ := Option.ne_none_iff_exists'.1 hwaits
      obtain ⟨_, _, heq⟩ := Option.map_eq_some_iff.1 hd
      rw [hd, ← heq]
    refine ⟨_, ⟨.ok feed, u, _, time, ⟨hanswer, rfl⟩, ?_, rfl⟩, hlimit⟩
    refine Act.gives_bind_iff.2 ⟨some (.ok finished), t, time, 0, ?_,
      Act.gives_pure_iff.2 ⟨rfl, rfl, rfl⟩, rfl⟩
    exact (Act.gives_follow_iff (JobEnd.getRight?_react job.name)).2
      ⟨.applied finished, hverdict, by rwa [JobEnd.verdict_eq_none]⟩

/-! ## The log -/

theorem ending_followOutput (client : Client σ) (job : JobIdentity) (pod : String)
    (container : Option String) (s : σ) :
    (followOutput client job pod container s : Course ε _).ending =
      match (client.followLogs job.ns pod container s).outcome with
      | .returns _ t => .returned ((), t)
      | .panics message => .panicked message
      | .hangs => .stuck := by
  rw [followOutput, Act.ending_bind, Act.note_apply]
  simp only [Ending.bind, Act.ending_bind]
  have hheld : (Act.held .log (Act.ask (.followLogs job.ns pod container)
      (client.followLogs job.ns pod container)) s : Course ε _).ending = _ :=
    Act.ending_ask (.followLogs job.ns pod container) (client.followLogs job.ns pod container) s
  rw [hheld]
  cases (client.followLogs job.ns pod container s).outcome with
  | returns answer t => cases answer <;> rfl
  | panics message => rfl
  | hangs => rfl

/-! ## The exit code -/

/-- **The last stage gives exactly the exit code that the pod reports.** -/
theorem exitResult_returns_iff {pod : String} {s t : σ} {result : RunResult} :
    (exitResult client job pod s).ending = .returned (result, t) ↔
      client.ReportsExit job pod s result.status t ∧ result.identifier = job.name := by
  rw [exitResult, Act.ending_bind_eq_returned_iff]
  simp only [Act.ending_ask_eq_returned_iff]
  constructor
  · rintro ⟨answer, u, hanswer, hreturns⟩
    cases answer with
    | error f => cases hreturns
    | ok found =>
      cases found with
      | none => cases hreturns
      | some observed =>
        cases hcode : observed.exitCode? with
        | none =>
          simp only [hcode] at hreturns
          cases hreturns
        | some code =>
          simp only [hcode] at hreturns
          cases hreturns
          exact ⟨⟨observed, hanswer, hcode⟩, rfl⟩
  · rintro ⟨⟨observed, hanswer, hcode⟩, hname⟩
    refine ⟨.ok (some observed), t, hanswer, ?_⟩
    simp only [hcode, ← hname]
    rfl

theorem orderly_exitResult {pod : String} {s : σ}
    (h : ∃ answer t, (client.podStatus job.ns pod s).outcome = .returns answer t) :
    (exitResult client job pod s).ending.Orderly := by
  refine Act.orderly_bind (Act.orderly_ask_iff.2 h) fun answer t _ => ?_
  cases answer with
  | error f => trivial
  | ok found =>
    cases found with
    | none => trivial
    | some observed => cases hcode : observed.exitCode? <;> simp only [hcode] <;> trivial

/-! ## Workers -/

namespace Act

section Spawn

variable {ε' : Type} (handle : Handle) (x : Act σ ε α) (s : σ)

theorem entries_spawn : (spawn handle x s : Course ε' _).entries =
    (Course.spawn handle (x s) : Course ε' _).entries := by
  rw [spawn, Course.entries_bind, Course.ending_spawn]
  cases (x s).ending <;> exact List.append_nil _

theorem ending_spawn : (spawn handle x s : Course ε' _).ending =
    match (x s).ending with
    | .returned (a, t) => .returned (.ok (.ok a), t)
    | .failed error => .returned (.ok (.error error), s)
    | .panicked message => .returned (.error message, s)
    | .stuck => .stuck := by
  rw [spawn, Course.ending_bind, Course.ending_spawn]
  cases (x s).ending <;> rfl

theorem length_spawn : (spawn handle x s : Course ε' _).length = (x s).length := by
  rw [spawn, Course.length_bind, Course.ending_spawn, Course.length_spawn]
  cases (x s).ending <;> rfl

end Spawn

section OnWorker

variable (stage : String) (x : Act σ LifecycleError α) (s : σ)

theorem entries_onWorker : (onWorker stage x s).entries =
    (Course.spawn .abortOnDrop (x s) : Course LifecycleError _).entries := by
  rw [onWorker, bind_apply, Course.entries_bind, entries_spawn, ending_spawn]
  cases (x s).ending <;> exact List.append_nil _

theorem ending_onWorker : (onWorker stage x s).ending =
    match (x s).ending with
    | .panicked message => .failed (.worker stage (panicReport message))
    | ending => ending := by
  rw [onWorker, ending_bind, ending_spawn]
  cases (x s).ending <;> rfl

theorem length_onWorker : (onWorker stage x s).length = (x s).length := by
  rw [onWorker, bind_apply, Course.length_bind, ending_spawn, length_spawn]
  cases (x s).ending <;> rfl

end OnWorker

section Detached

variable (stage : String) (x : Act σ Empty Unit) (s : σ)

theorem entries_detached : (detached stage x s : Course ε _).entries =
    (Course.spawn .abortOnDrop (x s) : Course ε _).entries ++
      match (x s).ending with
      | .panicked message => [⟨(x s).length, false, .note (.workerEnded stage (panicReport message))⟩]
      | _ => [] := by
  rw [detached, bind_apply, Course.entries_bind, entries_spawn, ending_spawn, length_spawn]
  cases (x s).ending <;> rfl

theorem ending_detached : (detached stage x s : Course ε _).ending =
    match (x s).ending with
    | .returned (_, t) => .returned ((), t)
    | .stuck => .stuck
    | _ => .returned ((), s) := by
  rw [detached, ending_bind, ending_spawn]
  cases (x s).ending <;> rfl

theorem seen_detached_eq (view : Deed → Option γ) : (detached stage x s : Course ε _).seen view =
    (Course.spawn .abortOnDrop (x s) : Course ε _).seen view ++
      match (x s).ending with
      | .panicked message => (view (.note (.workerEnded stage (panicReport message)))).toList
      | _ => [] := by
  rw [Course.seen, entries_detached, Entry.shown_append]
  cases (x s).ending <;> simp [Course.seen]

theorem length_detached : (detached stage x s : Course ε _).length = (x s).length := by
  rw [detached, bind_apply, Course.length_bind, ending_spawn, length_spawn]
  cases (x s).ending <;> rfl

end Detached

theorem onWorker_returns_iff {stage : String} {x : Act σ LifecycleError α} {s : σ} {p : α × σ} :
    (onWorker stage x s).ending = .returned p ↔ (x s).ending = .returned p := by
  rw [ending_onWorker]
  cases (x s).ending <;> simp

theorem orderly_onWorker {stage : String} {x : Act σ LifecycleError α} {s : σ}
    (h : (x s).ending ≠ .stuck) : (onWorker stage x s).ending.Orderly := by
  rw [ending_onWorker]
  cases hx : (x s).ending with
  | stuck => exact absurd hx h
  | _ => trivial

end Act

theorem detached_followOutput_returns_iff {stage pod : String} {container : Option String}
    {s t : σ} : (Act.detached stage (followOutput client job pod container) s : Course ε _).ending =
      .returned ((), t) ↔ client.LeavesLog job pod container s t := by
  rw [Act.ending_detached, ending_followOutput, Client.LeavesLog]
  cases (client.followLogs job.ns pod container s).outcome <;> simp [eq_comm]

theorem orderly_detached_followOutput {stage pod : String} {container : Option String} {s : σ}
    (h : (client.followLogs job.ns pod container s).outcome ≠ .hangs) :
    (Act.detached stage (followOutput client job pod container) s : Course ε _).ending.Orderly := by
  rw [Act.ending_detached, ending_followOutput]
  cases hlog : (client.followLogs job.ns pod container s).outcome with
  | hangs => exact absurd hlog h
  | _ => trivial

end BatchRun
