import BatchRun.Cluster.Script
import BatchRun.Proofs.Manifest.Base
import BatchRun.Proofs.Run.Stages

/-!
# What a run comes to

The outcome of a run is described by four answers of the client: the job is found, a pod of it
starts in time and has a name, the job finishes in time, and the pod reports an exit code. If all
four are there, the run returns the exit code, and otherwise the degraded result.

* `Client.ReachesPod`, `ReachesEnd`, `ExitsWith`: the answers up to a point;
* `Client.Responds`: no call that the run itself makes hangs or panics;
* `Act.Inherited`: what activities have if their parts have it;
* `monitor_returns_iff`, `orderly_monitor`: everything after the submission;
* **`execute_outcome`**: the result of a run whose job is accepted.
-/

namespace BatchRun

variable {σ : Type}

/-! ## Answers up to a point -/

namespace Client

variable (client : Client σ) (config : JobConfig) (job : JobIdentity)

/-- The job is found, and a pod of it starts in time and has a name. -/
def ReachesPod (s : σ) (pod : Pod) (name : String) (t : σ) : Prop :=
  ∃ u, client.Finds job s u ∧ client.StartsPod job (config.podSeconds * 1000) u pod t ∧
    pod.name = some name

/-- The log of the pod is left, or was not asked for. -/
def PassesLog (pod : Pod) (name : String) (s t : σ) : Prop :=
  if config.streamOutput then client.LeavesLog job name pod.primaryContainer? s t else t = s

/-- A pod is reached, its log is left and the job finishes in time. -/
def ReachesEnd (s : σ) (pod : Pod) (name : String) (t : σ) : Prop :=
  ∃ u v finished, client.ReachesPod config job s pod name u ∧
    client.PassesLog config job pod name u v ∧
    client.FinishesJob job (config.jobSeconds * 1000) v finished t

/-- The job finishes and its pod reports a code. -/
def ExitsWith (s : σ) (code : Int) : Prop :=
  ∃ pod name t u, client.ReachesEnd config job s pod name t ∧ client.ReportsExit job name t code u

/-- The calls that no worker makes come back, and following the log does not hang. -/
structure Responds (s : σ) : Prop where
  getJob : ∃ answer t, (client.getJob job.ns job.name s).outcome = .returns answer t
  followLogs : config.streamOutput = true → ∀ pod name t,
    client.ReachesPod config job s pod name t →
      (client.followLogs job.ns name pod.primaryContainer? t).outcome ≠ .hangs
  podStatus : ∀ pod name t, client.ReachesEnd config job s pod name t →
    ∃ answer u, (client.podStatus job.ns name t).outcome = .returns answer u

end Client

/-! ## After the submission -/

variable (client : Client σ) (config : JobConfig) (job : JobIdentity)

/-- The log of a pod is followed if that is wanted. -/
def logStage (pod : Pod) (name : String) : Act σ LifecycleError Unit :=
  if config.streamOutput then
    Act.detached "logs" (followOutput client job name pod.primaryContainer?)
  else Pure.pure ()

/-- Everything after a pod has started. -/
def afterPod (pod : Pod) : Act σ LifecycleError RunResult :=
  match pod.name with
  | none => Act.fail (.podNotFound s!"{job.name} (unnamed)")
  | some name =>
    logStage client config job pod name >>= fun _ =>
      Act.onWorker "completion-watch" (jobEnd client job (config.jobSeconds * 1000)) >>= fun _ =>
        exitResult client job name

/-- Everything after the job has been looked up. -/
def afterLookup : Except Fault (Option Job) → Act σ LifecycleError RunResult
  | .error f => Act.fail (.api job.name f)
  | .ok none => Act.fail (.jobNotFound job.name)
  | .ok (some _) =>
    Act.onWorker "pod-watch" (podStart client job (config.podSeconds * 1000)) >>=
      afterPod client config job

theorem monitor_eq : monitor client config job =
    Act.ask (.getJob job.ns job.name) (client.getJob job.ns job.name) >>=
      afterLookup client config job := by
  unfold monitor
  congr 1
  funext answer
  rcases answer with f | _ | found
  · rfl
  · rfl
  · show _ >>= _ = _ >>= _
    congr 1
    funext pod
    unfold afterPod logStage
    cases pod.name with
    | none => rfl
    | some name =>
      cases config.streamOutput with
      | true => rfl
      | false =>
        show _ = (Pure.pure () >>= fun _ => Act.onWorker "completion-watch"
          (jobEnd client job (config.jobSeconds * 1000)) >>= fun _ => exitResult client job name)
        rw [Act.pure_bind]
        rfl

/-- A property that an activity has if its parts have it. -/
structure Act.Inherited (P : ∀ ε α : Type, Act σ ε α → Prop) : Prop where
  pure : ∀ {ε α : Type} (a : α), P ε α (Pure.pure a)
  bind : ∀ {ε α β : Type} {x : Act σ ε α} {f : α → Act σ ε β}, P ε α x → (∀ a, P ε β (f a)) →
    P ε β (x >>= f)
  fail : ∀ {ε α : Type} (error : ε), P ε α (Act.fail error)
  note : ∀ {ε : Type} (notice : Notice), P ε Unit (Act.note notice)
  ask : ∀ {ε α : Type} (call : Call) (reply : σ → Reply σ α),
    P ε (Except Fault α) (Act.ask call reply)

namespace Act.Inherited

variable {P : ∀ ε α : Type, Act σ ε α → Prop} (h : Inherited P)

include h

theorem submit (manifest : Document) (ns : String) :
    P RunError JobIdentity (submit client manifest ns) := by
  refine h.bind (h.ask _ _) fun answer => ?_
  cases answer with
  | error f => exact h.fail _
  | ok made =>
    cases hname : made.name with
    | none =>
      simp only [hname]
      exact h.fail _
    | some name =>
      simp only [hname]
      exact h.bind (h.note _) fun _ => h.pure _

theorem exitResult (pod : String) : P LifecycleError RunResult (exitResult client job pod) := by
  refine h.bind (h.ask _ _) fun answer => ?_
  rcases answer with f | _ | observed
  · exact h.fail _
  · exact h.fail _
  · cases hcode : observed.exitCode? with
    | none =>
      simp only [hcode]
      exact h.fail _
    | some code =>
      simp only [hcode]
      exact h.bind (h.note _) fun _ => h.pure _

theorem monitor
    (hpod : ∀ limit, P LifecycleError Pod (Act.onWorker "pod-watch" (podStart client job limit)))
    (hlog : ∀ pod container,
      P LifecycleError Unit (Act.detached "logs" (followOutput client job pod container)))
    (hjob : ∀ limit, P LifecycleError Job
      (Act.onWorker "completion-watch" (jobEnd client job limit))) :
    P LifecycleError RunResult (monitor client config job) := by
  rw [monitor_eq]
  refine h.bind (h.ask _ _) fun answer => ?_
  rcases answer with f | _ | found
  · exact h.fail _
  · exact h.fail _
  refine h.bind (hpod _) fun pod => ?_
  unfold afterPod
  cases pod.name with
  | none => exact h.fail _
  | some name =>
    refine h.bind ?_ fun _ => h.bind (hjob _) fun _ => h.exitResult client job name
    unfold logStage
    split
    · exact hlog name _
    · exact h.pure ()

end Act.Inherited

variable {client config job}

theorem logStage_returns_iff {pod : Pod} {name : String} {s t : σ} {u : Unit} :
    (logStage client config job pod name s).ending = .returned (u, t) ↔
      client.PassesLog config job pod name s t := by
  rw [logStage, Client.PassesLog]
  cases config.streamOutput with
  | true => exact detached_followOutput_returns_iff
  | false =>
    rw [if_neg Bool.false_ne_true, if_neg Bool.false_ne_true, Act.pure_apply]
    simp [eq_comm]

theorem afterPod_returns_iff {pod : Pod} {s t : σ} {result : RunResult} :
    (afterPod client config job pod s).ending = .returned (result, t) ↔
      ∃ name u v finished, pod.name = some name ∧ client.PassesLog config job pod name s u ∧
        client.FinishesJob job (config.jobSeconds * 1000) u finished v ∧
        client.ReportsExit job name v result.status t ∧ result.identifier = job.name := by
  rw [afterPod]
  cases hname : pod.name with
  | none =>
    constructor
    · intro h
      cases h
    · rintro ⟨_, _, _, _, h, _⟩
      cases h
  | some name =>
    simp only [Act.ending_bind_eq_returned_iff, logStage_returns_iff, Act.onWorker_returns_iff,
      jobEnd_returns_iff, exitResult_returns_iff]
    constructor
    · rintro ⟨_, u, hlog, finished, v, hend, hexit⟩
      exact ⟨name, u, v, finished, rfl, hlog, hend, hexit⟩
    · rintro ⟨_, u, v, finished, ⟨⟩, hlog, hend, hexit⟩
      exact ⟨(), u, hlog, finished, v, hend, hexit⟩

/-- **The run learns an exit code exactly if the client gives all four answers.** -/
theorem monitor_returns_iff {s t : σ} {result : RunResult} :
    (monitor client config job s).ending = .returned (result, t) ↔
      ∃ pod name u, client.ReachesEnd config job s pod name u ∧
        client.ReportsExit job name u result.status t ∧ result.identifier = job.name := by
  rw [monitor_eq, Act.ending_bind_eq_returned_iff]
  simp only [Act.ending_ask_eq_returned_iff]
  constructor
  · rintro ⟨answer, u, hanswer, hreturns⟩
    rcases answer with f | _ | found
    · cases hreturns
    · cases hreturns
    · obtain ⟨pod, v, hpod, hrest⟩ := Act.ending_bind_eq_returned_iff.1 hreturns
      rw [Act.onWorker_returns_iff, podStart_returns_iff] at hpod
      obtain ⟨name, w, x, finished, hname, hlog, hend, hexit⟩ := afterPod_returns_iff.1 hrest
      exact ⟨pod, name, x, ⟨v, w, finished, ⟨u, ⟨found, hanswer⟩, hpod, hname⟩, hlog, hend⟩, hexit⟩
  · rintro ⟨pod, name, x, ⟨v, w, finished, ⟨u, ⟨found, hanswer⟩, hpod, hname⟩, hlog, hend⟩, hexit⟩
    refine ⟨.ok (some found), u, hanswer, Act.ending_bind_eq_returned_iff.2 ⟨pod, v, ?_, ?_⟩⟩
    · rwa [Act.onWorker_returns_iff, podStart_returns_iff]
    · exact afterPod_returns_iff.2 ⟨name, w, x, finished, hname, hlog, hend, hexit⟩

theorem monitor_returns_of_exitsWith {s : σ} {code : Int}
    (h : client.ExitsWith config job s code) :
    ∃ t, (monitor client config job s).ending = .returned (⟨code, job.name⟩, t) := by
  obtain ⟨pod, name, u, t, hend, hexit⟩ := h
  exact ⟨t, monitor_returns_iff.2 ⟨pod, name, u, hend, hexit, rfl⟩⟩

theorem orderly_logStage {pod : Pod} {name : String} {s : σ}
    (h : config.streamOutput = true →
      (client.followLogs job.ns name pod.primaryContainer? s).outcome ≠ .hangs) :
    (logStage client config job pod name s).ending.Orderly := by
  unfold logStage
  cases hstream : config.streamOutput with
  | true => exact orderly_detached_followOutput (h hstream)
  | false => trivial

theorem orderly_monitor {s : σ} (h : client.Responds config job s) :
    (monitor client config job s).ending.Orderly := by
  rw [monitor_eq]
  refine Act.orderly_bind (Act.orderly_ask_iff.2 h.getJob) fun answer u hanswer => ?_
  rw [Act.ending_ask_eq_returned_iff] at hanswer
  rcases answer with f | _ | found
  · trivial
  · trivial
  refine Act.orderly_bind (Act.orderly_onWorker (Course.within_ne_stuck _ _ _ _))
    fun pod v hpod => ?_
  rw [Act.onWorker_returns_iff, podStart_returns_iff] at hpod
  unfold afterPod
  cases hname : pod.name with
  | none => trivial
  | some name =>
    have hreached : client.ReachesPod config job s pod name v := ⟨u, ⟨found, hanswer⟩, hpod, hname⟩
    refine Act.orderly_bind (orderly_logStage fun hstream =>
      h.followLogs hstream pod name v hreached) fun _ w hlog => ?_
    refine Act.orderly_bind (Act.orderly_onWorker (Course.within_ne_stuck _ _ _ _))
      fun finished x hend => ?_
    rw [Act.onWorker_returns_iff, jobEnd_returns_iff] at hend
    exact orderly_exitResult
      (h.podStatus pod name x ⟨v, w, finished, hreached, logStage_returns_iff.1 hlog, hend⟩)

/-! ## A job that runs to its end -/

namespace Script

/-- A pod whose only container has exited with a code. -/
def exitedPod (code : Int) : Pod :=
  ⟨some "batch-1-pod", ["main"], some "Running", [⟨"main", some code⟩]⟩

/-- A job that has completed. -/
def completedJob : Job := ⟨some "batch-1", true, []⟩

/-- A cluster on which any job is named `batch-1`, runs and exits with a code. -/
def exiting (code : Int) : Script where
  create := ⟨0, none, ⟨some "batch-1", none⟩⟩
  getJob := ⟨0, none, some completedJob⟩
  pods := ⟨0, none, ⟨[⟨0, .ok (.applied (exitedPod code))⟩], false⟩⟩
  jobs := ⟨0, none, ⟨[⟨0, .ok (.applied completedJob)⟩], false⟩⟩
  logs := ⟨0, none, []⟩
  podStatus := ⟨0, none, some (exitedPod code)⟩

theorem exiting_creates (code : Int) (ns : String) (manifest : Document) :
    (exiting code).client.Creates ns manifest () ⟨"batch-1", ns⟩ () :=
  ⟨⟨some "batch-1", none⟩, "batch-1", rfl, rfl, rfl⟩

theorem responds {script : Script} (hget : script.getJob.mishap = none)
    (hlogs : script.logs.mishap = none) (hstatus : script.podStatus.mishap = none)
    (config : JobConfig) (job : JobIdentity) : script.client.Responds config job () where
  getJob := ⟨.ok script.getJob.answer, (), by simp [client, Scripted.reply, Scripted.outcome, hget]⟩
  followLogs := fun _ _ _ _ _ => by simp [client, Scripted.reply, Scripted.outcome, hlogs]
  podStatus := fun _ _ _ _ =>
    ⟨.ok script.podStatus.answer, (), by simp [client, Scripted.reply, Scripted.outcome, hstatus]⟩

/-- A cluster like that, but with another pod. -/
def showing (pod : Pod) : Script :=
  { exiting 0 with
    pods := ⟨0, none, ⟨[⟨0, .ok (.applied pod)⟩], false⟩⟩
    podStatus := ⟨0, none, some pod⟩ }

theorem showing_creates (pod : Pod) (ns : String) (manifest : Document) :
    (showing pod).client.Creates ns manifest () ⟨"batch-1", ns⟩ () :=
  ⟨⟨some "batch-1", none⟩, "batch-1", rfl, rfl, rfl⟩

theorem showing_reachesEnd {pod : Pod} {name : String} (hphase : pod.phase ≠ .pending)
    (hname : pod.name = some name) (config : JobConfig) (job : JobIdentity) :
    (showing pod).client.ReachesEnd config job () pod name () := by
  have hpod : (showing pod).client.ReachesPod config job () pod name () := by
    refine ⟨(), ⟨_, rfl⟩, ⟨_, (), 0, rfl, ?_, Nat.zero_le _⟩, hname⟩
    exact ⟨[], _, [], rfl, List.forall_mem_nil _, rfl, hphase, rfl, rfl⟩
  have hlog : (showing pod).client.PassesLog config job pod name () () := by
    unfold Client.PassesLog
    cases config.streamOutput with
    | true => exact .inl ⟨_, rfl⟩
    | false => rfl
  have hend :
      (showing pod).client.FinishesJob job (config.jobSeconds * 1000) () completedJob () := by
    refine ⟨_, (), 0, rfl, ?_, Nat.zero_le _⟩
    exact ⟨[], _, [], rfl, List.forall_mem_nil _, rfl, nofun, rfl, rfl⟩
  exact ⟨(), (), _, hpod, hlog, hend⟩

theorem exiting_exitsWith (code : Int) (config : JobConfig) (job : JobIdentity) :
    (exiting code).client.ExitsWith config job () code :=
  ⟨_, _, (), (), showing_reachesEnd (by simp [exitedPod, Pod.phase, PodPhase.ofReport]) rfl
    config job, exitedPod code, rfl, rfl⟩

end Script

/-! ## The whole run -/

theorem ending_tell (listener : Listener) :
    (listener.tell job : Course RunError Unit).ending = .returned () := by
  cases listener <;> rfl

variable {listener : Listener} {manifest : Document} {s t : σ}

theorem ending_execute (hmanifest : config.manifest = .ok manifest) :
    (execute client config listener s).ending =
      (submit client manifest (targetNamespace manifest config.shortcuts.ns) s).ending.bind
        fun p => (settle p.1 ((monitor client config p.1).run' p.2)).ending := by
  unfold execute
  rw [hmanifest]
  show (Course.bind _ fun _ => Course.bind _ _).ending = _
  rw [Course.ending_bind]
  show (Course.bind _ _).ending = _
  rw [Course.ending_bind]
  congr 1
  funext p
  show (Course.bind _ _).ending = _
  rw [Course.ending_bind, ending_tell]
  rfl

/-- Once the job is accepted, only a panic or a call that never comes back keeps the run from
returning. -/
theorem ending_execute_of_creates (hmanifest : config.manifest = .ok manifest)
    (hcreates : client.Creates (targetNamespace manifest config.shortcuts.ns) manifest s job t) :
    (execute client config listener s).ending =
      match (monitor client config job t).ending with
      | .returned (result, _) => .returned result
      | .failed _ => .returned (.degraded job.name)
      | .panicked message => .panicked message
      | .stuck => .stuck := by
  rw [ending_execute hmanifest, submit_returns_iff.2 hcreates]
  show (settle job (_ <$> monitor client config job t)).ending = _
  rw [settle, Course.map_eq, Course.ending_bind]
  cases (monitor client config job t).ending <;> rfl

theorem execute_returns_of_creates (hmanifest : config.manifest = .ok manifest)
    (hcreates : client.Creates (targetNamespace manifest config.shortcuts.ns) manifest s job t)
    (hresponds : client.Responds config job t) :
    ∃ result, (execute client config listener s).ending = .returned result := by
  rw [ending_execute_of_creates hmanifest hcreates]
  rcases (orderly_monitor hresponds).cases with ⟨p, h⟩ | ⟨error, h⟩
  · exact ⟨p.1, by rw [h]⟩
  · exact ⟨.degraded job.name, by rw [h]⟩

/-- **A run whose job is accepted returns the exit code of the first container if the job is found,
its pod starts, the job finishes and the pod reports it, and the degraded result otherwise.** -/
theorem execute_outcome (hmanifest : config.manifest = .ok manifest)
    (hcreates : client.Creates (targetNamespace manifest config.shortcuts.ns) manifest s job t)
    (hresponds : client.Responds config job t) :
    ∃ result, (execute client config listener s).ending = .returned result ∧
      result.identifier = job.name ∧
      (∀ code, client.ExitsWith config job t code → result.status = code) ∧
      ((∀ code, ¬ client.ExitsWith config job t code) → result = .degraded job.name) := by
  rw [ending_execute_of_creates hmanifest hcreates]
  rcases (orderly_monitor hresponds).cases with ⟨⟨result, u⟩, hreturns⟩ | ⟨error, hfails⟩
  · obtain ⟨pod, name, v, hend, hexit, hid⟩ := monitor_returns_iff.1 hreturns
    rw [hreturns]
    refine ⟨result, rfl, hid, ?_, ?_⟩
    · -- any answers that give a code make the run return it
      intro code hcode
      obtain ⟨x, hx⟩ := monitor_returns_of_exitsWith hcode
      rw [hreturns] at hx
      cases hx
      rfl
    · intro hnone
      exact absurd ⟨pod, name, v, u, hend, hexit⟩ (hnone result.status)
  · rw [hfails]
    refine ⟨.degraded job.name, rfl, rfl, ?_, fun _ => rfl⟩
    intro code hcode
    obtain ⟨x, hx⟩ := monitor_returns_of_exitsWith hcode
    rw [hfails] at hx
    cases hx

theorem execute_outcome_exiting : ∃ result,
    (execute (Script.exiting 3).client .standard .nobody ()).ending = .returned result ∧
      result = ⟨3, "batch-1"⟩ := by
  obtain ⟨manifest, hmanifest⟩ := JobConfig.standard_composes
  obtain ⟨⟨status, identifier⟩, hreturns, hname, hstatus, _⟩ := execute_outcome hmanifest
    (Script.exiting_creates 3 _ manifest) (Script.responds rfl rfl rfl _ _)
  refine ⟨_, hreturns, ?_⟩
  rw [RunResult.mk.injEq]
  exact ⟨hstatus 3 (Script.exiting_exitsWith 3 _ _), hname⟩

end BatchRun
