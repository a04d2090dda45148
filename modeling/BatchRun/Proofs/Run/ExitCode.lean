import BatchRun.Proofs.Run.Outcome
import Mathlib.Data.List.Nodup

/-!
# What the status of a result says

A run that cannot find out how its job ended returns the degraded result, and only then does a step
after the submission have failed. But the status of the degraded result is also a status that a
container may exit with, and the exit code that is read is the one listed first, which need not be
that of the container whose output is followed.

* `Client.LosesOutcome`: the steps after the submission that may fail;
* `fails_monitor_iff`, `execute_returned_cases`: a run returns an exit code unless one of them did;
* **`execute_isDegraded_iff`**: a result is degraded if a step failed, or if the exit code is -1;
* `RunResult.SpeaksFor`, **`execute_speaksFor_iff`**: when the status is that of the first container
  of the pod.
-/

namespace BatchRun

variable {σ ε α β : Type}

/-! ## Failures -/

/-- The activity fails. -/
def Ending.Fails (e : Ending ε α) : Prop := ∃ error, e = .failed error

namespace Ending

theorem fails_bind_iff {e : Ending ε α} {f : α → Ending ε β} :
    (e.bind f).Fails ↔ e.Fails ∨ ∃ a, e = .returned a ∧ (f a).Fails := by
  cases e <;> simp [bind, Fails]

theorem not_fails_of_returned {e : Ending ε α} {a : α} (h : e = .returned a) : ¬ e.Fails := by
  rintro ⟨error, hfails⟩
  rw [h] at hfails
  cases hfails

theorem Orderly.fails {e : Ending ε α} (h : e.Orderly) (hnot : ∀ a, e ≠ .returned a) :
    e.Fails := by
  rcases h.cases with ⟨a, ha⟩ | hfails
  · exact absurd ha (hnot a)
  · exact hfails

end Ending

namespace Act

theorem fails_fail (error : ε) (s : σ) : (fail error s : Course ε (α × σ)).ending.Fails :=
  ⟨error, rfl⟩

theorem fails_bind_iff {x : Act σ ε α} {f : α → Act σ ε β} {s : σ} :
    ((x >>= f) s).ending.Fails ↔ (x s).ending.Fails ∨
      ∃ a t, (x s).ending = .returned (a, t) ∧ (f a t).ending.Fails := by
  rw [ending_bind, Ending.fails_bind_iff, Prod.exists]

theorem fails_ask_bind_iff {call : Call} {reply : σ → Reply σ α} {f : Except Fault α → Act σ ε β}
    {s : σ} : ((ask call reply >>= f) s).ending.Fails ↔
      ∃ answer t, (reply s).outcome = .returns answer t ∧ (f answer t).ending.Fails := by
  have hask : ¬ (ask call reply s : Course ε _).ending.Fails := by
    rintro ⟨error, hfails⟩
    rw [ending_ask] at hfails
    cases hreply : (reply s).outcome <;> rw [hreply] at hfails <;> cases hfails
  simp only [fails_bind_iff, hask, false_or, ending_ask_eq_returned_iff]

theorem fails_onWorker_iff {stage : String} {x : Act σ LifecycleError α} {s : σ}
    (h : (x s).ending ≠ .stuck) :
    (onWorker stage x s).ending.Fails ↔ ∀ a t, (x s).ending ≠ .returned (a, t) := by
  constructor
  · intro hfails a t hreturns
    exact Ending.not_fails_of_returned (onWorker_returns_iff.2 hreturns) hfails
  · intro hnot
    refine (orderly_onWorker h).fails ?_
    rintro ⟨a, t⟩ hreturns
    exact hnot a t (onWorker_returns_iff.1 hreturns)

end Act

/-! ## Steps that fail -/

/-- A step after the submission does not find out how the job ended. -/
inductive Client.LosesOutcome (client : Client σ) (config : JobConfig) (job : JobIdentity) (s : σ) :
    Prop
  /-- The look-up of the job fails, or there is no such job. -/
  | lookup {answer : Except Fault (Option Job)} {t : σ}
    (hanswer : (client.getJob job.ns job.name s).outcome = .returns answer t)
    (hmissing : ∀ found, answer ≠ .ok (some found))
  /-- The pod watch is refused, breaks off or panics, or no pod starts in time. -/
  | podWatch {t : σ} (hfinds : client.Finds job s t)
    (hlost : ∀ pod u, ¬ client.StartsPod job (config.podSeconds * 1000) t pod u)
  /-- The pod that started has no name. -/
  | nameless {t u : σ} {pod : Pod} (hfinds : client.Finds job s t)
    (hpod : client.StartsPod job (config.podSeconds * 1000) t pod u) (hname : pod.name = none)
  /-- The job watch is refused, breaks off or panics, or the job does not finish in time or is
  deleted. -/
  | jobWatch {t u : σ} {pod : Pod} {name : String}
    (hpod : client.ReachesPod config job s pod name t)
    (hlog : client.PassesLog config job pod name t u)
    (hlost : ∀ finished v, ¬ client.FinishesJob job (config.jobSeconds * 1000) u finished v)
  /-- The pod cannot be read back, is gone, or its first container has not terminated. -/
  | readBack {t u : σ} {pod : Pod} {name : String} {answer : Except Fault (Option Pod)}
    (hend : client.ReachesEnd config job s pod name t)
    (hanswer : (client.podStatus job.ns name t).outcome = .returns answer u)
    (hmissing : ∀ observed, answer = .ok (some observed) → observed.exitCode? = none)

variable {client : Client σ} {config : JobConfig} {job : JobIdentity} {listener : Listener}
  {s t : σ}

theorem fails_podStart_iff {stage : String} {limit : Nat} :
    (Act.onWorker stage (podStart client job limit) s).ending.Fails ↔
      ∀ pod t, ¬ client.StartsPod job limit s pod t := by
  have hcomes : (podStart client job limit s).ending ≠ .stuck := Course.within_ne_stuck _ _ _ _
  simp only [Act.fails_onWorker_iff hcomes, ne_eq, podStart_returns_iff]

theorem fails_jobEnd_iff {stage : String} {limit : Nat} :
    (Act.onWorker stage (jobEnd client job limit) s).ending.Fails ↔
      ∀ finished t, ¬ client.FinishesJob job limit s finished t := by
  have hcomes : (jobEnd client job limit s).ending ≠ .stuck := Course.within_ne_stuck _ _ _ _
  simp only [Act.fails_onWorker_iff hcomes, ne_eq, jobEnd_returns_iff]

theorem not_fails_logStage {pod : Pod} {name : String} :
    ¬ (logStage client config job pod name s).ending.Fails := by
  rintro ⟨error, hfails⟩
  unfold logStage at hfails
  split at hfails
  · rw [Act.ending_detached, ending_followOutput] at hfails
    cases hlog : (client.followLogs job.ns name pod.primaryContainer? s).outcome <;>
      rw [hlog] at hfails <;> cases hfails
  · cases hfails

theorem fails_exitResult_iff {pod : String} :
    (exitResult client job pod s).ending.Fails ↔
      ∃ answer t, (client.podStatus job.ns pod s).outcome = .returns answer t ∧
        ∀ observed, answer = .ok (some observed) → observed.exitCode? = none := by
  rw [exitResult, Act.fails_ask_bind_iff]
  refine exists_congr fun answer => exists_congr fun t => and_congr_right fun _ => ?_
  rcases answer with fault | _ | observed
  · exact iff_of_true (Act.fails_fail _ t) (by simp)
  · exact iff_of_true (Act.fails_fail _ t) (by simp)
  · cases hcode : observed.exitCode? with
    | none =>
      simp only [hcode]
      refine iff_of_true (Act.fails_fail _ t) ?_
      rintro _ ⟨⟩
      exact hcode
    | some code =>
      simp only [hcode]
      refine iff_of_false (Ending.not_fails_of_returned rfl) fun h => ?_
      rw [h observed rfl] at hcode
      cases hcode

/-! ## Everything after the submission -/

theorem fails_afterPod_iff {pod : Pod} :
    (afterPod client config job pod s).ending.Fails ↔
      pod.name = none ∨ ∃ name u, pod.name = some name ∧
        client.PassesLog config job pod name s u ∧
        ((∀ finished v, ¬ client.FinishesJob job (config.jobSeconds * 1000) u finished v) ∨
          ∃ finished v, client.FinishesJob job (config.jobSeconds * 1000) u finished v ∧
            ∃ answer w, (client.podStatus job.ns name v).outcome = .returns answer w ∧
              ∀ observed, answer = .ok (some observed) → observed.exitCode? = none) := by
  unfold afterPod
  cases hname : pod.name with
  | none => exact iff_of_true (Act.fails_fail _ s) (.inl rfl)
  | some name =>
    simp only [Act.fails_bind_iff, not_fails_logStage, false_or, logStage_returns_iff,
      fails_jobEnd_iff, Act.onWorker_returns_iff, jobEnd_returns_iff, fails_exitResult_iff]
    constructor
    · rintro ⟨_, u, hlog, hrest⟩
      exact .inr ⟨name, u, rfl, hlog, hrest⟩
    · rintro (hnone | ⟨name', u, ⟨⟩, hlog, hrest⟩)
      · cases hnone
      · exact ⟨(), u, hlog, hrest⟩

theorem fails_afterLookup_iff {answer : Except Fault (Option Job)} :
    (afterLookup client config job answer s).ending.Fails ↔
      (∀ found, answer ≠ .ok (some found)) ∨ ∃ found, answer = .ok (some found) ∧
        ((∀ pod t, ¬ client.StartsPod job (config.podSeconds * 1000) s pod t) ∨
          ∃ pod t, client.StartsPod job (config.podSeconds * 1000) s pod t ∧
            (afterPod client config job pod t).ending.Fails) := by
  rcases answer with fault | _ | found
  · exact iff_of_true (Act.fails_fail _ s) (.inl nofun)
  · exact iff_of_true (Act.fails_fail _ s) (.inl nofun)
  · simp only [afterLookup, Act.fails_bind_iff, fails_podStart_iff, Act.onWorker_returns_iff,
      podStart_returns_iff]
    constructor
    · exact fun h => .inr ⟨found, rfl, h⟩
    · rintro (hmissing | ⟨_, _, h⟩)
      · exact absurd rfl (hmissing found)
      · exact h

/-- **What follows the submission fails exactly if one of its steps does.** -/
theorem fails_monitor_iff : (monitor client config job s).ending.Fails ↔
    client.LosesOutcome config job s := by
  simp only [monitor_eq, Act.fails_ask_bind_iff, fails_afterLookup_iff, fails_afterPod_iff]
  constructor
  · rintro ⟨answer, t, hanswer, hmissing | ⟨found, rfl, hlost | ⟨pod, u, hpod, hrest⟩⟩⟩
    · exact .lookup hanswer hmissing
    · exact .podWatch ⟨found, hanswer⟩ hlost
    · rcases hrest with hname | ⟨name, v, hname, hlog, hrest⟩
      · exact .nameless ⟨found, hanswer⟩ hpod hname
      · have hreached : client.ReachesPod config job s pod name u :=
          ⟨t, ⟨found, hanswer⟩, hpod, hname⟩
        rcases hrest with hlost | ⟨finished, w, hend, answer, x, hread, hmissing⟩
        · exact .jobWatch hreached hlog hlost
        · exact .readBack ⟨u, v, finished, hreached, hlog, hend⟩ hread hmissing
  · rintro (⟨hanswer, hmissing⟩ | ⟨⟨found, hanswer⟩, hlost⟩ | ⟨⟨found, hanswer⟩, hpod, hname⟩ |
      ⟨⟨t, ⟨found, hanswer⟩, hpod, hname⟩, hlog, hlost⟩ |
      ⟨⟨u, v, finished, ⟨t, ⟨found, hanswer⟩, hpod, hname⟩, hlog, hend⟩, hread, hmissing⟩)
    · exact ⟨_, _, hanswer, .inl hmissing⟩
    · exact ⟨_, _, hanswer, .inr ⟨found, rfl, .inl hlost⟩⟩
    · exact ⟨_, _, hanswer, .inr ⟨found, rfl, .inr ⟨_, _, hpod, .inl hname⟩⟩⟩
    · exact ⟨_, _, hanswer, .inr ⟨found, rfl, .inr ⟨_, _, hpod,
        .inr ⟨_, _, hname, hlog, .inl hlost⟩⟩⟩⟩
    · exact ⟨_, _, hanswer, .inr ⟨found, rfl, .inr ⟨_, _, hpod,
        .inr ⟨_, _, hname, hlog, .inr ⟨finished, _, hend, _, _, hread, hmissing⟩⟩⟩⟩⟩

theorem not_exitsWith_of_losesOutcome {code : Int} (h : client.LosesOutcome config job s) :
    ¬ client.ExitsWith config job s code := by
  intro hcode
  obtain ⟨t, hreturns⟩ := monitor_returns_of_exitsWith hcode
  exact Ending.not_fails_of_returned hreturns (fails_monitor_iff.2 h)

theorem exitsWith_unique {code code' : Int} (h : client.ExitsWith config job s code)
    (h' : client.ExitsWith config job s code') : code = code' := by
  obtain ⟨t, hreturns⟩ := monitor_returns_of_exitsWith h
  obtain ⟨t', hreturns'⟩ := monitor_returns_of_exitsWith h'
  rw [hreturns] at hreturns'
  cases hreturns'
  rfl

/-! ## The whole run -/

section Execute

variable {manifest : Document} (hmanifest : config.manifest = .ok manifest)
  (hcreates : client.Creates (targetNamespace manifest config.shortcuts.ns) manifest s job t)

include hmanifest hcreates

theorem ending_execute_of_exitsWith {code : Int} (h : client.ExitsWith config job t code) :
    (execute client config listener s).ending = .returned ⟨code, job.name⟩ := by
  obtain ⟨u, hreturns⟩ := monitor_returns_of_exitsWith h
  rw [ending_execute_of_creates hmanifest hcreates, hreturns]

theorem ending_execute_of_losesOutcome (h : client.LosesOutcome config job t) :
    (execute client config listener s).ending = .returned (.degraded job.name) := by
  obtain ⟨error, hfails⟩ := fails_monitor_iff.2 h
  rw [ending_execute_of_creates hmanifest hcreates, hfails]

theorem ending_execute_of_reachesEnd {pod observed : Pod} {name : String} {u v : σ}
    (hend : client.ReachesEnd config job t pod name u)
    (hread : (client.podStatus job.ns name u).outcome = .returns (.ok (some observed)) v) :
    (execute client config listener s).ending =
      .returned ⟨observed.exitCode?.getD RunResult.unknownStatus, job.name⟩ := by
  cases hcode : observed.exitCode? with
  | some code =>
    exact ending_execute_of_exitsWith hmanifest hcreates
      ⟨pod, name, u, v, hend, observed, hread, hcode⟩
  | none =>
    refine ending_execute_of_losesOutcome hmanifest hcreates (.readBack hend hread ?_)
    rintro _ ⟨⟩
    exact hcode

end Execute

/-- A run that returns had its job accepted, and either learnt its exit code or lost track of it. -/
theorem execute_returned_cases {result : RunResult}
    (h : (execute client config listener s).ending = .returned result) :
    ∃ manifest job t, config.manifest = .ok manifest ∧
      client.Creates (targetNamespace manifest config.shortcuts.ns) manifest s job t ∧
      (client.ExitsWith config job t result.status ∨
        client.LosesOutcome config job t ∧ result = .degraded job.name) := by
  cases hmanifest : config.manifest with
  | error e =>
    unfold execute at h
    rw [hmanifest] at h
    cases h
  | ok manifest =>
    obtain ⟨⟨job, t⟩, hsubmit, _⟩ := Ending.bind_eq_returned_iff.1 (ending_execute hmanifest ▸ h)
    have hcreates := submit_returns_iff.1 hsubmit
    refine ⟨manifest, job, t, rfl, hcreates, ?_⟩
    rw [ending_execute_of_creates hmanifest hcreates] at h
    cases hending : (monitor client config job t).ending with
    | returned p =>
      obtain ⟨pod, name, u, hend, hexit, _⟩ := monitor_returns_iff.1 hending
      rw [hending] at h
      cases h
      exact .inl ⟨pod, name, u, p.2, hend, hexit⟩
    | failed error =>
      rw [hending] at h
      cases h
      exact .inr ⟨fails_monitor_iff.1 ⟨error, hending⟩, rfl⟩
    | panicked message =>
      rw [hending] at h
      cases h
    | stuck =>
      rw [hending] at h
      cases h

theorem RunResult.isDegraded_iff {result : RunResult} :
    result.isDegraded = true ↔ result.status = -1 := beq_iff_eq

/-- **A result is degraded if a step after the submission failed, and also if the container exited
with -1; so it tells the two apart just as long as that is not its exit code.** -/
theorem execute_isDegraded_iff {result : RunResult}
    (h : (execute client config listener s).ending = .returned result) :
    ∃ manifest job t, config.manifest = .ok manifest ∧
      client.Creates (targetNamespace manifest config.shortcuts.ns) manifest s job t ∧
      (result.isDegraded = true ↔
        client.LosesOutcome config job t ∨ client.ExitsWith config job t (-1)) ∧
      ((result.isDegraded = true ↔ client.LosesOutcome config job t) ↔
        ¬ client.ExitsWith config job t (-1)) := by
  obtain ⟨manifest, job, t, hmanifest, hcreates, hexits | ⟨hloses, rfl⟩⟩ :=
    execute_returned_cases h
  · have hkept : ¬ client.LosesOutcome config job t :=
      fun hloses => not_exitsWith_of_losesOutcome hloses hexits
    have hcode : client.ExitsWith config job t (-1) ↔ result.status = -1 :=
      ⟨exitsWith_unique hexits, fun hstatus => hstatus ▸ hexits⟩
    refine ⟨manifest, job, t, hmanifest, hcreates, ?_⟩
    rw [RunResult.isDegraded_iff, hcode]
    exact ⟨⟨.inr, fun h => h.resolve_left hkept⟩,
      ⟨fun h hstatus => hkept (h.1 hstatus),
        fun hother => ⟨fun h => absurd h hother, fun h => absurd h hkept⟩⟩⟩
  · have hcode : ¬ client.ExitsWith config job t (-1) := not_exitsWith_of_losesOutcome hloses
    have hdegraded : (RunResult.degraded job.name).isDegraded = true := rfl
    exact ⟨manifest, job, t, hmanifest, hcreates,
      ⟨fun _ => .inl hloses, fun _ => hdegraded⟩,
      ⟨fun _ => hcode, fun _ => ⟨fun _ => hloses, fun _ => hdegraded⟩⟩⟩

theorem execute_isDegraded_iff_exiting : ∃ manifest job t,
    JobConfig.standard.manifest = .ok manifest ∧
    (Script.exiting 3).client.Creates
      (targetNamespace manifest JobConfig.standard.shortcuts.ns) manifest () job t ∧
    ((⟨3, "batch-1"⟩ : RunResult).isDegraded = true ↔
      (Script.exiting 3).client.LosesOutcome .standard job t ∨
        (Script.exiting 3).client.ExitsWith .standard job t (-1)) ∧
    (((⟨3, "batch-1"⟩ : RunResult).isDegraded = true ↔
      (Script.exiting 3).client.LosesOutcome .standard job t) ↔
        ¬ (Script.exiting 3).client.ExitsWith .standard job t (-1)) := by
  obtain ⟨manifest, hmanifest⟩ := JobConfig.standard_composes
  have hreturns : (execute (Script.exiting 3).client .standard .nobody ()).ending =
      .returned ⟨3, "batch-1"⟩ :=
    ending_execute_of_exitsWith hmanifest (Script.exiting_creates 3 _ manifest)
      (Script.exiting_exitsWith 3 _ _)
  exact execute_isDegraded_iff hreturns

/-- A container that exits with -1 gives the degraded result, although every step went well. -/
theorem degraded_of_exit_code : ∃ manifest job,
    JobConfig.standard.manifest = .ok manifest ∧
    (Script.exiting (-1)).client.Creates
      (targetNamespace manifest JobConfig.standard.shortcuts.ns) manifest () job () ∧
    (execute (Script.exiting (-1)).client .standard .nobody ()).ending =
      .returned (.degraded job.name) ∧
    (Script.exiting (-1)).client.ExitsWith .standard job () (-1) ∧
    ¬ (Script.exiting (-1)).client.LosesOutcome .standard job () := by
  obtain ⟨manifest, hmanifest⟩ := JobConfig.standard_composes
  have hcreates := Script.exiting_creates (-1)
    (targetNamespace manifest JobConfig.standard.shortcuts.ns) manifest
  have hexits := Script.exiting_exitsWith (-1) .standard
    ⟨"batch-1", targetNamespace manifest JobConfig.standard.shortcuts.ns⟩
  exact ⟨manifest, _, hmanifest, hcreates, ending_execute_of_exitsWith hmanifest hcreates hexits,
    hexits, fun hloses => not_exitsWith_of_losesOutcome hloses hexits⟩

/-! ## The container that a result is about -/

/-- Going by the statuses of a pod that was read back, a result is about the container whose output
is followed: the status of a result that is not degraded is its exit code, and if it has not
terminated, the result is degraded. -/
def RunResult.SpeaksFor (result : RunResult) (pod observed : Pod) : Prop :=
  ∀ status ∈ observed.statuses, pod.primaryContainer? = some status.name →
    (result.isDegraded = false → status.exitCode = some result.status) ∧
      (status.exitCode = none → result.isDegraded = true)

theorem RunResult.speaksFor_iff {pod observed : Pod} {main : ContainerStatus} {identifier : String}
    (hdistinct : (observed.statuses.map ContainerStatus.name).Nodup)
    (hmain : main ∈ observed.statuses) (hprimary : pod.primaryContainer? = some main.name) :
    RunResult.SpeaksFor ⟨observed.exitCode?.getD unknownStatus, identifier⟩ pod observed ↔
      (⟨observed.exitCode?.getD unknownStatus, identifier⟩ : RunResult).isDegraded = true ∨
        main.exitCode = observed.exitCode? := by
  have hunique : ∀ status ∈ observed.statuses, pod.primaryContainer? = some status.name →
      status = main := by
    intro status hstatus hname
    rw [hprimary, Option.some.injEq] at hname
    exact List.inj_on_of_nodup_map hdistinct hstatus hmain hname.symm
  constructor
  · intro hspeaks
    have hmainspeaks := hspeaks main hmain hprimary
    cases hcode : observed.exitCode? with
    | none => exact .inl rfl
    | some code =>
      rw [hcode] at hmainspeaks
      cases hdegraded : (⟨(some code).getD unknownStatus, identifier⟩ : RunResult).isDegraded with
      | true => exact .inl rfl
      | false => exact .inr (hmainspeaks.1 hdegraded)
  · rintro hcases status hstatus hname
    obtain rfl := hunique status hstatus hname
    rcases hcases with hdegraded | hsame
    · exact ⟨fun h => absurd hdegraded (by rw [h]; exact Bool.false_ne_true), fun _ => hdegraded⟩
    · rw [hsame]
      cases observed.exitCode? with
      | none => exact ⟨fun h => (Bool.false_ne_true h.symm).elim, fun _ => rfl⟩
      | some code => exact ⟨fun _ => rfl, nofun⟩

theorem RunResult.speaksFor_of_head? {pod observed : Pod} {main : ContainerStatus}
    {identifier : String} (hdistinct : (observed.statuses.map ContainerStatus.name).Nodup)
    (hfirst : observed.statuses.head? = some main)
    (hprimary : pod.primaryContainer? = some main.name) :
    RunResult.SpeaksFor ⟨observed.exitCode?.getD unknownStatus, identifier⟩ pod observed := by
  refine (speaksFor_iff hdistinct (List.mem_of_head? hfirst) hprimary).2 (.inr ?_)
  rw [Pod.exitCode?, hfirst]
  rfl

/-- **A run that reads its pod back is about the container whose output it follows if that is listed
first. Otherwise it is only if it is degraded, or if the entry listed first happens to agree.** -/
theorem execute_speaksFor_iff {manifest : Document} {pod observed : Pod} {name : String}
    {main : ContainerStatus} {u v : σ} (hmanifest : config.manifest = .ok manifest)
    (hcreates : client.Creates (targetNamespace manifest config.shortcuts.ns) manifest s job t)
    (hend : client.ReachesEnd config job t pod name u)
    (hread : (client.podStatus job.ns name u).outcome = .returns (.ok (some observed)) v)
    (hdistinct : (observed.statuses.map ContainerStatus.name).Nodup)
    (hmain : main ∈ observed.statuses) (hprimary : pod.primaryContainer? = some main.name) :
    ∃ result, (execute client config listener s).ending = .returned result ∧
      result.identifier = job.name ∧
      (result.SpeaksFor pod observed ↔
        result.isDegraded = true ∨ main.exitCode = observed.exitCode?) ∧
      (observed.statuses.head? = some main → result.SpeaksFor pod observed) :=
  ⟨_, ending_execute_of_reachesEnd hmanifest hcreates hend hread, rfl,
    RunResult.speaksFor_iff hdistinct hmain hprimary,
    fun hfirst => RunResult.speaksFor_of_head? hdistinct hfirst hprimary⟩

/-- A pod whose main container has a helper, and which lists the helper first. -/
def Script.attendedPod (code side : Int) : Pod :=
  ⟨some "batch-1-pod", ["main", "helper"], some "Running",
    [⟨"helper", some side⟩, ⟨"main", some code⟩]⟩

theorem execute_speaksFor_iff_attended : ∃ result,
    (execute (Script.showing (Script.attendedPod 3 3)).client .standard .nobody ()).ending =
      .returned result ∧
    result.identifier = "batch-1" ∧
    (result.SpeaksFor (Script.attendedPod 3 3) (Script.attendedPod 3 3) ↔
      result.isDegraded = true ∨ some 3 = (Script.attendedPod 3 3).exitCode?) ∧
    ((Script.attendedPod 3 3).statuses.head? = some ⟨"main", some 3⟩ →
      result.SpeaksFor (Script.attendedPod 3 3) (Script.attendedPod 3 3)) := by
  obtain ⟨manifest, hmanifest⟩ := JobConfig.standard_composes
  have hmain : (⟨"main", some 3⟩ : ContainerStatus) ∈ (Script.attendedPod 3 3).statuses := by
    decide
  exact execute_speaksFor_iff hmanifest (Script.showing_creates _ _ manifest)
    (Script.showing_reachesEnd (by decide) rfl _ _) rfl (by decide) hmain rfl

/-- The main container exits with 3, and its helper, which is listed first, with 0: a success. -/
theorem helper_speaks_for_main : ∃ result,
    (execute (Script.showing (Script.attendedPod 3 0)).client .standard .nobody ()).ending =
      .returned result ∧
    result.isSuccess = true ∧
    ((Script.attendedPod 3 0).statuses.map ContainerStatus.name).Nodup ∧
    (Script.attendedPod 3 0).primaryContainer? = some "main" ∧
    ⟨"main", some 3⟩ ∈ (Script.attendedPod 3 0).statuses ∧
    ¬ result.SpeaksFor (Script.attendedPod 3 0) (Script.attendedPod 3 0) := by
  obtain ⟨manifest, hmanifest⟩ := JobConfig.standard_composes
  have hreturns : (execute (Script.showing (Script.attendedPod 3 0)).client .standard .nobody
      ()).ending = .returned ⟨0, "batch-1"⟩ :=
    ending_execute_of_reachesEnd hmanifest (Script.showing_creates _ _ manifest)
      (Script.showing_reachesEnd (by decide) rfl _ _) rfl
  refine ⟨_, hreturns, rfl, by decide, rfl, by decide, ?_⟩
  intro hspeaks
  have hcode := (hspeaks ⟨"main", some 3⟩ (by decide) rfl).1 rfl
  cases hcode

end BatchRun
