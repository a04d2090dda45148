import BatchRun.Proofs.Document.Place
import BatchRun.Proofs.Run.Calls

/-!
# The protocol between a run and its client

However a client answers, the calls of a run are the first ones of one plan, and each is made only
once the answers before it allow it. The identity that the server assigns and the pod that the watch
delivers are the ones that all later calls are about.

* `Call.kind`, `targetNamespace_spec`;
* `Client.Permits`: what the client must have answered before a call;
* `Obeys`, `afterPod_obeys`, `monitor_obeys`: the calls up to a point are the first ones of a plan;
* **`execute_calls`**: the calls of a whole run.
-/

namespace BatchRun

variable {σ ε α β : Type}

/-! ## Calls -/

/-- The kinds of calls. -/
inductive Call.Kind where
  | createJob
  | getJob
  | watchPods
  | watchJobs
  | followLogs
  | podStatus
  deriving DecidableEq

/-- The kind of a call. -/
def Call.kind : Call → Kind
  | createJob _ _ => .createJob
  | getJob _ _ => .getJob
  | watchPods _ _ => .watchPods
  | watchJobs _ _ => .watchJobs
  | followLogs _ _ _ => .followLogs
  | podStatus _ _ => .podStatus

theorem targetNamespace_spec (manifest : Document) (fallback : String) :
    (∃ text, Document.resolve? ["metadata", "namespace"] manifest = some (.string text) ∧
      text ≠ "" ∧ targetNamespace manifest fallback = text) ∨
    ((∀ text, Document.resolve? ["metadata", "namespace"] manifest = some (.string text) →
      text = "") ∧ targetNamespace manifest fallback = fallback) := by
  have hkeys : ∀ key ∈ ["metadata", "namespace"], Pointer.index? key = none := by decide
  rw [Document.resolve?_eq_along hkeys]
  unfold targetNamespace Document.textAlong
  cases hfound : Document.along ["metadata", "namespace"] manifest with
  | none => simp
  | some d =>
    cases d with
    | string text =>
      by_cases htext : text = ""
      · simp [htext]
      · simp [htext]
    | _ => simp

namespace Client

/-- What the client must have answered before a call: the server has named the job, the job was
found, the pod watch has delivered a pod with that name, the job watch has seen the job finished. -/
def Permits (client : Client σ) (config : JobConfig) (manifest : Document) (ns : String) (s : σ)
    (job : JobIdentity) (pod : Pod) (name : String) : Call → Prop
  | .createJob _ _ => True
  | .getJob _ _ => ∃ t, client.Creates ns manifest s job t
  | .watchPods _ _ => ∃ t u, client.Creates ns manifest s job t ∧ client.Finds job t u
  | .followLogs _ _ _ | .watchJobs _ _ =>
    ∃ t u, client.Creates ns manifest s job t ∧ client.ReachesPod config job t pod name u
  | .podStatus _ _ =>
    ∃ t u, client.Creates ns manifest s job t ∧ client.ReachesEnd config job t pod name u

end Client

/-! ## Plans -/

/-- The calls are the first ones of a plan, and each of them is permitted. -/
def Obeys (permits : Call → Prop) (plan calls : List Call) : Prop :=
  calls <+: plan ∧ ∀ call ∈ calls, permits call

variable {permits : Call → Prop} {plan calls : List Call} {call : Call}

theorem obeys_nil : Obeys permits plan [] := ⟨List.nil_prefix, List.forall_mem_nil _⟩

theorem Obeys.cons (hcall : permits call) (h : Obeys permits plan calls) :
    Obeys permits (call :: plan) (call :: calls) :=
  ⟨(List.prefix_cons_inj call).2 h.1, List.forall_mem_cons.2 ⟨hcall, h.2⟩⟩

/-- An activity that makes the first call of a plan, and then what obeys the rest of it. -/
theorem obeys_bind {x : Act σ ε α} {f : α → Act σ ε β} {s : σ} (hx : (x s).calls = [call])
    (hcall : permits call)
    (hf : ∀ a t, (x s).ending = .returned (a, t) → Obeys permits plan (f a t).calls) :
    Obeys permits (call :: plan) ((x >>= f) s).calls := by
  rw [Act.bind_apply, Course.calls_eq_seen, Course.seen_bind, ← Course.calls_eq_seen, hx]
  cases hending : (x s).ending with
  | returned p => exact (hf p.1 p.2 hending).cons hcall
  | _ => exact obeys_nil.cons hcall

/-! ## Stages in a row -/

section Monitor

variable {client : Client σ} {config : JobConfig} {manifest : Document} {ns : String}
  {job : JobIdentity} {s t : σ}

/-- The calls of a run after its pod has started. -/
def planAfterPod (config : JobConfig) (job : JobIdentity) (pod : Pod) (name : String) : List Call :=
  (if config.streamOutput then [.followLogs job.ns name pod.primaryContainer?] else []) ++
    [.watchJobs job.ns job.nameSelector, .podStatus job.ns name]

theorem calls_onWorker_jobEnd (limit : Nat) (u : σ) :
    (Act.onWorker "completion-watch" (jobEnd client job limit) u).calls =
      [.watchJobs job.ns job.nameSelector] := by
  rw [Course.calls_eq_seen, Act.seen_onWorker (fun _ => rfl) rfl,
    seen_jobEnd Deed.sparse_call?]
  rfl

theorem calls_onWorker_podStart (limit : Nat) (u : σ) :
    (Act.onWorker "pod-watch" (podStart client job limit) u).calls =
      [.watchPods job.ns job.podSelector] := by
  rw [Course.calls_eq_seen, Act.seen_onWorker (fun _ => rfl) rfl,
    seen_podStart Deed.sparse_call?]
  rfl

theorem afterPod_obeys (hcreates : client.Creates ns manifest s job t) {pod : Pod} {name : String}
    {u : σ} (hpod : client.ReachesPod config job t pod name u) :
    Obeys (client.Permits config manifest ns s job pod name) (planAfterPod config job pod name)
      (afterPod client config job pod u).calls := by
  -- the last two calls, whether or not there is a log before them
  have hrest (v : σ) (hlog : client.PassesLog config job pod name u v) :
      Obeys (client.Permits config manifest ns s job pod name)
        [.watchJobs job.ns job.nameSelector, .podStatus job.ns name]
        ((Act.onWorker "completion-watch" (jobEnd client job (config.jobSeconds * 1000)) >>=
          fun _ => exitResult client job name) v).calls := by
    refine obeys_bind (calls_onWorker_jobEnd _ v) ⟨t, u, hcreates, hpod⟩ fun finished w hend => ?_
    rw [Act.onWorker_returns_iff, jobEnd_returns_iff] at hend
    rw [Course.calls_eq_seen, seen_exitResult Deed.sparse_call?]
    exact obeys_nil.cons ⟨t, w, hcreates, u, v, finished, hpod, hlog, hend⟩
  obtain ⟨_, _, _, hname⟩ := id hpod
  unfold afterPod planAfterPod
  rw [hname]
  by_cases hstream : config.streamOutput = true
  · rw [if_pos hstream]
    have hlogs : (logStage client config job pod name u).calls =
        [.followLogs job.ns name pod.primaryContainer?] := by
      rw [logStage, if_pos hstream, Course.calls_eq_seen,
        Act.seen_detached (fun _ => rfl) rfl Deed.sparse_call?.note,
        seen_followOutput Deed.sparse_call?]
      rfl
    exact obeys_bind hlogs ⟨t, u, hcreates, hpod⟩ fun _ v hlog =>
      hrest v (logStage_returns_iff.1 hlog)
  · rw [if_neg hstream]
    have hlogs : logStage client config job pod name = Pure.pure () := by
      rw [logStage, if_neg hstream]
    have hpasses : client.PassesLog config job pod name u u := by
      rw [Client.PassesLog, if_neg hstream]
    show Obeys _ _ ((logStage client config job pod name >>= _) u).calls
    rw [hlogs, Act.pure_bind]
    exact hrest u hpasses

theorem reachesPod_unique {pod pod' : Pod} {name name' : String} {u u' : σ}
    (h : client.ReachesPod config job t pod name u)
    (h' : client.ReachesPod config job t pod' name' u') : pod' = pod ∧ name' = name := by
  obtain ⟨v, ⟨found, hfound⟩, hpod, hname⟩ := h
  obtain ⟨v', ⟨found', hfound'⟩, hpod', hname'⟩ := h'
  rw [hfound] at hfound'
  cases hfound'
  rw [← podStart_returns_iff] at hpod hpod'
  rw [hpod] at hpod'
  cases hpod'
  rw [hname] at hname'
  cases hname'
  exact ⟨rfl, rfl⟩

theorem monitor_obeys (config : JobConfig) (hcreates : client.Creates ns manifest s job t) :
    ∃ pod name, Obeys (client.Permits config manifest ns s job pod name)
      (.getJob job.ns job.name :: .watchPods job.ns job.podSelector ::
        planAfterPod config job pod name)
      (monitor client config job t).calls := by
  -- the plan is about the only pod that can be reached, if there is one
  obtain ⟨pod, name, hunique⟩ : ∃ pod name, ∀ pod' name' u,
      client.ReachesPod config job t pod' name' u → pod' = pod ∧ name' = name := by
    by_cases h : ∃ pod name u, client.ReachesPod config job t pod name u
    · obtain ⟨pod, name, u, hpod⟩ := h
      exact ⟨pod, name, fun pod' name' u' hpod' => reachesPod_unique hpod hpod'⟩
    · exact ⟨default, "", fun pod' name' u' hpod' => absurd ⟨pod', name', u', hpod'⟩ h⟩
  have hask : (Act.ask (.getJob job.ns job.name) (client.getJob job.ns job.name) t :
      Course LifecycleError _).calls = [.getJob job.ns job.name] := by
    rw [Course.calls_eq_seen, Act.seen_ask Deed.sparse_call?]
    rfl
  rw [monitor_eq]
  refine ⟨pod, name, obeys_bind hask ⟨t, hcreates⟩ fun answer u hanswer => ?_⟩
  rw [Act.ending_ask_eq_returned_iff] at hanswer
  rcases answer with f | _ | found
  · exact obeys_nil
  · exact obeys_nil
  refine obeys_bind (calls_onWorker_podStart _ u) ⟨t, u, hcreates, found, hanswer⟩
    fun pod' v hstart => ?_
  rw [Act.onWorker_returns_iff, podStart_returns_iff] at hstart
  cases hname : pod'.name with
  | none =>
    unfold afterPod
    rw [hname]
    exact obeys_nil
  | some name' =>
    have hpod : client.ReachesPod config job t pod' name' v := ⟨u, ⟨found, hanswer⟩, hstart, hname⟩
    obtain ⟨rfl, rfl⟩ := hunique pod' name' v hpod
    exact afterPod_obeys hcreates hpod

end Monitor

/-! ## The whole run -/

theorem podSelector_eq (job : JobIdentity) : job.podSelector = "job-name=" ++ job.name := rfl

theorem nameSelector_eq (job : JobIdentity) : job.nameSelector = "metadata.name=" ++ job.name := rfl

theorem execute_obeys (client : Client σ) {config : JobConfig} {manifest : Document}
    (listener : Listener) (s : σ) (hmanifest : config.manifest = .ok manifest) :
    ∃ job pod name, Obeys
      (client.Permits config manifest (targetNamespace manifest config.shortcuts.ns) s job pod name)
      (.createJob (targetNamespace manifest config.shortcuts.ns) manifest ::
        .getJob job.ns job.name :: .watchPods job.ns job.podSelector ::
          planAfterPod config job pod name)
      (execute client config listener s).calls := by
  by_cases h : ∃ job t,
      client.Creates (targetNamespace manifest config.shortcuts.ns) manifest s job t
  · obtain ⟨job, t, hcreates⟩ := h
    obtain ⟨pod, name, hrest⟩ := monitor_obeys config hcreates
    refine ⟨job, pod, name, ?_⟩
    have htell : (listener.tell job : Course RunError Unit).seen Deed.call? = [] := by
      cases listener <;> rfl
    rw [Course.calls_eq_seen, seen_execute_of_creates Deed.sparse_call? hmanifest hcreates, htell]
    exact hrest.cons trivial
  · refine ⟨default, default, "", ?_⟩
    rw [Course.calls_eq_seen, seen_execute_of_not_creates Deed.sparse_call? hmanifest
      fun job t hcreates => h ⟨job, t, hcreates⟩]
    exact obeys_nil.cons trivial

/-- **Without a manifest nothing is called. Otherwise the calls of a run are the first ones of one
plan, no two of one kind, and each is permitted by the answers before it.** -/
theorem execute_calls (client : Client σ) (config : JobConfig) (listener : Listener) (s : σ) :
    (∃ e, config.manifest = .error e ∧ (execute client config listener s).calls = []) ∨
    ∃ manifest ns job pod name, config.manifest = .ok manifest ∧
      ((∃ text, Document.resolve? ["metadata", "namespace"] manifest = some (.string text) ∧
          text ≠ "" ∧ ns = text) ∨
        ((∀ text, Document.resolve? ["metadata", "namespace"] manifest = some (.string text) →
          text = "") ∧ ns = config.shortcuts.ns)) ∧
      (execute client config listener s).calls <+:
        [.createJob ns manifest, .getJob job.ns job.name,
          .watchPods job.ns ("job-name=" ++ job.name)] ++
        (if config.streamOutput then [.followLogs job.ns name pod.primaryContainer?] else []) ++
        [.watchJobs job.ns ("metadata.name=" ++ job.name), .podStatus job.ns name] ∧
      ((execute client config listener s).calls.map Call.kind).Nodup ∧
      ∀ call ∈ (execute client config listener s).calls,
        client.Permits config manifest ns s job pod name call := by
  cases hmanifest : config.manifest with
  | error e =>
    refine .inl ⟨e, rfl, ?_⟩
    rw [Course.calls_eq_seen, seen_execute_of_error hmanifest]
  | ok manifest =>
    obtain ⟨job, pod, name, hfirst, hpermits⟩ := execute_obeys client listener s hmanifest
    refine .inr ⟨manifest, _, job, pod, name, rfl,
      targetNamespace_spec manifest config.shortcuts.ns, ?_, ?_, hpermits⟩
    · rw [← podSelector_eq, ← nameSelector_eq]
      exact hfirst
    · refine List.Nodup.sublist (hfirst.sublist.map Call.kind) ?_
      unfold planAfterPod
      cases config.streamOutput with
      | true => simp [Call.kind]
      | false => simp [Call.kind]

example : (execute (Script.exiting 3).client .standard .nobody ()).calls.map Call.kind =
    [.createJob, .getJob, .watchPods, .followLogs, .watchJobs, .podStatus] := by
  decide +kernel

end BatchRun
