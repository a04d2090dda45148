import BatchRun.Proofs.Run.Alike
import BatchRun.Proofs.Run.Calls

/-!
# Runs on two clients

Two clients are counterparts if, in related states, they answer every call alike and their watches
deliver the same in step; nothing is said of the call that follows a log. If the log stages of two
runs are alike as well, the runs do the same and end the same, however slow the calls are that no
deadline bounds.

* `Client.Counterparts`: clients that differ at most in the log and in how long some calls take;
* `podStart_inStep`, `jobEnd_inStep`: the watches, deadlines included;
* `submit_alike`, `exitResult_alike`, `monitor_alike`: the other stages, and all of them in a row;
* **`execute_alike`**: the whole run.
-/

namespace BatchRun

variable {σ τ γ : Type}

/-- Two clients that answer alike in related states, apart from the log. The calls that open a watch
take the same time, too; of the others one client may be the slower. -/
structure Client.Counterparts (R : σ → τ → Prop) (a : Client σ) (b : Client τ) : Prop where
  createJob : ∀ ns manifest s t, R s t →
    (a.createJob ns manifest s).Alike R Eq (b.createJob ns manifest t)
  getJob : ∀ ns name s t, R s t → (a.getJob ns name s).Alike R Eq (b.getJob ns name t)
  watchPods : ∀ ns selector s t, R s t →
    (a.watchPods ns selector s).InStep R (Feed.Alike R) (b.watchPods ns selector t)
  watchJobs : ∀ ns selector s t, R s t →
    (a.watchJobs ns selector s).InStep R (Feed.Alike R) (b.watchJobs ns selector t)
  podStatus : ∀ ns name s t, R s t → (a.podStatus ns name s).Alike R Eq (b.podStatus ns name t)

theorem Client.counterparts_followLogs (client : Client σ)
    (followLogs : String → String → Option String → σ → Reply σ Nat) :
    client.Counterparts Eq { client with followLogs := followLogs } where
  createJob := by
    rintro ns manifest s _ rfl
    exact (Reply.InStep.refl _ fun _ => rfl).toAlike
  getJob := by
    rintro ns name s _ rfl
    exact (Reply.InStep.refl _ fun _ => rfl).toAlike
  watchPods := by
    rintro ns selector s _ rfl
    exact Reply.InStep.refl _ Feed.Alike.refl
  watchJobs := by
    rintro ns selector s _ rfl
    exact Reply.InStep.refl _ Feed.Alike.refl
  podStatus := by
    rintro ns name s _ rfl
    exact (Reply.InStep.refl _ fun _ => rfl).toAlike

/-- The configuration with the output followed or not. -/
def JobConfig.following (config : JobConfig) (stream : Bool) : JobConfig :=
  { config with streamOutput := stream }

section Stages

variable {R : σ → τ → Prop} {a : Client σ} {b : Client τ} (h : a.Counterparts R b)
  {view : Deed → Option γ}

include h

/-! ## Watches -/

theorem firstStarted_inStep {ε : Type} (job : JobIdentity) :
    Act.InStep R Eq (firstStarted a job : Act σ ε (Option Pod)) (firstStarted b job) := by
  refine (Act.inStep_note _).bind fun _ _ _ => ?_
  refine (Act.inStep_ask _ fun s t => h.watchPods _ _ s t).bind fun answer answer' hfeed => ?_
  cases hfeed with
  | opened hsteps hcloses => exact (Act.inStep_follow _ _ hsteps hcloses).held _
  | refused fault => exact (Act.inStep_note _).bind fun _ _ _ => Act.inStep_pure rfl

/-- The wait for the pod goes the same way at the same times, whichever deadline it has. -/
theorem podStart_inStep (job : JobIdentity) (limit : Nat) :
    Act.InStep R Eq (podStart a job limit) (podStart b job limit) := by
  refine Act.InStep.within ((firstStarted_inStep h job).bind fun found _ hfound => ?_) _ _ _
  subst hfound
  cases found with
  | none => exact (Act.inStep_note _).bind fun _ _ _ => Act.inStep_fail _
  | some pod => exact Act.inStep_pure rfl

theorem jobEnd_inStep (job : JobIdentity) (limit : Nat) :
    Act.InStep R Eq (jobEnd a job limit) (jobEnd b job limit) := by
  refine Act.InStep.within ((Act.inStep_note _).bind fun _ _ _ => ?_) _ _ _
  refine (Act.inStep_ask _ fun s t => h.watchJobs _ _ s t).bind fun answer answer' hfeed => ?_
  cases hfeed with
  | opened hsteps hcloses =>
    refine ((Act.inStep_follow _ _ hsteps hcloses).held _).bind fun decision _ hdecision => ?_
    subst hdecision
    rcases decision with _ | error | finished
    · exact (Act.inStep_note _).bind fun _ _ _ => Act.inStep_fail _
    · exact Act.inStep_fail _
    · exact Act.inStep_pure rfl
  | refused fault => exact Act.inStep_fail _

/-! ## The other stages -/

theorem submit_alike (manifest : Document) (ns : String) :
    Act.Alike view R Eq (submit a manifest ns) (submit b manifest ns) := by
  refine (Act.alike_ask _ fun s t => h.createJob _ _ s t).bind fun answer _ hanswer => ?_
  subst hanswer
  cases answer with
  | error fault => exact (Act.inStep_fail _).alike
  | ok made =>
    cases hname : made.name with
    | none =>
      simp only [hname]
      exact (Act.inStep_fail _).alike
    | some name =>
      simp only [hname]
      exact ((Act.inStep_note _).bind fun _ _ _ => Act.inStep_pure rfl).alike

theorem exitResult_alike (job : JobIdentity) (pod : String) :
    Act.Alike view R Eq (exitResult a job pod) (exitResult b job pod) := by
  refine (Act.alike_ask _ fun s t => h.podStatus _ _ s t).bind fun answer _ hanswer => ?_
  subst hanswer
  rcases answer with fault | _ | observed
  · exact (Act.inStep_fail _).alike
  · exact (Act.inStep_fail _).alike
  · cases hcode : observed.exitCode? with
    | none =>
      simp only [hcode]
      exact (Act.inStep_fail _).alike
    | some code =>
      simp only [hcode]
      exact ((Act.inStep_note _).bind fun _ _ _ => Act.inStep_pure rfl).alike

/-! ## Stages in a row -/

/-- Everything after the submission; following the output matters to the log stage only. -/
theorem monitor_alike (config : JobConfig) {stream stream' : Bool} {job : JobIdentity}
    (hlog : ∀ pod name, Act.Alike view R Eq (logStage a (config.following stream) job pod name)
      (logStage b (config.following stream') job pod name)) :
    Act.Alike view R Eq (monitor a (config.following stream) job)
      (monitor b (config.following stream') job) := by
  rw [monitor_eq, monitor_eq]
  refine (Act.alike_ask _ fun s t => h.getJob _ _ s t).bind fun answer _ hanswer => ?_
  subst hanswer
  rcases answer with fault | _ | found
  · exact (Act.inStep_fail _).alike
  · exact (Act.inStep_fail _).alike
  refine ((podStart_inStep h job _).onWorker _).alike.bind fun pod _ hsame => ?_
  subst hsame
  unfold afterPod
  cases pod.name with
  | none => exact (Act.inStep_fail _).alike
  | some name =>
    refine (hlog pod name).bind fun _ _ _ => ?_
    refine ((jobEnd_inStep h job _).onWorker _).alike.bind fun _ _ _ => ?_
    exact exitResult_alike h job name

end Stages

/-! ## The whole run -/

theorem settle_alike {view : Deed → Option γ} (job : JobIdentity)
    {c d : Course LifecycleError RunResult} (h : c.Alike view Eq d) :
    (settle job c).Alike view Eq (settle job d) := by
  obtain ⟨es, e, n⟩ := c
  obtain ⟨es', e', n'⟩ := d
  obtain ⟨hseen, hending⟩ := h
  have hshown : Entry.shown view es = Entry.shown view es' := hseen
  obtain rfl : e = e' := hending.eq
  cases e with
  | returned result =>
    exact ⟨by simp [settle, Course.seen, hshown], .returned rfl⟩
  | failed error => exact ⟨by simp [settle, Course.seen, hshown], .returned rfl⟩
  | panicked message => exact ⟨hseen, .panicked message⟩
  | stuck => exact ⟨hseen, .stuck⟩

/-- **Runs on counterparts whose log stages are alike do the same and end the same.** -/
theorem execute_alike {R : σ → τ → Prop} {a : Client σ} {b : Client τ} {view : Deed → Option γ}
    (h : a.Counterparts R b) (config : JobConfig) (stream stream' : Bool)
    (hlog : ∀ job pod name, Act.Alike view R Eq
      (logStage a (config.following stream) job pod name)
      (logStage b (config.following stream') job pod name))
    (listener : Listener) {s : σ} {t : τ} (hst : R s t) :
    (execute a (config.following stream) listener s).Alike view Eq
      (execute b (config.following stream') listener t) := by
  have hmanifest (x : Bool) : (config.following x).manifest = config.manifest := rfl
  unfold execute
  rw [hmanifest, hmanifest]
  cases config.manifest with
  | error e => exact (Course.InStep.refl (Course.fail (RunError.manifest e))).alike
  | ok manifest =>
    dsimp only
    refine Course.Alike.bind (Course.InStep.refl _).alike fun _ _ _ => ?_
    refine Course.Alike.bind (submit_alike h manifest _ s t hst) ?_
    rintro ⟨job, u⟩ ⟨job', v⟩ ⟨rfl : job = job', huv⟩
    refine Course.Alike.bind (Course.InStep.refl (listener.tell job)).alike fun _ _ _ => ?_
    refine settle_alike job (Course.Alike.bind
      (monitor_alike h config (hlog job) u v huv) fun p p' hp => ?_)
    exact ⟨rfl, .returned hp.1⟩

end BatchRun
