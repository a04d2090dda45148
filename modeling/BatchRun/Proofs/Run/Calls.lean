import BatchRun.Proofs.Run.Outcome

/-!
# What a stage calls

Every stage opens with the one call that it makes, so that neither a deadline nor a panic on a
worker can hide it, and makes no other. This holds of any view that is sparse enough.

* `Deed.call?`, `Deed.line?`, `Deed.started?`: the calls, the lines of output, and the identities
  that are handed over;
* `Act.seen_onWorker`, `Act.seen_detached`: a worker does what there is to do;
* `seen_submit`, `seen_podStart`, `seen_jobEnd`, `seen_followOutput`, `seen_exitResult`: **a stage
  makes one call**, whatever comes of it;
* `seen_execute`, `seen_execute_of_creates`, `seen_execute_of_not_creates`: a whole run.
-/

namespace BatchRun

variable {σ ε α γ : Type} {client : Client σ} {job : JobIdentity} {view : Deed → Option γ}

/-! ## Calls and identities -/

namespace Deed

/-- The call that a deed is. -/
def call? : Deed → Option Call
  | call c => some c
  | _ => none

/-- The line that a deed forwards. -/
def line? : Deed → Option String
  | line text => some text
  | _ => none

/-- The identity that a deed hands over. -/
def started? : Deed → Option JobIdentity
  | started job => some job
  | _ => none

theorem sparse_call? : Sparse call? :=
  ⟨fun _ => rfl, fun _ => rfl, fun _ => rfl, fun _ => rfl, fun _ => rfl, fun _ => rfl⟩

theorem sparse_started? : Sparse started? :=
  ⟨fun _ => rfl, fun _ => rfl, fun _ => rfl, fun _ => rfl, fun _ => rfl, fun _ => rfl⟩

end Deed

namespace Course

theorem calls_eq_seen (c : Course ε α) : c.calls = c.seen Deed.call? := rfl

theorem lines_eq_seen (c : Course ε α) : c.lines = c.seen Deed.line? := rfl

theorem started?_eq_head? (c : Course ε α) : c.started? = (c.seen Deed.started?).head? :=
  (List.head?_filterMap ..).symm

theorem started?_eq_none_of_seen {c : Course ε α} (h : c.seen Deed.started? = []) :
    c.started? = none := by
  rw [started?_eq_head?, h]
  rfl

end Course

/-! ## Workers -/

namespace Act

section Workers

variable (hspawned : ∀ handle, view (.spawned handle) = none) (hjoined : view .joined = none)

include hspawned hjoined

theorem seen_onWorker (stage : String) (x : Act σ LifecycleError α) (s : σ) :
    (onWorker stage x s).seen view = (x s).seen view := by
  rw [Course.seen, entries_onWorker]
  exact Course.seen_spawn_of_none _ _ hspawned hjoined

theorem seen_detached (hnote : ∀ n, view (.note n) = none) (stage : String) (x : Act σ Empty Unit)
    (s : σ) : (detached stage x s : Course ε _).seen view = (x s).seen view := by
  rw [seen_detached_eq, Course.seen_spawn_of_none _ _ hspawned hjoined]
  cases (x s).ending <;> simp [hnote]

end Workers

end Act

/-! ## Stages -/

theorem seen_submit (hview : Deed.Sparse view) (manifest : Document) (ns : String) (s : σ) :
    (submit client manifest ns s).seen view =
      (view (.call (.createJob ns manifest))).toList := by
  rw [submit, Act.bind_apply, Course.seen_bind_of_forall, Act.seen_ask hview]
  rintro ⟨answer, t⟩
  cases answer with
  | error f => rfl
  | ok made =>
    cases hname : made.name with
    | none =>
      simp only [hname]
      rfl
    | some name =>
      simp only [hname]
      rw [Act.seen_note_bind hview]
      rfl

theorem opens_firstStarted (hview : Deed.Sparse view) (s : σ) :
    (firstStarted client job s : Course ε _).Opens view
      (view (.call (.watchPods job.ns job.podSelector))).toList := by
  refine Act.opens_note_bind hview (Course.Opens.bind (Act.opens_ask hview _ _ s) ?_)
  rintro ⟨answer, t⟩
  cases answer with
  | error f =>
    show ((Act.note _ >>= _) t : Course ε _).seen view = []
    rw [Act.seen_note_bind hview]
    rfl
  | ok feed =>
    show (Course.held .podWatch (Act.follow _ none feed t)).seen view = []
    rw [Course.seen_held hview.opened hview.released]
    exact Act.seen_followSteps hview.note hview.request _ _ _ _

theorem seen_podStart (hview : Deed.Sparse view) (limit : Nat) (s : σ) :
    (podStart client job limit s).seen view =
      (view (.call (.watchPods job.ns job.podSelector))).toList := by
  refine Course.Opens.seen_within (Course.Opens.bind (opens_firstStarted hview s) ?_)
    hview.released hview.note limit _ _
  rintro ⟨result, t⟩
  cases result with
  | none =>
    show ((Act.note _ >>= _) t : Course LifecycleError _).seen view = []
    rw [Act.seen_note_bind hview]
    rfl
  | some pod => rfl

theorem seen_jobEnd (hview : Deed.Sparse view) (limit : Nat) (s : σ) :
    (jobEnd client job limit s).seen view =
      (view (.call (.watchJobs job.ns job.nameSelector))).toList := by
  refine Course.Opens.seen_within (Act.opens_note_bind hview
    (Course.Opens.bind (Act.opens_ask hview _ _ s) ?_)) hview.released hview.note limit _ _
  rintro ⟨answer, t⟩
  cases answer with
  | error f => rfl
  | ok feed =>
    have hfollow : (Act.held .jobWatch (Act.follow (JobEnd.react job.name) () feed) t :
        Course LifecycleError _).seen view = [] := by
      rw [Act.held, Act.mapCourse, Course.seen_held hview.opened hview.released]
      exact Act.seen_followSteps hview.note hview.request _ _ _ _
    show ((Act.held .jobWatch (Act.follow (JobEnd.react job.name) () feed) >>= _) t :
      Course LifecycleError _).seen view = []
    rw [Act.bind_apply, Course.seen_bind_of_forall, hfollow]
    rintro ⟨result, u⟩
    cases result with
    | none =>
      show ((Act.note _ >>= _) u : Course LifecycleError _).seen view = []
      rw [Act.seen_note_bind hview]
      rfl
    | some decision => cases decision <;> rfl

theorem seen_followOutput (hview : Deed.Sparse view) (pod : String) (container : Option String)
    (s : σ) : (followOutput client job pod container s : Course ε _).seen view =
      (view (.call (.followLogs job.ns pod container))).toList := by
  rw [followOutput, Act.seen_note_bind hview, Act.bind_apply, Course.seen_bind_of_forall]
  · rw [Act.held, Act.mapCourse, Course.seen_held hview.opened hview.released, Act.seen_ask hview]
  · rintro ⟨answer, t⟩
    cases answer with
    | error f => exact Act.seen_note hview _ t
    | ok count => exact Act.seen_note hview _ t

theorem seen_exitResult (hview : Deed.Sparse view) (pod : String) (s : σ) :
    (exitResult client job pod s).seen view = (view (.call (.podStatus job.ns pod))).toList := by
  rw [exitResult, Act.bind_apply, Course.seen_bind_of_forall, Act.seen_ask hview]
  rintro ⟨answer, t⟩
  cases answer with
  | error f => rfl
  | ok found =>
    cases found with
    | none => rfl
    | some observed =>
      cases hcode : observed.exitCode? with
      | none =>
        simp only [hcode]
        rfl
      | some code =>
        simp only [hcode]
        rw [Act.seen_note_bind hview]
        rfl

/-! ## The whole run -/

theorem seen_settle (hview : Deed.Sparse view) (c : Course LifecycleError RunResult) :
    (settle job c).seen view = c.seen view := by
  unfold settle Course.seen
  cases c.ending <;> simp [hview.note]

variable {config : JobConfig} {listener : Listener} {manifest : Document} {s : σ}

/-- The job is created once; if that names it, the identity is handed over and the rest follows. -/
theorem seen_execute (hview : Deed.Sparse view) (hmanifest : config.manifest = .ok manifest) :
    (execute client config listener s).seen view =
      (view (.call (.createJob (targetNamespace manifest config.shortcuts.ns) manifest))).toList ++
        (submit client manifest (targetNamespace manifest config.shortcuts.ns) s).ending.value?.elim
          [] fun p => (listener.tell p.1 : Course RunError Unit).seen view ++
            (monitor client config p.1 p.2).seen view := by
  have hrun (p : JobIdentity × σ) :
      (Course.bind (listener.tell p.1 : Course RunError Unit) fun _ =>
        settle p.1 ((monitor client config p.1).run' p.2)).seen view =
      (listener.tell p.1 : Course RunError Unit).seen view ++
        (monitor client config p.1 p.2).seen view := by
    rw [Course.seen_bind_of_returned (ending_tell listener), seen_settle hview, StateT.run',
      Course.map_eq, Course.seen_bind_of_forall fun _ => rfl]
  unfold execute
  rw [hmanifest]
  show (Course.bind (Course.note _) fun _ => Course.bind (submit client manifest _ s) fun p =>
    Course.bind (listener.tell p.1) fun _ => settle p.1 ((monitor client config p.1).run' p.2)).seen
      view = _
  rw [Course.seen_bind_of_returned rfl, Course.seen_bind, seen_submit hview]
  simp only [hrun]
  rw [Course.note, Course.deed, Course.seen, Entry.shown_cons, hview.note]
  rfl

theorem seen_execute_of_creates (hview : Deed.Sparse view) {t : σ}
    (hmanifest : config.manifest = .ok manifest)
    (hcreates : client.Creates (targetNamespace manifest config.shortcuts.ns) manifest s job t) :
    (execute client config listener s).seen view =
      (view (.call (.createJob (targetNamespace manifest config.shortcuts.ns) manifest))).toList ++
        ((listener.tell job : Course RunError Unit).seen view ++
          (monitor client config job t).seen view) := by
  rw [seen_execute hview hmanifest, submit_returns_iff.2 hcreates]
  rfl

theorem seen_execute_of_not_creates (hview : Deed.Sparse view)
    (hmanifest : config.manifest = .ok manifest)
    (h : ∀ job t,
      ¬ client.Creates (targetNamespace manifest config.shortcuts.ns) manifest s job t) :
    (execute client config listener s).seen view =
      (view
        (.call (.createJob (targetNamespace manifest config.shortcuts.ns) manifest))).toList := by
  rw [seen_execute hview hmanifest]
  cases hending :
      (submit client manifest (targetNamespace manifest config.shortcuts.ns) s).ending with
  | returned p => exact absurd (submit_returns_iff.1 hending) (h p.1 p.2)
  | _ => exact List.append_nil _

theorem seen_execute_of_error {e : ManifestError} (hmanifest : config.manifest = .error e) :
    (execute client config listener s).seen view = [] := by
  unfold execute
  rw [hmanifest]
  rfl

end BatchRun
