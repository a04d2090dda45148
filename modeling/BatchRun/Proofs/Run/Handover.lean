import BatchRun.Proofs.Run.Protocol

/-!
# Handing over the identity

The identity of a job is handed over the moment the server has named it, before anything else is
asked about the job. Nobody need be there to take it: the rest of the run is the same.

* `Call.Concerns`: a call is about a job;
* `Deed.isTidings`, `Course.SameBut`: two courses differ at most in certain deeds;
  `execute_sameBut`: who waits for the identity makes no other difference;
* `entries_execute_of_creates`: **a run, cut open at the handing over**;
* **`execute_started`**: the identity is handed over once, early, to whoever waits, and it is the
  one that all later calls and the result are about.
-/

namespace BatchRun

variable {σ ε α β : Type}

/-! ## Calls about a job -/

/-- A call is about a job: it is in the namespace of the job and bears its name, if it bears the name
of a job at all. -/
def Call.Concerns (job : JobIdentity) : Call → Prop
  | .createJob _ _ => False
  | .getJob ns name => ns = job.ns ∧ name = job.name
  | .watchPods ns selector => ns = job.ns ∧ selector = "job-name=" ++ job.name
  | .watchJobs ns selector => ns = job.ns ∧ selector = "metadata.name=" ++ job.name
  | .followLogs ns _ _ => ns = job.ns
  | .podStatus ns _ => ns = job.ns

theorem concerns_of_mem_plan {config : JobConfig} {job : JobIdentity} {pod : Pod} {name : String}
    {call : Call} (h : call ∈ Call.getJob job.ns job.name ::
      Call.watchPods job.ns job.podSelector :: planAfterPod config job pod name) :
    call.Concerns job := by
  rcases List.mem_cons.1 h with rfl | h
  · exact ⟨rfl, rfl⟩
  rcases List.mem_cons.1 h with rfl | h
  · exact ⟨rfl, rfl⟩
  rcases List.mem_append.1 h with h | h
  · split at h
    · rw [List.mem_singleton.1 h]
      exact rfl
    · cases h
  · rcases List.mem_cons.1 h with rfl | h
    · exact ⟨rfl, rfl⟩
    · rw [List.mem_singleton.1 h]
      exact rfl

/-! ## Courses that differ in some deeds -/

/-- The deeds that there are only because of the one who waits for the identity. -/
def Deed.isTidings : Deed → Bool
  | .started _ | .note (.receiverDropped _) => true
  | _ => false

namespace Course

/-- The courses differ at most in deeds of one sort. -/
structure SameBut (sort : Deed → Bool) (c d : Course ε α) : Prop where
  entries : (c.entries.filter fun (e : Entry) => !sort e.deed) =
    d.entries.filter fun (e : Entry) => !sort e.deed
  ending : c.ending = d.ending
  length : c.length = d.length

variable {sort : Deed → Bool} {c d : Course ε α}

theorem SameBut.refl (c : Course ε α) : c.SameBut sort c := ⟨rfl, rfl, rfl⟩

theorem SameBut.bind (h : c.SameBut sort d) {f g : α → Course ε β}
    (hf : ∀ a, (f a).SameBut sort (g a)) : (c.bind f).SameBut sort (d.bind g) where
  entries := by
    rw [entries_bind, entries_bind, List.filter_append, List.filter_append, h.entries, h.ending,
      h.length]
    congr 1
    cases d.ending.value? with
    | none => rfl
    | some a =>
      have hlater (n : Nat) (es : List Entry) :
          (es.map (Entry.later n)).filter (fun (e : Entry) => !sort e.deed) =
            (es.filter fun (e : Entry) => !sort e.deed).map (Entry.later n) := List.filter_map
      rw [Option.elim_some, Option.elim_some, hlater, hlater, (hf a).entries]
  ending := by
    rw [ending_bind, ending_bind, h.ending]
    congr 1
    funext a
    exact (hf a).ending
  length := by
    rw [length_bind, length_bind, h.ending, h.length]
    congr 2
    funext a
    exact (hf a).length

theorem SameBut.seen {γ : Type} {view : Deed → Option γ} (h : c.SameBut sort d)
    (hview : ∀ deed, sort deed = true → view deed = none) : c.seen view = d.seen view := by
  have hshown (es : List Entry) : Entry.shown view es =
      Entry.shown view (es.filter fun (e : Entry) => !sort e.deed) := by
    induction es with
    | nil => rfl
    | cons e es ih =>
      cases hsort : sort e.deed with
      | true => rw [List.filter_cons_of_neg (by simp [hsort]), Entry.shown_cons, ih,
          hview _ hsort, Option.toList_none, List.nil_append]
      | false => rw [List.filter_cons_of_pos (by simp [hsort]), Entry.shown_cons, ih,
          Entry.shown_cons]
  rw [Course.seen, Course.seen, hshown, h.entries, ← hshown]

end Course

/-- **Who waits for the identity makes no difference to a run but the handing over itself.** -/
theorem execute_sameBut (client : Client σ) (config : JobConfig) (listener listener' : Listener)
    (s : σ) : (execute client config listener s).SameBut Deed.isTidings
      (execute client config listener' s) := by
  unfold execute
  cases config.manifest with
  | error e => exact .refl _
  | ok manifest =>
    refine Course.SameBut.bind (.refl _) fun _ => ?_
    refine Course.SameBut.bind (.refl _) fun p => ?_
    refine Course.SameBut.bind ?_ fun _ => .refl _
    cases listener <;> cases listener' <;> exact ⟨rfl, rfl, rfl⟩

/-! ## The handing over -/

theorem Entry.map_later_zero (es : List Entry) : es.map (later 0) = es := by
  have hlater : later 0 = id := by
    funext e
    rw [later, Nat.zero_add]
    rfl
  rw [hlater, List.map_id]

section Handover

variable {client : Client σ} {config : JobConfig} {manifest : Document} {job : JobIdentity}
  {s t : σ}

theorem length_submit_of_creates {ns : String} (hcreates : client.Creates ns manifest s job t) :
    (submit client manifest ns s).length = (client.createJob ns manifest s).delay := by
  obtain ⟨made, name, houtcome, hname, -⟩ := hcreates
  have hask : (Act.ask (.createJob ns manifest) (client.createJob ns manifest) s :
      Course RunError _).ending = .returned (.ok made, t) :=
    Act.ending_ask_eq_returned_iff.2 houtcome
  rw [submit, Act.bind_apply, Course.length_bind, hask, Act.length_ask]
  simp only [Ending.value?, Option.elim_some, hname]
  rfl

/-- What is done up to the moment when the identity is known. -/
def entriesBefore (client : Client σ) (config : JobConfig) (manifest : Document) (s : σ) :
    List Entry :=
  ⟨0, false, .note (.composed config.shortcuts.toPatch.length config.customizations.length
    config.shortcuts.ns)⟩ ::
      (submit client manifest (targetNamespace manifest config.shortcuts.ns) s).entries

/-- What is done after that. -/
def entriesAfter (client : Client σ) (config : JobConfig) (job : JobIdentity) (delay : Nat)
    (t : σ) : List Entry :=
  (settle job ((monitor client config job).run' t)).entries.map (Entry.later delay)

/-- **Between what is done before and after, there is only the handing over.** -/
theorem entries_execute_of_creates (listener : Listener) (hmanifest : config.manifest = .ok manifest)
    (hcreates : client.Creates (targetNamespace manifest config.shortcuts.ns) manifest s job t) :
    (execute client config listener s).entries =
      entriesBefore client config manifest s ++
        ((listener.tell job : Course RunError Unit).entries.map (Entry.later
          (client.createJob (targetNamespace manifest config.shortcuts.ns) manifest s).delay) ++
        entriesAfter client config job
          (client.createJob (targetNamespace manifest config.shortcuts.ns) manifest s).delay t) := by
  have htell : (listener.tell job : Course RunError Unit).length = 0 := by cases listener <;> rfl
  unfold execute
  rw [hmanifest]
  show (Course.bind (Course.note _) fun _ => Course.bind (submit client manifest _ s) fun p =>
    Course.bind (listener.tell p.1) fun _ =>
      settle p.1 ((monitor client config p.1).run' p.2)).entries = _
  rw [Course.entries_bind]
  show _ :: (Course.bind _ _).entries.map (Entry.later 0) = _
  rw [Entry.map_later_zero, Course.entries_bind, submit_returns_iff.2 hcreates,
    length_submit_of_creates hcreates]
  show _ :: (_ ++ (Course.bind _ _).entries.map _) = _
  rw [Course.entries_bind, ending_tell, htell]
  show _ :: (_ ++ (_ ++ (settle _ _).entries.map (Entry.later 0)).map _) = _
  rw [Entry.map_later_zero, List.map_append]
  rfl

theorem entries_execute_listening (hmanifest : config.manifest = .ok manifest)
    (hcreates : client.Creates (targetNamespace manifest config.shortcuts.ns) manifest s job t) :
    (execute client config .listening s).entries = entriesBefore client config manifest s ++
      ⟨(client.createJob (targetNamespace manifest config.shortcuts.ns) manifest s).delay, false,
          .started job⟩ ::
        entriesAfter client config job
          (client.createJob (targetNamespace manifest config.shortcuts.ns) manifest s).delay t :=
  entries_execute_of_creates .listening hmanifest hcreates

theorem calls_entriesBefore (client : Client σ) (config : JobConfig) (manifest : Document) (s : σ) :
    Entry.shown Deed.call? (entriesBefore client config manifest s) =
      [.createJob (targetNamespace manifest config.shortcuts.ns) manifest] := by
  rw [entriesBefore, Entry.shown_cons]
  exact seen_submit Deed.sparse_call? manifest _ s

theorem calls_entriesAfter (client : Client σ) (config : JobConfig) (job : JobIdentity)
    (delay : Nat) (t : σ) : ∃ rest, Entry.shown Deed.call?
      (entriesAfter client config job delay t) = .getJob job.ns job.name :: rest ∧
      (monitor client config job t).calls = .getJob job.ns job.name :: rest := by
  have hafter : Entry.shown Deed.call? (entriesAfter client config job delay t) =
      (monitor client config job t).calls := by
    rw [entriesAfter, Entry.shown_later]
    show (settle job ((monitor client config job).run' t)).seen Deed.call? = _
    rw [seen_settle Deed.sparse_call?, StateT.run', Course.map_eq,
      Course.seen_bind_of_forall fun _ => rfl]
    rfl
  rw [hafter, monitor_eq, Act.bind_apply, Course.calls_eq_seen, Course.seen_bind,
    Act.seen_ask Deed.sparse_call?]
  exact ⟨_, rfl, rfl⟩

theorem started_entriesBefore (client : Client σ) (config : JobConfig) (manifest : Document)
    (s : σ) : Entry.shown Deed.started? (entriesBefore client config manifest s) = [] := by
  rw [entriesBefore, Entry.shown_cons]
  exact seen_submit Deed.sparse_started? manifest _ s

theorem seen_monitor_of_call {γ : Type} {view : Deed → Option γ} (hview : Deed.Sparse view)
    (hcall : ∀ call, view (.call call) = none) (hspawned : ∀ handle, view (.spawned handle) = none)
    (hjoined : view .joined = none) (s : σ) : (monitor client config job s).seen view = [] := by
  rw [monitor_eq, Act.bind_apply, Course.seen_bind_of_forall, Act.seen_ask hview, hcall]
  · rfl
  rintro ⟨answer, t⟩
  rcases answer with f | _ | found
  · rfl
  · rfl
  show Course.seen view ((_ >>= _ : Act σ _ _) t) = []
  rw [Act.bind_apply, Course.seen_bind_of_forall, Act.seen_onWorker hspawned hjoined,
    seen_podStart hview, hcall]
  · rfl
  rintro ⟨pod, u⟩
  show (afterPod client config job pod u).seen view = []
  unfold afterPod
  cases pod.name with
  | none => rfl
  | some name =>
    have hlog : (logStage client config job pod name u).seen view = [] := by
      unfold logStage
      split
      · rw [Act.seen_detached hspawned hjoined hview.note, seen_followOutput hview, hcall]
        rfl
      · rfl
    show Course.seen view ((_ >>= _ : Act σ _ _) u) = []
    rw [Act.bind_apply, Course.seen_bind_of_forall, hlog]
    rintro ⟨_, v⟩
    show Course.seen view ((_ >>= _ : Act σ _ _) v) = []
    rw [Act.bind_apply, Course.seen_bind_of_forall, Act.seen_onWorker hspawned hjoined,
      seen_jobEnd hview, hcall]
    · rfl
    rintro ⟨_, w⟩
    show (exitResult client job name w).seen view = []
    rw [seen_exitResult hview, hcall]
    rfl

theorem started_entriesAfter (client : Client σ) (config : JobConfig) (job : JobIdentity)
    (delay : Nat) (t : σ) :
    Entry.shown Deed.started? (entriesAfter client config job delay t) = [] := by
  rw [entriesAfter, Entry.shown_later]
  show (settle job ((monitor client config job).run' t)).seen Deed.started? = _
  rw [seen_settle Deed.sparse_started?, StateT.run', Course.map_eq,
    Course.seen_bind_of_forall fun _ => rfl]
  exact seen_monitor_of_call Deed.sparse_started? (fun _ => rfl) (fun _ => rfl) rfl t

theorem identifier_execute {listener : Listener} (hmanifest : config.manifest = .ok manifest)
    (hcreates : client.Creates (targetNamespace manifest config.shortcuts.ns) manifest s job t)
    {result : RunResult} (hresult : (execute client config listener s).ending = .returned result) :
    result.identifier = job.name := by
  rw [ending_execute_of_creates hmanifest hcreates] at hresult
  cases hmonitor : (monitor client config job t).ending with
  | returned p =>
    rw [hmonitor] at hresult
    cases hresult
    obtain ⟨_, _, _, _, _, hid⟩ := monitor_returns_iff.1 hmonitor
    exact hid
  | failed error =>
    rw [hmonitor] at hresult
    cases hresult
    rfl
  | panicked message =>
    rw [hmonitor] at hresult
    cases hresult
  | stuck =>
    rw [hmonitor] at hresult
    cases hresult

end Handover

/-- **Once the server has named a job, its identity is handed over to whoever waits for it, once,
when the server answers and before anything else is asked; all later calls and the result are about
that job. Whether someone waits, nobody does or the one who did is gone, the run ends the same,
calls the same and writes the same.** -/
theorem execute_started (client : Client σ) (config : JobConfig) (s : σ) :
    (∀ manifest job t, config.manifest = .ok manifest →
      client.Creates (targetNamespace manifest config.shortcuts.ns) manifest s job t →
      (∃ before after rest, (execute client config .listening s).entries = before ++
          ⟨(client.createJob (targetNamespace manifest config.shortcuts.ns) manifest s).delay, false,
            .started job⟩ :: after ∧
        Entry.shown Deed.call? before =
          [.createJob (targetNamespace manifest config.shortcuts.ns) manifest] ∧
        Entry.shown Deed.call? after = .getJob job.ns job.name :: rest ∧
        ∀ call ∈ Entry.shown Deed.call? after, call.Concerns job) ∧
      (execute client config .listening s).seen Deed.started? = [job] ∧
      ∀ listener result, (execute client config listener s).ending = .returned result →
        result.identifier = job.name) ∧
    ∀ listener listener',
      (execute client config listener s).ending = (execute client config listener' s).ending ∧
      (execute client config listener s).length = (execute client config listener' s).length ∧
      (execute client config listener s).calls = (execute client config listener' s).calls ∧
      (execute client config listener s).lines = (execute client config listener' s).lines := by
  refine ⟨fun manifest job t hmanifest hcreates => ⟨?_, ?_, fun listener result =>
    identifier_execute hmanifest hcreates⟩, fun listener listener' => ?_⟩
  · obtain ⟨rest, hafter, hmonitor⟩ := calls_entriesAfter client config job
      (client.createJob (targetNamespace manifest config.shortcuts.ns) manifest s).delay t
    obtain ⟨pod, name, hplan, -⟩ := monitor_obeys config hcreates
    refine ⟨_, _, rest, entries_execute_listening hmanifest hcreates,
      calls_entriesBefore client config manifest s, hafter, fun call hcall => ?_⟩
    rw [hafter, ← hmonitor] at hcall
    exact concerns_of_mem_plan (hplan.subset hcall)
  · rw [Course.seen, entries_execute_listening hmanifest hcreates, Entry.shown_append,
      Entry.shown_cons, started_entriesBefore, started_entriesAfter]
    rfl
  · have hsame := execute_sameBut client config listener listener' s
    have hcall : ∀ deed, Deed.isTidings deed = true → deed.call? = none := by
      intro deed h
      cases deed <;> first | rfl | cases h
    have hline : ∀ deed, Deed.isTidings deed = true → deed.line? = none := by
      intro deed h
      cases deed <;> first | rfl | cases h
    exact ⟨hsame.ending, hsame.length, hsame.seen hcall, hsame.seen hline⟩

/-- A cluster that names the job and then falls silent. -/
def Script.silent : Script := { Script.exiting 0 with getJob := ⟨0, some .hangs, none⟩ }

theorem execute_started_silent : ∃ manifest job, JobConfig.standard.manifest = .ok manifest ∧
    job.name = "batch-1" ∧
    Script.silent.client.Creates
      (targetNamespace manifest JobConfig.standard.shortcuts.ns) manifest () job () ∧
    (execute Script.silent.client .standard .listening ()).seen Deed.started? = [job] ∧
    (execute Script.silent.client .standard .listening ()).calls =
      (execute Script.silent.client .standard .gone ()).calls := by
  obtain ⟨manifest, hmanifest⟩ := JobConfig.standard_composes
  have hcreates : Script.silent.client.Creates
      (targetNamespace manifest JobConfig.standard.shortcuts.ns) manifest ()
      ⟨"batch-1", targetNamespace manifest JobConfig.standard.shortcuts.ns⟩ () :=
    ⟨⟨some "batch-1", none⟩, "batch-1", rfl, rfl, rfl⟩
  obtain ⟨hhanded, hsame⟩ := execute_started Script.silent.client .standard ()
  obtain ⟨-, hstarted, -⟩ := hhanded manifest _ () hmanifest hcreates
  exact ⟨manifest, _, hmanifest, rfl, hcreates, hstarted, (hsame .listening .gone).2.2.1⟩

end BatchRun
