import BatchRun.Proofs.Run.Counterpart

/-!
# Deadlines

Each of the two watches has a deadline of its own, counted from its start. A run is over when the
two deadlines and the times of its other calls have passed, one after another; and how long the
other calls take decides neither what is done nor how the run ends.

* `Act.Lasts`, `Act.Lasts.bind`: activities of limited length;
* `Client.ReturnsWithin`: the calls that no deadline bounds return, in limited time;
* `lasts_monitor`, `length_execute_le`: **how long a run takes at most**;
* `logStage_alike_of_paced`: a slow log does what a fast one does;
* **`execute_deadlines`**: the bound, and that the pace of the other calls makes no difference.
-/

namespace BatchRun

variable {σ τ ε α β γ : Type}

/-! ## Limited length -/

namespace Course

theorem length_bind_le {c : Course ε α} {f : α → Course ε β} {m n : Nat} (hc : c.length ≤ m)
    (hf : ∀ a, (f a).length ≤ n) : (c.bind f).length ≤ m + n := by
  rw [length_bind]
  refine Nat.add_le_add hc ?_
  cases c.ending.value? with
  | none => exact Nat.zero_le n
  | some a => exact hf a

theorem length_map (f : α → β) (c : Course ε α) : (f <$> c).length = c.length := by
  rw [map_eq, length_bind]
  cases c.ending.value? <;> rfl

theorem length_within_le (limit : Nat) (late : Notice) (error : ε) (c : Course ε α) :
    (c.within limit late error).length ≤ limit := by
  unfold within
  split
  · rename_i h
    exact (endsBy_iff.1 h).2
  · exact Nat.le_refl limit

end Course

namespace Act

/-- From any state the activity takes at most so many milliseconds. -/
def Lasts (n : Nat) (x : Act σ ε α) : Prop := ∀ s, (x s).length ≤ n

theorem Lasts.mono {m n : Nat} {x : Act σ ε α} (h : Lasts m x) (hmn : m ≤ n) : Lasts n x :=
  fun s => Nat.le_trans (h s) hmn

theorem Lasts.bind {m n : Nat} {x : Act σ ε α} {f : α → Act σ ε β} (hx : Lasts m x)
    (hf : ∀ a, Lasts n (f a)) : Lasts (m + n) (x >>= f) :=
  fun s => Course.length_bind_le (hx s) fun p => hf p.1 p.2

theorem lasts_pure (a : α) : Lasts 0 (Pure.pure a : Act σ ε α) := fun _ => Nat.le_refl 0

theorem lasts_note (notice : Notice) : Lasts 0 (note notice : Act σ ε Unit) :=
  fun _ => Nat.le_refl 0

theorem lasts_fail (error : ε) : Lasts 0 (fail error : Act σ ε α) := fun _ => Nat.le_refl 0

theorem lasts_ask {n : Nat} {call : Call} {reply : σ → Reply σ α}
    (h : ∀ s, (reply s).delay ≤ n) : Lasts n (ask call reply : Act σ ε _) := by
  intro s
  rw [length_ask]
  exact h s

theorem lasts_within (limit : Nat) (late : Notice) (error : ε) (x : Act σ ε α) :
    Lasts limit (x.within limit late error) :=
  fun s => Course.length_within_le limit late error (x s)

theorem Lasts.held {n : Nat} {x : Act σ ε α} (h : Lasts n x) (connection : Connection) :
    Lasts n (x.held connection) := h

theorem Lasts.onWorker {n : Nat} {x : Act σ LifecycleError α} (h : Lasts n x) (stage : String) :
    Lasts n (x.onWorker stage) := fun s => length_onWorker stage x s ▸ h s

theorem Lasts.detached {n : Nat} {x : Act σ Empty Unit} (h : Lasts n x) (stage : String) :
    Lasts n (x.detached stage : Act σ ε Unit) := fun s => length_detached stage x s ▸ h s

end Act

/-! ## Calls of limited length -/

/-- The call returns, after at most so many milliseconds. -/
structure Reply.ReturnsWithin (n : Nat) (r : Reply σ α) : Prop where
  returns : ∃ answer t, r.outcome = .returns answer t
  delay : r.delay ≤ n

/-- The calls that no deadline bounds return: the creation of the job, the look-up of the job, the
log and the look-up of the pod, each after at most so many milliseconds. -/
structure Client.ReturnsWithin (client : Client σ) (create get log status : Nat) : Prop where
  createJob : ∀ ns manifest s, (client.createJob ns manifest s).ReturnsWithin create
  getJob : ∀ ns name s, (client.getJob ns name s).ReturnsWithin get
  followLogs : ∀ ns pod container s, (client.followLogs ns pod container s).ReturnsWithin log
  podStatus : ∀ ns name s, (client.podStatus ns name s).ReturnsWithin status

theorem length_settle (job : JobIdentity) (c : Course LifecycleError RunResult) :
    (settle job c).length = c.length := by
  unfold settle
  cases c.ending <;> rfl

section Lengths

variable {client : Client σ} {create get log status : Nat}
  (h : client.ReturnsWithin create get log status) (config : JobConfig) (job : JobIdentity)

include h

theorem lasts_submit (manifest : Document) (ns : String) :
    Act.Lasts create (submit client manifest ns) := by
  show Act.Lasts (create + 0) _
  refine (Act.lasts_ask fun s => (h.createJob _ _ s).delay).bind fun answer => ?_
  cases answer with
  | error fault => exact Act.lasts_fail _
  | ok made =>
    cases hname : made.name with
    | none =>
      simp only [hname]
      exact Act.lasts_fail _
    | some name =>
      simp only [hname]
      exact (Act.lasts_note _).bind fun _ => Act.lasts_pure _

theorem lasts_exitResult (pod : String) : Act.Lasts status (exitResult client job pod) := by
  show Act.Lasts (status + 0) _
  refine (Act.lasts_ask fun s => (h.podStatus _ _ s).delay).bind fun answer => ?_
  rcases answer with fault | _ | observed
  · exact Act.lasts_fail _
  · exact Act.lasts_fail _
  · cases hcode : observed.exitCode? with
    | none =>
      simp only [hcode]
      exact Act.lasts_fail _
    | some code =>
      simp only [hcode]
      exact (Act.lasts_note _).bind fun _ => Act.lasts_pure _

theorem lasts_logStage (pod : Pod) (name : String) :
    Act.Lasts log (logStage client config job pod name) := by
  unfold logStage
  split
  · refine Act.Lasts.detached ?_ _
    refine ((Act.lasts_note _).bind fun _ => ((Act.lasts_ask fun s =>
      (h.followLogs _ _ _ s).delay).held _).bind fun answer => ?_).mono
        (Nat.le_of_eq (by rw [Nat.zero_add, Nat.add_zero]))
    cases answer with
    | error fault => exact Act.lasts_note _
    | ok count => exact Act.lasts_note _
  · exact (Act.lasts_pure _).mono (Nat.zero_le log)

/-- After the submission: a look-up, the pod watch, the log, the job watch and a look-up. -/
theorem lasts_monitor : Act.Lasts
    (get + (config.podSeconds * 1000 + (log + (config.jobSeconds * 1000 + status))))
    (monitor client config job) := by
  rw [monitor_eq]
  refine (Act.lasts_ask fun s => (h.getJob _ _ s).delay).bind fun answer => ?_
  rcases answer with fault | _ | found
  · exact (Act.lasts_fail _).mono (Nat.zero_le _)
  · exact (Act.lasts_fail _).mono (Nat.zero_le _)
  refine ((Act.lasts_within _ _ _ _).onWorker _).bind fun pod => ?_
  unfold afterPod
  cases pod.name with
  | none => exact (Act.lasts_fail _).mono (Nat.zero_le _)
  | some name =>
    exact (lasts_logStage h config job pod name).bind fun _ =>
      ((Act.lasts_within _ _ _ _).onWorker _).bind fun _ => lasts_exitResult h job name

/-- **A run takes no longer than its calls and its two deadlines together.** -/
theorem length_execute_le (listener : Listener) (s : σ) :
    (execute client config listener s).length ≤
      create + get + config.podSeconds * 1000 + log + config.jobSeconds * 1000 + status := by
  unfold execute
  cases config.manifest with
  | error e => exact Nat.zero_le _
  | ok manifest =>
    have hmonitor (p : JobIdentity × σ) :
        (settle p.1 ((monitor client config p.1).run' p.2)).length ≤
          get + (config.podSeconds * 1000 + (log + (config.jobSeconds * 1000 + status))) := by
      rw [length_settle, StateT.run', Course.length_map]
      exact lasts_monitor h config p.1 p.2
    have htell (job : JobIdentity) : (listener.tell job : Course RunError Unit).length ≤ 0 := by
      cases listener <;> exact Nat.le_refl 0
    have hsum : create + get + config.podSeconds * 1000 + log + config.jobSeconds * 1000 + status =
        0 + (create + (0 + (get + (config.podSeconds * 1000 +
          (log + (config.jobSeconds * 1000 + status)))))) := by
      omega
    rw [hsum]
    exact Course.length_bind_le (Nat.le_refl 0) fun _ => Course.length_bind_le
      (lasts_submit h manifest _ s) fun p => Course.length_bind_le (htell p.1) fun _ => hmonitor p

theorem orderly_execute (listener : Listener) (s : σ) :
    (execute client config listener s).ending.Orderly := by
  cases hmanifest : config.manifest with
  | error e =>
    unfold execute
    rw [hmanifest]
    trivial
  | ok manifest =>
    rcases creates_or_refuses (h.createJob _ manifest s).returns with ⟨job, t, hcreates⟩ |
      ⟨fault, hrefuses⟩
    · have hresponds : client.Responds config job t :=
        { getJob := (h.getJob _ _ t).returns
          followLogs := by
            rintro _ pod name u _ hhangs
            obtain ⟨answer, v, hreturns⟩ :=
              (h.followLogs job.ns name pod.primaryContainer? u).returns
            rw [hhangs] at hreturns
            cases hreturns
          podStatus := fun _ name u _ => (h.podStatus job.ns name u).returns }
      obtain ⟨result, hresult⟩ := execute_returns_of_creates hmanifest hcreates hresponds
      rw [hresult]
      trivial
    · rw [ending_execute hmanifest, ending_submit_of_refuses hrefuses]
      trivial

end Lengths

/-! ## Independence of the pace -/

theorem Course.seen_some (c : Course ε α) : c.seen some = c.entries.map Entry.deed :=
  congrFun (List.filterMap_eq_map (f := Entry.deed)) c.entries

section Pace

variable {R : σ → τ → Prop} {a : Client σ} {b : Client τ} {view : Deed → Option γ}

theorem followOutput_alike (hlogs : ∀ ns pod container s t, R s t →
    (a.followLogs ns pod container s).Alike R Eq (b.followLogs ns pod container t))
    (job : JobIdentity) (pod : String) (container : Option String) :
    Act.Alike view R Eq (followOutput a job pod container : Act σ ε Unit)
      (followOutput b job pod container) := by
  refine (Act.inStep_note _).alike.bind fun _ _ _ => ?_
  refine ((Act.alike_ask _ fun s t => hlogs _ _ _ s t).held _).bind fun answer _ hanswer => ?_
  subst hanswer
  cases answer with
  | error fault => exact (Act.inStep_note _).alike
  | ok count => exact (Act.inStep_note _).alike

theorem logStage_alike_of_paced (hlogs : ∀ ns pod container s t, R s t →
    (a.followLogs ns pod container s).Alike R Eq (b.followLogs ns pod container t))
    (config : JobConfig) (job : JobIdentity) (pod : Pod) (name : String) :
    Act.Alike view R Eq (logStage a config job pod name) (logStage b config job pod name) := by
  unfold logStage
  split
  · exact (followOutput_alike hlogs job name _).detached _
  · exact (Act.inStep_pure rfl).alike

end Pace

/-- **A run ends in time, and it does the same and ends the same however long the calls take that no
deadline bounds.** -/
theorem execute_deadlines {R : σ → τ → Prop} {a : Client σ} {b : Client τ}
    {create get log status : Nat} (hreturns : a.ReturnsWithin create get log status)
    (hclients : a.Counterparts R b)
    (hlogs : ∀ ns pod container s t, R s t →
      (a.followLogs ns pod container s).Alike R Eq (b.followLogs ns pod container t))
    (config : JobConfig) (listener : Listener) {s : σ} {t : τ} (hst : R s t) :
    (execute a config listener s).ending.Orderly ∧
    (execute a config listener s).length ≤
      create + get + config.podSeconds * 1000 + log + config.jobSeconds * 1000 + status ∧
    (execute a config listener s).ending = (execute b config listener t).ending ∧
    (execute a config listener s).entries.map Entry.deed =
      (execute b config listener t).entries.map Entry.deed ∧
    (execute a config listener s).calls = (execute b config listener t).calls ∧
    (execute a config listener s).lines = (execute b config listener t).lines := by
  have hrun {γ : Type} (view : Deed → Option γ) :
      (execute a config listener s).Alike view Eq (execute b config listener t) :=
    execute_alike hclients config config.streamOutput config.streamOutput
      (fun job pod name => logStage_alike_of_paced hlogs config job pod name) listener hst
  refine ⟨orderly_execute hreturns config listener s, length_execute_le hreturns config listener s,
    (hrun some).ending.eq, ?_, ?_, ?_⟩
  · rw [← Course.seen_some, ← Course.seen_some]
    exact (hrun some).seen
  · rw [Course.calls_eq_seen, Course.calls_eq_seen]
    exact (hrun Deed.call?).seen
  · rw [Course.lines_eq_seen, Course.lines_eq_seen]
    exact (hrun Deed.line?).seen

/-- A cluster on which the pod starts at the very deadline, a minute after it is waited for, and the
calls without a deadline take so many milliseconds. -/
def Script.paced (create get log status : Nat) : Script where
  create := ⟨create, none, ⟨some "batch-1", none⟩⟩
  getJob := ⟨get, none, some completedJob⟩
  pods := ⟨0, none, ⟨[⟨60000, .ok (.applied (exitedPod 3))⟩], false⟩⟩
  jobs := ⟨0, none, ⟨[⟨0, .ok (.applied completedJob)⟩], false⟩⟩
  logs := ⟨log, none, ["one", "two "]⟩
  podStatus := ⟨status, none, some (exitedPod 3)⟩

theorem execute_deadlines_paced :
    (execute (Script.paced 30000 5000 90000 7).client .standard .nobody ()).length ≤ 190007 ∧
    (execute (Script.paced 30000 5000 90000 7).client .standard .nobody ()).ending =
      (execute (Script.paced 0 0 0 0).client .standard .nobody ()).ending ∧
    (execute (Script.paced 30000 5000 90000 7).client .standard .nobody ()).calls =
      (execute (Script.paced 0 0 0 0).client .standard .nobody ()).calls ∧
    (execute (Script.paced 30000 5000 90000 7).client .standard .nobody ()).lines =
      (execute (Script.paced 0 0 0 0).client .standard .nobody ()).lines := by
  have hreturns : (Script.paced 30000 5000 90000 7).client.ReturnsWithin 30000 5000 90000 7 :=
    ⟨fun _ _ _ => ⟨⟨_, (), rfl⟩, Nat.le_of_eq (Nat.zero_add _)⟩,
      fun _ _ _ => ⟨⟨_, (), rfl⟩, Nat.le_of_eq (Nat.zero_add _)⟩,
      fun _ _ _ _ => ⟨⟨_, (), rfl⟩, Nat.le_of_eq (Nat.zero_add _)⟩,
      fun _ _ _ => ⟨⟨_, (), rfl⟩, Nat.le_of_eq (Nat.zero_add _)⟩⟩
  have hclients :
      (Script.paced 30000 5000 90000 7).client.Counterparts Eq (Script.paced 0 0 0 0).client :=
    ⟨fun _ _ _ _ _ => ⟨rfl, rfl, .returns rfl rfl⟩, fun _ _ _ _ _ => ⟨rfl, rfl, .returns rfl rfl⟩,
      fun _ _ _ _ _ => .refl _ Feed.Alike.refl, fun _ _ _ _ _ => .refl _ Feed.Alike.refl,
      fun _ _ _ _ _ => ⟨rfl, rfl, .returns rfl rfl⟩⟩
  obtain ⟨_, hlength, hending, _, hcalls, hlines⟩ := execute_deadlines hreturns hclients
    (fun _ _ _ _ _ _ => ⟨rfl, rfl, .returns rfl rfl⟩) .standard .nobody rfl
  exact ⟨hlength, hending, hcalls, hlines⟩

end BatchRun
