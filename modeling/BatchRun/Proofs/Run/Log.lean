import BatchRun.Proofs.Run.Counterpart
import BatchRun.Proofs.Run.Protocol

/-!
# The log makes no difference

Whatever comes of following the log of a container, and whether it is followed at all, a run ends
the same and calls its client the same. All that is asked of the log is that it comes to an end and
that the other calls answer as if nothing had happened.

* `Course.otherCalls`: the calls besides following a log;
* `Client.LogsUnseen`: what is asked of the log;
* `logStage_alike`: the log stages of two such clients cannot be told apart;
* **`execute_ignores_log`**: nor can the runs, but for the log itself.
-/

namespace BatchRun

variable {σ τ ε α : Type}

/-! ## Calls besides the log -/

/-- The calls of the client besides following a log. -/
def Course.otherCalls (c : Course ε α) : List Call :=
  c.calls.filter fun (call : Call) => call.kind != .followLogs

/-- The call that a deed is, unless that follows a log. -/
def Deed.otherCall? : Deed → Option Call
  | call (.followLogs _ _ _) => none
  | call c => some c
  | _ => none

theorem Deed.sparse_otherCall? : Sparse otherCall? :=
  ⟨fun _ => rfl, fun _ => rfl, fun _ => rfl, fun _ => rfl, fun _ => rfl, fun _ => rfl⟩

theorem Deed.filter_call? (d : Deed) :
    (d.call?.filter fun (call : Call) => call.kind != .followLogs) = d.otherCall? := by
  cases d with
  | call c => cases c <;> rfl
  | _ => rfl

theorem Course.otherCalls_eq_seen (c : Course ε α) : c.otherCalls = c.seen Deed.otherCall? := by
  rw [otherCalls, calls_eq_seen, seen, Entry.shown, List.filter_filterMap]
  simp only [Deed.filter_call?]
  rfl

/-! ## The log stage -/

/-- The call ends, and if the client is not as it was, it is in one of these states. -/
def Outcome.EndsIn (allowed : σ → Prop) : Outcome σ α → Prop
  | returns _ s => allowed s
  | panics _ => True
  | hangs => False

/-- Following a log ends on both clients and does not take them out of related states. -/
structure Client.LogsUnseen (R : σ → τ → Prop) (a : Client σ) (b : Client τ) : Prop where
  left : ∀ ns pod container s t, R s t →
    (a.followLogs ns pod container s).outcome.EndsIn fun s' => R s' t
  right : ∀ ns pod container s t, R s t →
    (b.followLogs ns pod container t).outcome.EndsIn fun t' => R s t'

/-- The log stage returns in a state that is allowed, if following the log does and the state
before it is. -/
theorem exists_logStage_returns {client : Client σ} (allowed : σ → Prop) (config : JobConfig)
    (job : JobIdentity) (pod : Pod) (name : String) {s : σ} (hs : allowed s)
    (h : (client.followLogs job.ns name pod.primaryContainer? s).outcome.EndsIn allowed) :
    ∃ s', (logStage client config job pod name s).ending = .returned ((), s') ∧ allowed s' := by
  simp only [logStage_returns_iff, Client.PassesLog]
  cases config.streamOutput with
  | false => exact ⟨s, rfl, hs⟩
  | true =>
    simp only [if_true, Client.LeavesLog]
    cases houtcome : (client.followLogs job.ns name pod.primaryContainer? s).outcome with
    | returns answer s' =>
      rw [houtcome] at h
      exact ⟨s', .inl ⟨answer, rfl⟩, h⟩
    | panics message => exact ⟨s, .inr ⟨message, rfl, rfl⟩, hs⟩
    | hangs =>
      rw [houtcome] at h
      exact h.elim

theorem seen_logStage (client : Client σ) (config : JobConfig) (job : JobIdentity) (pod : Pod)
    (name : String) (s : σ) :
    (logStage client config job pod name s).seen Deed.otherCall? = [] := by
  unfold logStage
  cases config.streamOutput with
  | false => rfl
  | true =>
    rw [if_pos rfl, Act.seen_detached (fun _ => rfl) rfl Deed.sparse_otherCall?.note,
      seen_followOutput Deed.sparse_otherCall?]
    rfl

theorem logStage_alike {R : σ → τ → Prop} {a : Client σ} {b : Client τ} (h : a.LogsUnseen R b)
    (config config' : JobConfig) (job : JobIdentity) (pod : Pod) (name : String) :
    Act.Alike Deed.otherCall? R Eq (logStage a config job pod name)
      (logStage b config' job pod name) := by
  intro s t hst
  obtain ⟨s', hs', hst'⟩ := exists_logStage_returns (fun s' => R s' t) config job pod name hst
    (h.left _ _ _ s t hst)
  obtain ⟨t', ht', hboth⟩ := exists_logStage_returns (fun t' => R s' t') config' job pod name hst'
    (h.right _ _ _ s' t hst')
  refine ⟨by rw [seen_logStage, seen_logStage], ?_⟩
  rw [hs', ht']
  exact .returned ⟨rfl, hboth⟩

/-! ## The whole run -/

/-- **Two runs that differ only in what comes of the log, or in whether it is followed, end the same
and make the same other calls.** -/
theorem execute_ignores_log {R : σ → τ → Prop} {a : Client σ} {b : Client τ}
    (hclients : a.Counterparts R b) (hlogs : a.LogsUnseen R b) (config : JobConfig)
    (stream stream' : Bool) (listener : Listener) {s : σ} {t : τ} (hst : R s t) :
    (execute a (config.following stream) listener s).ending =
        (execute b (config.following stream') listener t).ending ∧
      (execute a (config.following stream) listener s).otherCalls =
        (execute b (config.following stream') listener t).otherCalls := by
  have hrun : (execute a (config.following stream) listener s).Alike Deed.otherCall? Eq
      (execute b (config.following stream') listener t) :=
    execute_alike hclients config stream stream'
      (fun job pod name => logStage_alike hlogs (config.following stream)
        (config.following stream') job pod name) listener hst
  refine ⟨hrun.ending.eq, ?_⟩
  rw [Course.otherCalls_eq_seen, Course.otherCalls_eq_seen]
  exact hrun.seen

/-- A cluster on which a job exits with 3 and its log breaks with a panic, after five seconds. -/
def Script.breakingLog : Script :=
  { Script.exiting 3 with logs := ⟨5000, some (.panics "broken pipe"), ["one", "two "]⟩ }

theorem execute_ignores_log_breaking :
    (Script.exiting 3).client.Counterparts Eq Script.breakingLog.client ∧
    (Script.exiting 3).client.LogsUnseen Eq Script.breakingLog.client ∧
    (execute (Script.exiting 3).client (JobConfig.standard.following false) .nobody ()).ending =
      (execute Script.breakingLog.client (JobConfig.standard.following true) .nobody ()).ending ∧
    (execute (Script.exiting 3).client (JobConfig.standard.following false) .nobody ()).otherCalls =
      (execute Script.breakingLog.client (JobConfig.standard.following true) .nobody
        ()).otherCalls := by
  have hclients : (Script.exiting 3).client.Counterparts Eq Script.breakingLog.client :=
    (Script.exiting 3).client.counterparts_followLogs Script.breakingLog.client.followLogs
  have hlogs : (Script.exiting 3).client.LogsUnseen Eq Script.breakingLog.client :=
    ⟨fun _ _ _ _ _ _ => rfl, fun _ _ _ _ _ _ => trivial⟩
  exact ⟨hclients, hlogs,
    execute_ignores_log hclients hlogs .standard false true .nobody rfl⟩

end BatchRun
