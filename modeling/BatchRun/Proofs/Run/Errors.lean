import BatchRun.Proofs.Run.Calls

/-!
# The errors of a run

Only a configuration that gives no manifest and a submission that the server refuses end a run in
an error. Neither leaves a job behind, so neither hands over an identity, and nothing is asked a
second time.

* `ending_execute_of_error`, `ending_execute_of_refuses`: the two errors;
* `untouched_of_error`, `asked_once_of_refuses`: what has been done by then;
* **`execute_failed_iff`**: there is no other.
-/

namespace BatchRun

variable {σ : Type} {client : Client σ} {config : JobConfig} {listener : Listener} {s : σ}

theorem ending_execute_of_error {e : ManifestError} (h : config.manifest = .error e) :
    (execute client config listener s).ending = .failed (.manifest e) := by
  unfold execute
  rw [h]
  rfl

theorem ending_execute_of_refuses {manifest : Document} {fault : Fault}
    (hmanifest : config.manifest = .ok manifest)
    (hrefuses : client.Refuses (targetNamespace manifest config.shortcuts.ns) manifest s fault) :
    (execute client config listener s).ending =
      .failed (.submission (targetNamespace manifest config.shortcuts.ns) fault) := by
  rw [ending_execute hmanifest, ending_submit_of_refuses hrefuses]
  rfl

theorem untouched_of_error {e : ManifestError} (h : config.manifest = .error e) :
    (execute client config listener s).calls = [] ∧
      (execute client config listener s).started? = none :=
  ⟨by rw [Course.calls_eq_seen, seen_execute_of_error h],
    Course.started?_eq_none_of_seen (seen_execute_of_error h)⟩

theorem asked_once_of_refuses {manifest : Document} {fault : Fault}
    (hmanifest : config.manifest = .ok manifest)
    (hrefuses : client.Refuses (targetNamespace manifest config.shortcuts.ns) manifest s fault) :
    (execute client config listener s).calls =
        [.createJob (targetNamespace manifest config.shortcuts.ns) manifest] ∧
      (execute client config listener s).started? = none := by
  have hnot : ∀ job t,
      ¬ client.Creates (targetNamespace manifest config.shortcuts.ns) manifest s job t :=
    fun _ _ => not_creates_of_refuses hrefuses
  refine ⟨?_, Course.started?_eq_none_of_seen ?_⟩
  · rw [Course.calls_eq_seen, seen_execute_of_not_creates Deed.sparse_call? hmanifest hnot]
    rfl
  · rw [seen_execute_of_not_creates Deed.sparse_started? hmanifest hnot]
    rfl

/-- **A run whose calls come back fails exactly on a bad configuration or a refused submission, with
nothing done but the submission itself, and returns otherwise.** -/
theorem execute_failed_iff (client : Client σ) (config : JobConfig) (listener : Listener) (s : σ)
    (hcreate : ∀ manifest, config.manifest = .ok manifest → ∃ answer t,
      (client.createJob (targetNamespace manifest config.shortcuts.ns) manifest s).outcome =
        .returns answer t)
    (hresponds : ∀ manifest job t, config.manifest = .ok manifest →
      client.Creates (targetNamespace manifest config.shortcuts.ns) manifest s job t →
        client.Responds config job t) :
    (∀ error, (execute client config listener s).ending = .failed error ↔
      (∃ e, config.Invalid e ∧ error = .manifest e) ∨
      ∃ manifest fault, config.manifest = .ok manifest ∧
        client.Refuses (targetNamespace manifest config.shortcuts.ns) manifest s fault ∧
        error = .submission (targetNamespace manifest config.shortcuts.ns) fault) ∧
    (∀ e, config.Invalid e →
      (execute client config listener s).calls = [] ∧
        (execute client config listener s).started? = none) ∧
    (∀ manifest fault, config.manifest = .ok manifest →
      client.Refuses (targetNamespace manifest config.shortcuts.ns) manifest s fault →
        (execute client config listener s).calls =
            [.createJob (targetNamespace manifest config.shortcuts.ns) manifest] ∧
          (execute client config listener s).started? = none) ∧
    ((∀ error, (execute client config listener s).ending ≠ .failed error) →
      ∃ result, (execute client config listener s).ending = .returned result) := by
  -- the three ways that a run can go
  have hways : (∃ e, config.manifest = .error e) ∨
      (∃ manifest fault, config.manifest = .ok manifest ∧
        client.Refuses (targetNamespace manifest config.shortcuts.ns) manifest s fault) ∨
      ∃ result, (execute client config listener s).ending = .returned result := by
    cases hmanifest : config.manifest with
    | error e => exact .inl ⟨e, rfl⟩
    | ok manifest =>
      rcases creates_or_refuses (hcreate manifest hmanifest) with ⟨job, t, hcreates⟩ | ⟨fault, h⟩
      · exact .inr (.inr (execute_returns_of_creates hmanifest hcreates
          (hresponds manifest job t hmanifest hcreates)))
      · exact .inr (.inl ⟨manifest, fault, rfl, h⟩)
  refine ⟨fun error => ⟨fun hfailed => ?_, ?_⟩, ?_, ?_, fun hnot => ?_⟩
  · rcases hways with ⟨e, h⟩ | ⟨manifest, fault, hmanifest, hrefuses⟩ | ⟨result, h⟩
    · rw [ending_execute_of_error h] at hfailed
      cases hfailed
      exact .inl ⟨e, JobConfig.manifest_eq_error_iff.1 h, rfl⟩
    · rw [ending_execute_of_refuses hmanifest hrefuses] at hfailed
      cases hfailed
      exact .inr ⟨manifest, fault, hmanifest, hrefuses, rfl⟩
    · rw [h] at hfailed
      cases hfailed
  · rintro (⟨e, h, rfl⟩ | ⟨manifest, fault, hmanifest, hrefuses, rfl⟩)
    · exact ending_execute_of_error (JobConfig.manifest_eq_error_iff.2 h)
    · exact ending_execute_of_refuses hmanifest hrefuses
  · exact fun e h => untouched_of_error (JobConfig.manifest_eq_error_iff.2 h)
  · exact fun manifest fault hmanifest hrefuses => asked_once_of_refuses hmanifest hrefuses
  · rcases hways with ⟨e, h⟩ | ⟨manifest, fault, hmanifest, hrefuses⟩ | h
    · exact absurd (ending_execute_of_error h) (hnot _)
    · exact absurd (ending_execute_of_refuses hmanifest hrefuses) (hnot _)
    · exact h

/-- A cluster that takes a job in without naming it. -/
def Script.unnaming : Script := { Script.exiting 0 with create := ⟨0, none, ⟨none, none⟩⟩ }

theorem execute_failed_unnaming : ∃ manifest, JobConfig.standard.manifest = .ok manifest ∧
    (execute Script.unnaming.client .standard .listening ()).ending =
      .failed (.submission (targetNamespace manifest JobConfig.standard.shortcuts.ns)
        Client.nameless) := by
  obtain ⟨manifest, hmanifest⟩ := JobConfig.standard_composes
  have hrefuses : Script.unnaming.client.Refuses
      (targetNamespace manifest JobConfig.standard.shortcuts.ns) manifest () Client.nameless :=
    ⟨(), .inr ⟨⟨none, none⟩, rfl, rfl, rfl⟩⟩
  have hfailed := execute_failed_iff Script.unnaming.client .standard .listening ()
    (fun _ _ => ⟨_, (), rfl⟩) fun _ job _ _ _ => Script.responds rfl rfl rfl _ job
  exact ⟨manifest, hmanifest, (hfailed.1 _).2 (.inr ⟨manifest, _, hmanifest, hrefuses, rfl⟩)⟩

end BatchRun
