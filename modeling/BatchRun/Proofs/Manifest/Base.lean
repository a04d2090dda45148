import BatchRun.Run.Config

/-!
# Bases and configurations that give no manifest

A base is a document that has passed the check, so a configuration gives no manifest either because
its base fails the check or because composing fails.

* `ManifestBase.ofDocument_eq_ok_iff`, `ofDocument_eq_error_iff`;
* `JobConfig.Invalid`, **`JobConfig.manifest_eq_error_iff`**.
-/

namespace BatchRun

theorem exists_eq_ok_of_isOk {ε α : Type} {r : Except ε α} (h : r.isOk = true) :
    ∃ a, r = .ok a := by
  cases r with
  | ok a => exact ⟨a, rfl⟩
  | error e => cases h

namespace ManifestBase

theorem ofDocument_eq_ok_iff {d : Document} {base : ManifestBase} :
    ofDocument d = .ok base ↔ base.document = d := by
  unfold ofDocument
  split
  · rename_i hchecked
    rw [Except.ok.injEq]
    constructor
    · rintro rfl
      rfl
    · rintro rfl
      rfl
  · rename_i e hchecked
    constructor
    · intro h
      cases h
    · rintro rfl
      rw [base.checked] at hchecked
      cases hchecked

theorem ofDocument_eq_error_iff {d : Document} {e : ManifestError} :
    ofDocument d = .error e ↔ checkBase d = .error e := by
  unfold ofDocument
  split
  · rename_i hchecked
    constructor
    · intro h
      cases h
    · intro h
      rw [hchecked] at h
      cases h
  · rename_i e' hchecked
    rw [hchecked, Except.error.injEq, Except.error.injEq]

end ManifestBase

namespace JobConfig

/-- The base of a configuration fails the check, or no manifest can be composed from it. -/
def Invalid (config : JobConfig) (e : ManifestError) : Prop :=
  checkBase config.job = .error e ∨
    ∃ base : ManifestBase, base.document = config.job ∧
      base.compose config.shortcuts config.customizations = .error e

theorem manifest_eq_error_iff {config : JobConfig} {e : ManifestError} :
    config.manifest = .error e ↔ config.Invalid e := by
  have hbind : config.manifest = (ManifestBase.ofDocument config.job).bind fun base =>
      base.compose config.shortcuts config.customizations := rfl
  rw [hbind, Invalid, ← ManifestBase.ofDocument_eq_error_iff]
  simp only [← ManifestBase.ofDocument_eq_ok_iff]
  cases ManifestBase.ofDocument config.job with
  | error e' => simp [Except.bind]
  | ok base => simp [Except.bind]

theorem standard_composes : ∃ manifest, standard.manifest = .ok manifest :=
  exists_eq_ok_of_isOk (by decide +kernel)

end JobConfig

end BatchRun
