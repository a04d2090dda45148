import BatchRun.Fault
import BatchRun.Manifest.Shortcuts
import BatchRun.Manifest.Validate

/-!
# Composing a manifest

A manifest is composed from a checked base: the shortcuts are applied first and the overrides
after them, so an override wins over a shortcut. No place of the canonical template may be lost.

* `ManifestError`, `ManifestError.message`;
* `ManifestBase`: a base that has passed the check, `ManifestBase.ofDocument`;
* **`ManifestBase.compose`**.
-/

namespace BatchRun

/-- Why there is no manifest. -/
inductive ManifestError where
  | missingPlaces (paths : List String)
  | conflictingPlaces (conflicts : List String)
  | patch (failure : Patch.Failure)
  | notAPatch (reason : String)
  | fault (fault : Fault)

/-- The wording of a manifest error. -/
def ManifestError.message : ManifestError → String
  | missingPlaces paths =>
    "job is missing required attributes at the following paths: " ++ ", ".intercalate paths
  | conflictingPlaces conflicts =>
    "job has incompatible values for the following attributes: " ++ ", ".intercalate conflicts
  | patch failure => failure.message
  | notAPatch reason => s!"invalid patch document: {reason}"
  | fault f => f.message

/-- Checks that no place of the template is missing. -/
def checkPlaces (manifest : Document) : Except ManifestError Unit :=
  match missingPlaces manifest with
  | [] => .ok ()
  | paths => .error (.missingPlaces paths)

/-- Checks a base manifest. -/
def checkBase (base : Document) : Except ManifestError Unit :=
  match missingPlaces base with
  | [] =>
    match conflictingPlaces base with
    | [] => .ok ()
    | conflicts => .error (.conflictingPlaces conflicts)
  | paths => .error (.missingPlaces paths)

/-- A base manifest that has passed the check. -/
structure ManifestBase where
  document : Document
  checked : checkBase document = .ok ()

namespace ManifestBase

/-- Checks a document and takes it as a base. -/
def ofDocument (d : Document) : Except ManifestError ManifestBase :=
  match h : checkBase d with
  | .ok () => .ok ⟨d, h⟩
  | .error e => .error e

theorem checkBase_template : checkBase Template.document = .ok () := by
  cbv

/-- The canonical template as a base. -/
def standard : ManifestBase := ⟨Template.document, checkBase_template⟩

/-- Applies a patch. -/
def patched (patch : Patch) (d : Document) : Except ManifestError Document :=
  match patch.apply d with
  | .ok d => .ok d
  | .error failure => .error (.patch failure)

/-- The manifest of a base, shortcuts and overrides. -/
def compose (base : ManifestBase) (shortcuts : Shortcuts) (overrides : Patch) :
    Except ManifestError Document := do
  let withShortcuts ← patched shortcuts.toPatch base.document
  let manifest ← patched overrides withShortcuts
  checkPlaces manifest
  .ok manifest

end ManifestBase

end BatchRun
