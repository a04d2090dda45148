import BatchRun.Manifest.Compose
import BatchRun.Patch.Wire
import BatchRun.Text.Encoding
import BatchRun.Yaml.Reader

/-!
# Manifests and patches in files

* `PathContent`: what is found at a path, `PathContent.text`;
* **`loadDocument`**, `loadPatch`, `loadBase`: a document, a patch and a base manifest from there.
-/

namespace BatchRun

/-- What is found at a path. -/
inductive PathContent where
  | missing
  | directory
  | file (bytes : ByteArray)

namespace PathContent

/-- The text at a path, or why there is none. -/
def text : PathContent → Except String String
  | missing => .error "No such file or directory (os error 2)"
  | directory => .error "Is a directory (os error 21)"
  | file bytes =>
    match String.fromUTF8? bytes with
    | some s => .ok s
    | none => .error Text.notText

end PathContent

/-- The document in a file. -/
def loadDocument (path : String) (content : PathContent) : Except Fault Document :=
  match content.text with
  | .ok s => Yaml.load s
  | .error reason => .error (.operation "load_yaml_file" s!"failed to read {path}: {reason}")

/-- The patch that a document describes, for use in a manifest. -/
def Patch.read (d : Document) : Except ManifestError Patch :=
  (Patch.ofDocument d).mapError fun (m : Mismatch) => .notAPatch m.message

/-- The patch in a file. -/
def loadPatch (path : String) (content : PathContent) : Except ManifestError Patch := do
  let d ← (loadDocument path content).mapError ManifestError.fault
  Patch.read d

/-- The base manifest in a file. -/
def loadBase (path : String) (content : PathContent) : Except ManifestError ManifestBase := do
  let d ← (loadDocument path content).mapError ManifestError.fault
  ManifestBase.ofDocument d

end BatchRun
