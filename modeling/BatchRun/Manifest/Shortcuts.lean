import BatchRun.Document.Typed
import BatchRun.Digest.Fingerprint
import BatchRun.Manifest.Template
import BatchRun.Patch.Basic
import BatchRun.Slug.Basic

/-!
# Shortcuts

A shortcut is a field of the configuration that stands for a change at a fixed place of the
manifest: the namespace, the image, labels, environment variables, the pull policy, the service
account, the command and the name.

* `Shortcuts`, `Shortcuts.generatedName`: a name without a slug falls back to a fingerprint of the
  command and the environment;
* **`Shortcuts.toPatch`**: the shortcuts as a patch.
-/

namespace BatchRun

/-- The namespace of a job that names none. -/
def defaultNamespace : String := "default"

/-- Fields that stand for changes at fixed places. -/
structure Shortcuts where
  ns : String
  image : Option String
  labels : TextMap
  env : TextMap
  pullPolicy : Option PullPolicy
  serviceAccount : Option String
  command : List String
  name : Option String
  deriving DecidableEq

namespace Shortcuts

/-- No shortcuts but the default namespace. -/
def standard : Shortcuts := ⟨defaultNamespace, none, .empty, .empty, none, none, [], none⟩

instance : Inhabited Shortcuts := ⟨standard⟩

/-- What every generated name starts with. -/
def generatedPrefix : String := "kubejob-"

/-- The texts that a generated name is computed from. -/
def identifyingTexts (command : List String) (env : TextMap) : List String :=
  toString command.length :: command
    ++ env.pairs.flatMap fun (p : String × String) => [p.1, p.2]

/-- A name that is the same for the same command and environment. -/
def generatedName (command : List String) (env : TextMap) : String :=
  generatedPrefix ++ fingerprint (identifyingTexts command env)

/-- The pointer to the pod specification. -/
def podPointer : String := "/spec/template/spec"

/-- The pointer to the first container. -/
def containerPointer : String := "/spec/template/spec/containers/0"

/-- The slug of the name, or a generated name where that is empty. -/
def baseName (s : Shortcuts) : String :=
  match s.name.map slugifyName with
  | some slug => if slug = "" then generatedName s.command s.env else slug
  | none => generatedName s.command s.env

/-- An addition of a text that may be missing. -/
def addText (path : String) (text : Option String) : Patch :=
  (text.map fun (s : String) => PatchOp.add path (.string s)).toList

/-- The shortcuts as a patch. -/
def toPatch (s : Shortcuts) : Patch :=
  .add "/metadata/namespace" (.string s.ns)
    :: addText (containerPointer ++ "/image") s.image
    ++ (s.labels.pairs.map fun (p : String × String) =>
        PatchOp.add (Pointer.child "/metadata/labels" p.1) (.string (slugifyLabel p.2)))
    ++ (s.env.pairs.map fun (p : String × String) =>
        PatchOp.add (containerPointer ++ "/env/-")
          (.object [("name", .string p.1), ("value", .string p.2)]))
    ++ addText (containerPointer ++ "/imagePullPolicy") (s.pullPolicy.map PullPolicy.name)
    ++ addText (podPointer ++ "/serviceAccountName") s.serviceAccount
    ++ (if s.command.isEmpty then []
        else [.add (containerPointer ++ "/command") (.ofStrings s.command)])
    ++ [.add "/metadata/generateName" (.string s.baseName)]

end Shortcuts

end BatchRun
