import BatchRun.Manifest.Shortcuts

/-!
# Shortcuts as documents

Shortcuts are written as one object with all fields, and read from an object in which any field may
be missing, or from a sequence of values in the order in which the fields are written.

* `Shortcuts.toMembers`, `Shortcuts.toDocument`;
* `Shortcuts.ofMembers`, **`Shortcuts.ofDocument`**.
-/

namespace BatchRun

namespace PullPolicy

/-- The policy that a document names. -/
def ofDocument (emptyPayload : Bool) (d : Document) : Except Mismatch PullPolicy := do
  let name ← d.asVariant (all.map PullPolicy.name) emptyPayload
  match ofName? name with
  | some p => .ok p
  | none => .error (.variant name (all.map PullPolicy.name))

end PullPolicy

namespace RestartPolicy

/-- The policy that a document names. -/
def ofDocument (d : Document) : Except Mismatch RestartPolicy := do
  let name ← d.asVariant (all.map RestartPolicy.name) false
  match all.find? fun (p : RestartPolicy) => p.name == name with
  | some p => .ok p
  | none => .error (.variant name (all.map RestartPolicy.name))

end RestartPolicy

namespace Shortcuts

/-- A string, or null where there is none. -/
def optionalText (s : Option String) : Document :=
  match s with
  | some s => .string s
  | none => .null

/-- The fields, in order. -/
def toMembers (s : Shortcuts) : Members :=
  [("namespace", .string s.ns),
   ("image", optionalText s.image),
   ("labels", .ofTextMap s.labels),
   ("env", .ofTextMap s.env),
   ("imagePullPolicy", optionalText (s.pullPolicy.map PullPolicy.name)),
   ("serviceAccountName", optionalText s.serviceAccount),
   ("command", .ofStrings s.command),
   ("name", optionalText s.name)]

/-- The shortcuts as an object. -/
def toDocument (s : Shortcuts) : Document := .object s.toMembers

/-- The kind of value that each field wants. -/
def fieldChecks (emptyPayload : Bool) : List (String × (Document → Except Mismatch Unit)) :=
  [("namespace", admits Document.asString),
   ("image", admits (Document.asOption Document.asString)),
   ("labels", admits Document.asTextMap),
   ("env", admits Document.asTextMap),
   ("imagePullPolicy", admits (Document.asOption (PullPolicy.ofDocument emptyPayload))),
   ("serviceAccountName", admits (Document.asOption Document.asString)),
   ("command", admits (Document.asList Document.asString)),
   ("name", admits (Document.asOption Document.asString))]

/-- The shortcuts among the members of an object. -/
def ofMembers (emptyPayload : Bool) (ms : Members) : Except Mismatch Shortcuts := do
  checkMembers (fieldChecks emptyPayload) ms
  let text := Document.asOption Document.asString
  let ns ← fieldOr ms "namespace" standard.ns Document.asString
  let image ← fieldOr ms "image" none text
  let labels ← fieldOr ms "labels" .empty Document.asTextMap
  let env ← fieldOr ms "env" .empty Document.asTextMap
  let pullPolicy ← fieldOr ms "imagePullPolicy" none
    (Document.asOption (PullPolicy.ofDocument emptyPayload))
  let serviceAccount ← fieldOr ms "serviceAccountName" none text
  let command ← fieldOr ms "command" [] (Document.asList Document.asString)
  let name ← fieldOr ms "name" none text
  .ok { ns, image, labels, env, pullPolicy, serviceAccount, command, name }

/-- The names of the fields, in the order in which a sequence gives them. -/
def fieldNames : List String := (fieldChecks false).map Prod.fst

/-- The shortcuts that a document describes. -/
def ofDocument : Document → Except Mismatch Shortcuts
  | .object ms => ofMembers false ms
  | .array items => do
    let s ← ofMembers false (fieldNames.zip items)
    if items.length ≤ fieldNames.length then .ok s
    else .error (.length items.length "fewer elements in array")
  | d => .error (.kind d "struct ShortcutFields")

end Shortcuts

end BatchRun
