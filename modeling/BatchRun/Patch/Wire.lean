import BatchRun.Document.Typed
import BatchRun.Patch.Basic

/-!
# Patches as documents

A patch is written as a sequence of objects, each with a member `op`, a member `path` and, except
for a removal, a member `value`. An operation may also be given as a sequence: the name of the
operation, then the path and the value.

* `PatchOp.toDocument`, `Patch.toDocument`;
* `PatchOp.ofDocument`, **`Patch.ofDocument`**.
-/

namespace BatchRun

namespace PatchOp

/-- The operation as an object. -/
def toDocument : PatchOp → Document
  | add path value => .object [("op", .string "add"), ("path", .string path), ("value", value)]
  | replace path value =>
    .object [("op", .string "replace"), ("path", .string path), ("value", value)]
  | remove path => .object [("op", .string "remove"), ("path", .string path)]

/-- What an operation does, before its place is known. -/
inductive Kind where
  | add | replace | remove
  deriving DecidableEq

/-- The kind that a document names. -/
def Kind.ofDocument : Document → Except Mismatch Kind
  | .string s =>
    if s = "add" then .ok .add
    else if s = "replace" then .ok .replace
    else if s = "remove" then .ok .remove
    else .error (.variant s ["add", "replace", "remove"])
  | d => .error (.kind d "variant identifier")

/-- The title under which a kind reports a short sequence. -/
def Kind.title : Kind → String
  | .add => "struct variant PatchOp::Add with 2 elements"
  | .replace => "struct variant PatchOp::Replace with 2 elements"
  | .remove => "struct variant PatchOp::Remove with 1 element"

/-- An operation from its parts. -/
def Kind.operation (kind : Kind) (path : String) (value : Document) : PatchOp :=
  match kind with
  | .add => .add path value
  | .replace => .replace path value
  | .remove => .remove path

/-- The operation of an object of a known kind. -/
def ofMembers (kind : Kind) (ms : Members) : Except Mismatch PatchOp := do
  checkMembers [("path", admits Document.asString)] ms
  match ms.get? "path" with
  | none => .error (.missing "path")
  | some path => do
    let path ← path.asString
    match kind, ms.get? "value" with
    | .remove, _ => .ok (.remove path)
    | _, none => .error (.missing "value")
    | kind, some value => .ok (kind.operation path value)

/-- The operation of a sequence of a known kind, without the name of the kind. -/
def ofItems (kind : Kind) (items : List Document) : Except Mismatch PatchOp :=
  match items with
  | [] => .error (.length 0 kind.title)
  | path :: rest => do
    let path ← path.asString
    match kind, rest with
    | .remove, [] => .ok (.remove path)
    | .remove, _ => .error (.length items.length "1 element in sequence")
    | _, [] => .error (.length 1 kind.title)
    | kind, [value] => .ok (kind.operation path value)
    | _, _ => .error (.length items.length "2 elements in sequence")

/-- The operation that a document describes. -/
def ofDocument : Document → Except Mismatch PatchOp
  | .object ms =>
    match Members.get? "op" ms with
    | none => .error (.missing "op")
    | some op => do
      let kind ← Kind.ofDocument op
      ofMembers kind ms
  | .array [] => .error (.missing "op")
  | .array (op :: items) => do
    let kind ← Kind.ofDocument op
    ofItems kind items
  | d => .error (.kind d "internally tagged enum PatchOp")

end PatchOp

namespace Patch

/-- The patch as a sequence of objects. -/
def toDocument (patch : Patch) : Document := .array (patch.map PatchOp.toDocument)

/-- The patch that a document describes. -/
def ofDocument (d : Document) : Except Mismatch Patch := d.asList PatchOp.ofDocument

end Patch

end BatchRun
