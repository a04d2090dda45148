import BatchRun.Document.Place

/-!
# Patches

A patch is a list of operations, applied from left to right. An operation adds, replaces or
removes the value at one place. Applying a patch either succeeds as a whole or names the first
operation that fails and leaves the document alone.

* `PatchOp`, `PatchOp.apply`, `PatchError.message`;
* **`Patch.apply`**;
* `PatchOp.applyInPlace`, `Patch.applyWhile`: one operation, and operations up to the first that
  fails, done to the document itself.
-/

namespace BatchRun

/-- One change of a document; the place is a pointer text. -/
inductive PatchOp where
  | add (path : String) (value : Document)
  | replace (path : String) (value : Document)
  | remove (path : String)
  deriving Inhabited

/-- Operations, in the order in which they are applied. -/
abbrev Patch := List PatchOp

/-- Why an operation fails. -/
inductive PatchError where
  | invalidPointer (cause : Pointer.Malformed)
  /-- There is no such place in the document. -/
  | noSuchPlace (path : String)

/-- The wording of the failure of one operation. -/
def PatchError.message : PatchError → String
  | invalidPointer cause => s!"invalid pointer: {cause.message}"
  | noSuchPlace path => s!"operation '/0' failed at path '{path}': path is invalid"

namespace PatchOp

/-- The name of the operation. -/
def name : PatchOp → String
  | add _ _ => "add"
  | replace _ _ => "replace"
  | remove _ => "remove"

/-- The pointer to the place. -/
def path : PatchOp → String
  | add p _ => p
  | replace p _ => p
  | remove p => p

/-- The change at a place, `none` when there is no such place. -/
def change? (tokens : List String) : PatchOp → Document → Option Document
  | add _ value, d => Document.addAt? value tokens d
  | replace _ value, d => Document.replaceAt? value tokens d
  | remove _, d => Document.removeAt? tokens d

/-- The document after the operation. -/
def apply (op : PatchOp) (d : Document) : Except PatchError Document :=
  match Pointer.parse op.path with
  | .error cause => .error (.invalidPointer cause)
  | .ok tokens =>
    match op.change? tokens d with
    | some d => .ok d
    | none => .error (.noSuchPlace op.path)

/-- The change in place that an operation stands for. An addition and a removal change the object
or the array that holds their place. -/
def changeInPlace (tokens : List String) : PatchOp → Document.Change
  | add _ value =>
    match tokens.getLast? with
    | some token => Document.changeAt tokens.dropLast (Document.attempt (Document.put? token value))
    | none => Document.attempt fun _ => some value
  | replace _ value => Document.changeAt tokens (Document.attempt fun _ => some value)
  | remove _ =>
    match tokens.getLast? with
    | some token => Document.changeAt tokens.dropLast (Document.attempt (Document.drop? token))
    | none => Document.attempt fun _ => none

/-- What an operation leaves of the document that it is applied to, and why it fails. -/
def applyInPlace (op : PatchOp) (d : Document) : Document × Option PatchError :=
  match Pointer.parse op.path with
  | .error cause => (d, some (.invalidPointer cause))
  | .ok tokens =>
    match op.changeInPlace tokens d with
    | (e, true) => (e, none)
    | (e, false) => (e, some (.noSuchPlace op.path))

end PatchOp

namespace Patch

/-- The first operation of a patch that fails. -/
structure Failure where
  index : Nat
  op : PatchOp
  cause : PatchError

/-- The wording of the failure of a patch. -/
def Failure.message (f : Failure) : String :=
  s!"patch operation {f.index} ({f.op.name} {f.op.path}) failed: {f.cause.message}"

/-- Applies operations that are numbered from `index`. -/
def applyFrom (index : Nat) : Patch → Document → Except Failure Document
  | [], d => .ok d
  | op :: rest, d =>
    match op.apply d with
    | .ok d => applyFrom (index + 1) rest d
    | .error cause => .error ⟨index, op, cause⟩

/-- The document after all operations, or the first one that fails. -/
def apply (patch : Patch) (d : Document) : Except Failure Document := applyFrom 0 patch d

/-- Applies operations in place up to the first that fails: what is left of the document, how many
operations were done, and the failure. -/
def applyWhile (done : Nat) : Patch → Document → Document × Nat × Option PatchError
  | [], d => (d, done, none)
  | op :: rest, d =>
    match op.applyInPlace d with
    | (e, none) => applyWhile (done + 1) rest e
    | (e, some cause) => (e, done, some cause)

end Patch

end BatchRun
