import BatchRun.Document.Json
import BatchRun.Manifest.Template
import BatchRun.Patch.Diff

/-!
# Checking a manifest against the template

A manifest has to hold every place of the canonical template, with an object or an array where the
template has one. A base manifest has to hold the values of the template too.

* `missingPlaces`: **the outermost places of the template that a document lacks**;
* `conflictingPlaces`: the places that hold another value.
-/

namespace BatchRun

namespace Validate

mutual

/-- The places below `pointer` that the first document has and the second lacks. -/
def missing (pointer : String) : Document → Document → List String
  | .object required, .object ms => missingMembers pointer required ms
  | .array required, .array xs => missingItems pointer 0 required xs
  | .object _, _ => [pointer]
  | .array _, _ => [pointer]
  | _, _ => []

/-- The places in the members of an object that another object lacks. -/
def missingMembers (pointer : String) : Members → Members → List String
  | [], _ => []
  | (k, v) :: rest, ms =>
    (match Members.get? k ms with
      | some w => missing (Pointer.child pointer k) v w
      | none => [Pointer.child pointer k]) ++ missingMembers pointer rest ms

/-- The places in the items from index `i` on that another array lacks. -/
def missingItems (pointer : String) (i : Nat) : List Document → List Document → List String
  | [], _ => []
  | _ :: xs, [] => Pointer.item pointer i :: missingItems pointer (i + 1) xs []
  | x :: xs, y :: ys =>
    missing (Pointer.item pointer i) x y ++ missingItems pointer (i + 1) xs ys

end

/-- Texts in ascending order. -/
def sortTexts (xs : List String) : List String :=
  xs.mergeSort fun (a b : String) => decide (a ≤ b)

/-- The report of a replaced value; other operations are not reported. -/
def conflict? : PatchOp → Option String
  | .replace path value => some s!"{path} must have value {value.toJson}"
  | _ => none

end Validate

/-- The outermost places of the template that a document lacks, in ascending order. -/
def missingPlaces (manifest : Document) : List String :=
  Validate.sortTexts (Validate.missing "" Template.document manifest)

/-- The places where a document holds another value than the template, in ascending order, each
with the value that it has to hold. -/
def conflictingPlaces (base : Document) : List String :=
  Validate.sortTexts ((diff base Template.document).filterMap Validate.conflict?)

end BatchRun
