import BatchRun.Patch.Basic

/-!
# The difference of two documents

`diff` lists the operations that turn one document into another: objects are compared member by
member and arrays item by item; members and items of one side only are removed or added, and
values of different kinds or different scalars are replaced. Items are removed from the last to
the first, so that earlier removals do not move later ones.

* **`diff`**.
-/

namespace BatchRun

namespace Diff

/-- Additions of the items past a common length, in ascending order. -/
def additions (path : String) : Nat → List Document → Patch
  | _, [] => []
  | i, x :: rest => .add (Pointer.item path i) x :: additions path (i + 1) rest

/-- Removals of as many items, the last one first. -/
def removals (path : String) (start : Nat) : Nat → Patch
  | 0 => []
  | n + 1 => .remove (Pointer.item path (start + n)) :: removals path start n

/-- Additions of the members that an object does not have. -/
def newMembers (path : String) (old : Members) : Members → Patch
  | [] => []
  | (k, v) :: rest =>
    match old.get? k with
    | some _ => newMembers path old rest
    | none => .add (Pointer.child path k) v :: newMembers path old rest

mutual

/-- The operations that turn the first document, which stands at `path`, into the second. -/
def between (path : String) : Document → Document → Patch
  | .object ms, .object ns => members path ms ns ++ newMembers path ms ns
  | .array xs, .array ys => items path 0 xs ys
  | a, b => if a.same b then [] else [.replace path b]

/-- The operations for the members of the first object. -/
def members (path : String) : Members → Members → Patch
  | [], _ => []
  | (k, v) :: rest, ns =>
    (match Members.get? k ns with
      | some w => between (Pointer.child path k) v w
      | none => [.remove (Pointer.child path k)]) ++ members path rest ns

/-- The operations for the items from index `i` on. -/
def items (path : String) (i : Nat) : List Document → List Document → Patch
  | [], ys => additions path i ys
  | _ :: xs, [] => removals path i (xs.length + 1)
  | x :: xs, y :: ys => between (Pointer.item path i) x y ++ items path (i + 1) xs ys

end

end Diff

/-- The operations that turn the first document into the second. -/
def diff (source target : Document) : Patch := Diff.between "" source target

end BatchRun
