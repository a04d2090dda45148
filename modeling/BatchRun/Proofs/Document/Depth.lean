import BatchRun.Proofs.Document.Proper
import BatchRun.Yaml.Node

/-!
# Nesting and integers of a document

* `Document.induction`: induction from the parts of a document to the document;
* `Document.depth`: how many arrays and objects are open at once, `Document.nested`;
* `Document.mapInts`: a document with other values for its integers, `Document.Signed`: integers
  that fit 64 bits with their sign, **`Document.mapInts_eq_self`**.
-/

namespace BatchRun

namespace Document

/-! ## Induction -/

/-- What a document inherits from its items and the values of its members holds of all documents. -/
@[elab_as_elim] theorem induction {motive : Document → Prop} (null : motive .null)
    (bool : ∀ b, motive (.bool b)) (int : ∀ i, motive (.int i)) (float : ∀ x, motive (.float x))
    (string : ∀ s, motive (.string s)) (array : ∀ xs, (∀ x ∈ xs, motive x) → motive (.array xs))
    (object : ∀ ms : Members, (∀ p ∈ ms, motive p.2) → motive (.object ms)) (d : Document) :
    motive d :=
  @Document.rec motive (fun xs => ∀ x ∈ xs, motive x) (fun ms => ∀ p ∈ ms, motive p.2)
    (fun p => motive p.2) null bool int float string array object
    (fun _ hx => absurd hx List.not_mem_nil) (fun _ _ hx hxs => List.forall_mem_cons.2 ⟨hx, hxs⟩)
    (fun _ hp => absurd hp List.not_mem_nil) (fun _ _ hp hms => List.forall_mem_cons.2 ⟨hp, hms⟩)
    (fun _ _ hd => hd) d

/-! ## Nesting -/

mutual

/-- How many arrays and objects are open at once in a document. -/
def depth : Document → Nat
  | .array xs => itemDepth xs + 1
  | .object ms => memberDepth ms + 1
  | _ => 0

/-- The greatest depth of some items. -/
def itemDepth : List Document → Nat
  | [] => 0
  | x :: xs => max (depth x) (itemDepth xs)

/-- The greatest depth of the values of some members. -/
def memberDepth : List (String × Document) → Nat
  | [] => 0
  | (_, d) :: ms => max (depth d) (memberDepth ms)

end

/-- Null in as many arrays as given. -/
def nested : Nat → Document
  | 0 => .null
  | n + 1 => .array [nested n]

@[simp] theorem depth_nested (n : Nat) : (nested n).depth = n := by
  induction n with
  | zero => rfl
  | succ n ih => rw [nested, depth, itemDepth, itemDepth, ih, Nat.max_zero]

theorem proper_nested (n : Nat) : (nested n).Proper := by
  induction n with
  | zero => exact .null
  | succ n ih => exact .array (List.forall_mem_singleton.2 ih)

/-! ## Integers -/

mutual

/-- The document with other values for its integers. -/
def mapInts (f : Int → Document) : Document → Document
  | .int i => f i
  | .array xs => .array (mapIntsItems f xs)
  | .object ms => .object (mapIntsMembers f ms)
  | d => d

/-- Items with other values for their integers. -/
def mapIntsItems (f : Int → Document) : List Document → List Document
  | [] => []
  | x :: xs => mapInts f x :: mapIntsItems f xs

/-- Members with other values for their integers. -/
def mapIntsMembers (f : Int → Document) : List (String × Document) → List (String × Document)
  | [] => []
  | (key, d) :: ms => (key, mapInts f d) :: mapIntsMembers f ms

end

theorem mapIntsItems_eq (f : Int → Document) (xs : List Document) :
    mapIntsItems f xs = xs.map (mapInts f) := by
  induction xs with
  | nil => rfl
  | cons x xs ih => rw [mapIntsItems, ih, List.map_cons]

theorem mapIntsMembers_eq (f : Int → Document) (ms : Members) :
    mapIntsMembers f ms = ms.map fun (p : String × Document) => (p.1, mapInts f p.2) := by
  induction ms with
  | nil => rfl
  | cons p ms ih => rw [mapIntsMembers, ih, List.map_cons]

theorem keys_mapIntsMembers (f : Int → Document) (ms : Members) :
    Members.keys (mapIntsMembers f ms) = ms.keys := by
  rw [mapIntsMembers_eq, Members.keys, List.map_map]
  rfl

/-- All integers of a document fit 64 bits with their sign. -/
inductive Signed : Document → Prop where
  | null : Signed .null
  | bool (b : Bool) : Signed (.bool b)
  | int {i : Int} (fits : Yaml.signed64? i = some i) : Signed (.int i)
  | float (x : Binary64) : Signed (.float x)
  | string (s : String) : Signed (.string s)
  | array {xs : List Document} (items : ∀ x ∈ xs, Signed x) : Signed (.array xs)
  | object {ms : Members} (values : ∀ p ∈ ms, Signed p.2) : Signed (.object ms)

/-- **Other values for integers that do not fit leave the document as it is if all of them fit.** -/
theorem mapInts_eq_self {f : Int → Document}
    (hf : ∀ i, Yaml.signed64? i = some i → f i = .int i) {d : Document} (h : d.Signed) :
    d.mapInts f = d := by
  induction h with
  | null | bool | float | string => rfl
  | int fits => rw [mapInts, hf _ fits]
  | array _ ih =>
    rw [mapInts, mapIntsItems_eq]
    exact congrArg Document.array ((List.map_congr_left ih).trans (List.map_id _))
  | object _ ih =>
    rw [mapInts, mapIntsMembers_eq]
    refine congrArg Document.object ((List.map_congr_left fun p hp => ?_).trans (List.map_id _))
    rw [ih p hp]
    rfl

end Document

end BatchRun
