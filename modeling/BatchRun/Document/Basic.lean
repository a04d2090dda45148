import BatchRun.Decimal.Binary64

/-!
# Documents

A document is a tree of scalars, arrays and objects. The members of an object are kept in order,
since the order is visible in every rendering; two documents are compared without it.

* `Document`, `Members`;
* `Members.get?`, `Members.insert`, `Members.swapErase`: an overwritten member keeps its place, a
  new one goes last, and **removing a member moves the last one into its place**;
* `Document.same`: equality that ignores the order of members.
-/

namespace BatchRun

/-- A tree of data. Integers lie in the signed or the unsigned 64-bit range; any other number is a
double. -/
inductive Document where
  | null
  | bool (value : Bool)
  | int (value : Int)
  | float (value : Binary64)
  | string (value : String)
  | array (items : List Document)
  | object (members : List (String × Document))
  deriving Inhabited

/-- The members of an object, in order. -/
abbrev Members := List (String × Document)

namespace Members

/-- The value of a member. -/
def get? (key : String) : Members → Option Document
  | [] => none
  | (k, v) :: rest => if k = key then some v else get? key rest

/-- Overwrites a member in place, or appends it. -/
def insert (key : String) (value : Document) : Members → Members
  | [] => [(key, value)]
  | (k, v) :: rest =>
    if k = key then (k, value) :: rest else (k, v) :: insert key value rest

/-- Removes a member; the last member takes its place. -/
def swapErase (key : String) : Members → Members
  | [] => []
  | (k, v) :: rest =>
    if k = key then
      match rest.getLast? with
      | none => []
      | some last => last :: rest.dropLast
    else (k, v) :: swapErase key rest

/-- The members with later duplicates of a key overwriting earlier ones. -/
def ofList (pairs : List (String × Document)) : Members :=
  pairs.foldl (fun (ms : Members) (p : String × Document) => ms.insert p.1 p.2) []

@[simp] theorem get?_nil (key : String) : get? key [] = none := rfl

@[simp] theorem get?_insert_self (key : String) (value : Document) (ms : Members) :
    (ms.insert key value).get? key = some value := by
  induction ms with
  | nil => simp [insert, get?]
  | cons p rest ih =>
    obtain ⟨k, v⟩ := p
    by_cases h : k = key <;> simp [insert, get?, h, ih]

theorem get?_insert_of_ne {key other : String} (value : Document) (ms : Members)
    (h : other ≠ key) : (ms.insert key value).get? other = ms.get? other := by
  induction ms with
  | nil => simp [insert, get?, Ne.symm h]
  | cons p rest ih =>
    obtain ⟨k, v⟩ := p
    by_cases hk : k = key
    · subst hk; simp [insert, get?, Ne.symm h]
    · simp [insert, get?, hk, ih]

end Members

namespace Document

/-- The text of a string. -/
def text? : Document → Option String
  | .string s => some s
  | _ => none

/-- The member of an object with a given key. -/
def member? (key : String) : Document → Option Document
  | .object ms => Members.get? key ms
  | _ => none

mutual

/-- Equality of documents, which ignores the order of members and the sign of zero. -/
def same : Document → Document → Bool
  | .null, .null => true
  | .bool a, .bool b => a == b
  | .int a, .int b => a == b
  | .float a, .float b => a.same b
  | .string a, .string b => a == b
  | .array xs, .array ys => sameItems xs ys
  | .object ms, .object ns => ms.length == ns.length && sameMembers ms ns
  | _, _ => false

/-- Equality of arrays, item by item. -/
def sameItems : List Document → List Document → Bool
  | [], [] => true
  | x :: xs, y :: ys => same x y && sameItems xs ys
  | _, _ => false

/-- Whether every member of the first object has its equal in the second. -/
def sameMembers : Members → Members → Bool
  | [], _ => true
  | (k, v) :: rest, ns =>
    (match Members.get? k ns with
      | some w => same v w
      | none => false) && sameMembers rest ns

end

/-- An object from its members. -/
def ofPairs (pairs : List (String × Document)) : Document := .object (Members.ofList pairs)

/-- An array of strings. -/
def ofStrings (xs : List String) : Document := .array (xs.map .string)

end Document

end BatchRun
