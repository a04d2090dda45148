import BatchRun.Document.Json
import BatchRun.Text.Map
import BatchRun.Text.Quoted

/-!
# Typed reading of documents

A configuration is read out of a document by asking each part for the kind of value that is wanted
there. A part of another kind is a mismatch, which names what was found and what was expected.

* `Mismatch`, `Mismatch.message`;
* `Document.asString`, `asBool`, `asUnsigned`, `asSigned32`, `asList`, `asTextMap`, `asOption`;
* `Document.asVariant`: one of a fixed list of names;
* `checkMembers`: **the first mismatch of an object in the order of its members**.
-/

namespace BatchRun

/-- Why a document is not the value that was asked for. -/
inductive Mismatch where
  /-- A value of the wrong kind. -/
  | kind (found : Document) (wanted : String)
  /-- A value of the right kind that is not admitted. -/
  | value (found : Document) (wanted : String)
  /-- A sequence of the wrong length. -/
  | length (found : Nat) (wanted : String)
  | missing (field : String)
  | variant (found : String) (known : List String)
  /-- A text that does not have the required form. -/
  | form (reason : String)
  deriving Inhabited

/-- How a mismatch names what it found. -/
def Document.description : Document → String
  | .null => "null"
  | .bool b => s!"boolean `{b}`"
  | .int i => s!"integer `{i}`"
  | .float x => s!"floating point `{x.render Json.layout}`"
  | .string s => s!"string {Text.quoted s}"
  | .array _ => "sequence"
  | .object _ => "map"

namespace Mismatch

/-- The names a variant may have, as a phrase. -/
def alternatives : List String → String
  | [] => "there are no variants"
  | [a] => s!"expected `{a}`"
  | [a, b] => s!"expected `{a}` or `{b}`"
  | names => "expected one of " ++ ", ".intercalate (names.map fun (n : String) => s!"`{n}`")

/-- The wording of a mismatch. -/
def message : Mismatch → String
  | kind found wanted => s!"invalid type: {found.description}, expected {wanted}"
  | value found wanted => s!"invalid value: {found.description}, expected {wanted}"
  | length found wanted => s!"invalid length {found}, expected {wanted}"
  | missing field => s!"missing field `{field}`"
  | variant found known => s!"unknown variant `{found}`, {alternatives known}"
  | form reason => reason

end Mismatch

namespace Document

/-- The text of a string. -/
def asString : Document → Except Mismatch String
  | .string s => .ok s
  | d => .error (.kind d "a string")

def asBool : Document → Except Mismatch Bool
  | .bool b => .ok b
  | d => .error (.kind d "a boolean")

/-- A natural number below `2 ^ 64`. -/
def asUnsigned : Document → Except Mismatch Nat
  | .int i => if 0 ≤ i then .ok i.toNat else .error (.value (.int i) "u64")
  | d => .error (.kind d "u64")

/-- An integer that fits 32 bits with its sign. -/
def asSigned32 : Document → Except Mismatch Int
  | .int i =>
    if -(Nat.pow 2 31 : Int) ≤ i ∧ i < Nat.pow 2 31 then .ok i else .error (.value (.int i) "i32")
  | d => .error (.kind d "i32")

/-- The items of a sequence, in order. -/
def asList {α : Type} (item : Document → Except Mismatch α) : Document → Except Mismatch (List α)
  | .array xs => xs.mapM item
  | d => .error (.kind d "a sequence")

/-- The value, unless it is null. -/
def asOption {α : Type} (value : Document → Except Mismatch α) :
    Document → Except Mismatch (Option α)
  | .null => .ok none
  | d => (value d).map some

/-- Members that hold strings. -/
def asPairs : Members → Except Mismatch (List (String × String))
  | [] => .ok []
  | (name, value) :: rest => do
    let value ← value.asString
    let rest ← asPairs rest
    .ok ((name, value) :: rest)

/-- A map from names to texts. -/
def asTextMap : Document → Except Mismatch TextMap
  | .object ms => (asPairs ms).map TextMap.ofList
  | d => .error (.kind d "a map")

/-- An object with one string for each entry of a map. -/
def ofTextMap (m : TextMap) : Document :=
  .object (m.pairs.map fun (p : String × String) => (p.1, .string p.2))

/-- One of the known names, as a string or as the only key of an object. `emptyPayload` says
whether that key may hold an empty object instead of null. -/
def asVariant (known : List String) (emptyPayload : Bool) : Document → Except Mismatch String
  | .string s => if s ∈ known then .ok s else .error (.variant s known)
  | .object [(name, payload)] =>
    if name ∈ known then
      match payload with
      | .null => .ok name
      | .object [] => if emptyPayload then .ok name else .error (.kind payload "unit")
      | d => .error (.kind d "unit")
    else .error (.variant name known)
  | .object ms => .error (.value (.object ms) "map with a single key")
  | d => .error (.kind d "string or map")

end Document

/-- Whether a value has the kind that is wanted, forgetting the value. -/
def admits {α : Type} (read : Document → Except Mismatch α) (d : Document) :
    Except Mismatch Unit :=
  (read d).map fun _ => ()

/-- The check that a list of fields has for a member. -/
def fieldCheck? (key : String) :
    List (String × (Document → Except Mismatch Unit)) → Option (Document → Except Mismatch Unit)
  | [] => none
  | (name, check) :: rest => if name = key then some check else fieldCheck? key rest

/-- The first mismatch of an object in the order of its members; members that are no fields are
passed over. -/
def checkMembers (fields : List (String × (Document → Except Mismatch Unit))) :
    Members → Except Mismatch Unit
  | [] => .ok ()
  | (key, value) :: rest =>
    match fieldCheck? key fields with
    | none => checkMembers fields rest
    | some check => do
      check value
      checkMembers fields rest

/-- The value of a field, or its default where the object does not have it. -/
def fieldOr {α : Type} (ms : Members) (key : String) (default : α)
    (read : Document → Except Mismatch α) : Except Mismatch α :=
  match ms.get? key with
  | none => .ok default
  | some d => read d

end BatchRun
