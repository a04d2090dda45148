import BatchRun.Document.Typed
import BatchRun.Time.Instant

/-!
# Shapes of cluster objects

The objects of a cluster have typed fields. A shape says which value a place holds; reading a
document by a shape drops what the shape does not know, takes null for a missing field and puts
the fields into the order of the shape.

* `Shape`, `Fields`;
* `Shape.vacant`: the value of a required field that is missing;
* **`Shape.read`**: the first mismatch in the order of the document, or the object in the order
  of the shape.
-/

namespace BatchRun

mutual

/-- The kind of value that a place holds. -/
inductive Shape where
  | text
  | flag
  | int32
  | int64
  | instant
  /-- A map from names to texts. -/
  | texts
  | any
  /-- A text that is always the same, in an object of the given title. -/
  | constant (value : String) (title : String)
  | list (item : Shape)
  | record (title : String) (fields : Fields)

/-- The fields of a record, in the order in which they are written. -/
inductive Fields where
  | nil
  | cons (name : String) (required : Bool) (shape : Shape) (rest : Fields)

end

/-- Puts fields that may be missing before others. -/
def Fields.optional (named : List (String × Shape)) (rest : Fields) : Fields :=
  named.foldr (fun (p : String × Shape) (fs : Fields) => .cons p.1 false p.2 fs) rest

/-- A required field before others. -/
def Fields.required (name : String) (shape : Shape) (rest : Fields) : Fields :=
  .cons name true shape rest

mutual

/-- What stands for a required value that is missing. -/
def Shape.vacant : Shape → Document
  | .text => .string ""
  | .flag => .bool false
  | .int32 => .int 0
  | .int64 => .int 0
  | .instant => .null
  | .texts => .object []
  | .any => .null
  | .constant value _ => .string value
  | .list _ => .array []
  | .record _ fields => .object fields.vacancies

/-- The required fields, all vacant. -/
def Fields.vacancies : Fields → Members
  | .nil => []
  | .cons name required shape rest =>
    if required then (name, shape.vacant) :: rest.vacancies else rest.vacancies

end

/-- Whether null is a missing value here. -/
def Shape.acceptsNull : Shape → Bool
  | .constant _ _ => false
  | _ => true

/-- The members that were read, in the order of the fields, with vacant required ones. -/
def Fields.arrange (found : Members) : Fields → Members
  | .nil => []
  | .cons name required shape rest =>
    match Members.get? name found with
    | some value => (name, value) :: rest.arrange found
    | none =>
      if required then (name, shape.vacant) :: rest.arrange found else rest.arrange found

/-- An instant, in universal time. -/
def Document.asInstant : Document → Except Mismatch Document
  | .string s =>
    match Instant.parse s with
    | .ok t => .ok (.string t.render)
    | .error e => .error (.form e.message)
  | d => .error (.kind d "an RFC 3339 formatted date and time string")

/-- An integer that fits 64 bits with its sign. -/
def Document.asSigned64 : Document → Except Mismatch Int
  | .int i => if i < Nat.pow 2 63 then .ok i else .error (.value (.int i) "i64")
  | d => .error (.kind d "i64")

mutual

/-- Reads a document by a shape. -/
def Shape.read : Shape → Document → Except Mismatch Document
  | .text, d => d.asString.map .string
  | .flag, d => d.asBool.map .bool
  | .int32, d => d.asSigned32.map .int
  | .int64, d => d.asSigned64.map .int
  | .instant, d => d.asInstant
  | .texts, d => d.asTextMap.map Document.ofTextMap
  | .any, d => .ok d
  | .constant value title, d => do
    let s ← d.asString
    if s = value then .ok d else .error (.value d title)
  | .list item, .array items => (items.mapM fun (d : Document) => item.read d).map .array
  | .list _, d => .error (.kind d "a sequence")
  | .record _ fields, .object ms => do
    let found ← ms.mapM fun (m : String × Document) => fields.readMember m.1 m.2
    .ok (.object (fields.arrange (found.filterMap id)))
  | .record title _, d => .error (.kind d title)

/-- Reads a member, if it is a field and not missing. -/
def Fields.readMember : Fields → String → Document → Except Mismatch (Option (String × Document))
  | .nil, _, _ => .ok none
  | .cons name _ shape rest, key, d =>
    if name = key then
      match d, shape.acceptsNull with
      | .null, true => .ok none
      | d, _ => (shape.read d).map fun (value : Document) => some (key, value)
    else rest.readMember key d

end

end BatchRun
