import BatchRun.Document.Basic
import BatchRun.Fault
import BatchRun.Yaml.Parser

/-!
# Reading YAML

The first document of a text is read as a document: keys become texts, a later entry overwrites an
earlier one of the same text, and a number that is not finite becomes null.

* `Yaml.ReadError`, `Yaml.ReadError.message`;
* `Yaml.Node.toDocument`;
* **`Yaml.parse`**, `Yaml.load`: the latter reports failures as faults.
-/

namespace BatchRun

namespace Yaml

/-- Why there is no document in a text. -/
inductive ReadError where
  | problem (problem : Problem)
  /-- A real number in a spelling that has no double. -/
  | number
  | invalidNode
  /-- A key that is a collection or stands for no value. -/
  | keyKind

/-- The wording of a failure. -/
def ReadError.message : ReadError → String
  | problem p => p.message
  | number => "invalid float literal"
  | invalidNode => "bad YAML value"
  | keyKind => "unsupported YAML key type"

/-- The document of a real number; null unless it is finite. -/
def realDocument (s : String) : Except ReadError Document :=
  match Decimal.Literal.parse? s.toList with
  | none => .error .number
  | some literal =>
    match literal.finite? with
    | some x => .ok (.float x)
    | none => .ok .null

namespace Node

/-- The text of a key. -/
def keyText : Node → Except ReadError String
  | string s => .ok s
  | int i => .ok (toString i)
  | real s => .ok s
  | bool b => .ok (if b then "true" else "false")
  | null => .ok "null"
  | _ => .error .keyKind

mutual

/-- The document of a node. -/
def toDocument : Node → Except ReadError Document
  | null => .ok .null
  | bool b => .ok (.bool b)
  | int i => .ok (.int i)
  | real s => realDocument s
  | string s => .ok (.string s)
  | array xs => (itemDocuments xs).map .array
  | mapping es => (entryMembers [] es).map .object
  | invalid => .error .invalidNode

/-- The documents of items. -/
def itemDocuments : List Node → Except ReadError (List Document)
  | [] => .ok []
  | x :: rest => do
    let d ← toDocument x
    let ds ← itemDocuments rest
    .ok (d :: ds)

/-- The members of entries, put to those that are there already. -/
def entryMembers (ms : Members) : List (Node × Node) → Except ReadError Members
  | [] => .ok ms
  | (k, v) :: rest => do
    let key ← keyText k
    let d ← toDocument v
    entryMembers (ms.insert key d) rest

end

end Node

/-- The first document of a text, null if there is none. -/
def parse (text : String) : Except ReadError Document :=
  match parseDocuments text with
  | .error problem => .error (.problem problem)
  | .ok [] => .ok .null
  | .ok (root :: _) => root.toDocument

/-- What the fault of a text that cannot be read is about. -/
def subject : String := "yaml"

/-- The first document of a text, or a fault. -/
def load (text : String) : Except Fault Document :=
  (parse text).mapError fun (e : ReadError) => .serialization (some subject) e.message

end Yaml

end BatchRun
