import BatchRun.Decimal.Literal
import BatchRun.Text.Quoted
import BatchRun.Yaml.Plain

/-!
# The nodes of a YAML document

A node is a scalar of some kind, a sequence or a mapping. What a plain scalar is follows from its
text, unless a tag of the standard schema says so.

* `Yaml.Node`, `Yaml.Node.render`: the form in which a report names a node;
* `Yaml.resolvePlain`: the kind of an untagged plain scalar;
* **`Yaml.resolve`**: the node of a scalar.
-/

namespace BatchRun

namespace Yaml

/-- A node. A real number keeps its text. -/
inductive Node where
  | null
  | bool (value : Bool)
  | int (value : Int)
  | real (text : String)
  | string (text : String)
  | array (items : List Node)
  | mapping (entries : List (Node × Node))
  /-- A node that stands for no value: a text that its tag does not admit, or a reference to a
  node that is not complete. -/
  | invalid
  deriving Inhabited

namespace Node

def isInvalid : Node → Bool
  | invalid => true
  | _ => false

mutual

/-- The form in which a report names a node. -/
def render : Node → String
  | null => "Null"
  | bool b => s!"Boolean({b})"
  | int i => s!"Integer({i})"
  | real s => s!"Real({Text.quoted s})"
  | string s => s!"String({Text.quoted s})"
  | array xs => "Array([" ++ renderItems xs ++ "])"
  | mapping es => "Hash(\x7b" ++ renderEntries es ++ "\x7d)"
  | invalid => "BadValue"

/-- Items with commas between them. -/
def renderItems : List Node → String
  | [] => ""
  | [x] => render x
  | x :: y :: rest => render x ++ ", " ++ renderItems (y :: rest)

/-- Entries with commas between them. -/
def renderEntries : List (Node × Node) → String
  | [] => ""
  | [(k, v)] => render k ++ ": " ++ render v
  | (k, v) :: e :: rest => render k ++ ": " ++ render v ++ ", " ++ renderEntries (e :: rest)

end

mutual

/-- Whether two nodes are the same, entries being compared in order. -/
def same : Node → Node → Bool
  | null, null => true
  | bool a, bool b => a == b
  | int a, int b => a == b
  | real a, real b => a == b
  | string a, string b => a == b
  | array xs, array ys => sameItems xs ys
  | mapping es, mapping fs => sameEntries es fs
  | invalid, invalid => true
  | _, _ => false

/-- Whether two lists of nodes are the same. -/
def sameItems : List Node → List Node → Bool
  | [], [] => true
  | x :: xs, y :: ys => same x y && sameItems xs ys
  | _, _ => false

/-- Whether two lists of entries are the same. -/
def sameEntries : List (Node × Node) → List (Node × Node) → Bool
  | [], [] => true
  | (k, v) :: es, (l, w) :: fs => same k l && same v w && sameEntries es fs
  | _, _ => false

end

end Node

/-! ## Scalars -/

/-- An integer that fits 64 bits with its sign. -/
def signed64? (i : Int) : Option Int :=
  if -(Nat.pow 2 63 : Int) ≤ i ∧ i < Nat.pow 2 63 then some i else none

/-- An integer in a base, with an optional sign, that fits 64 bits. -/
def parseInteger? (base : Nat) (cs : List Char) : Option Int :=
  let (negative, ds) := Decimal.splitSign cs
  (natInBase? base ds).bind fun (n : Nat) => signed64? (if negative then -(n : Int) else n)

/-- An integer with a mark for its base, or a second sign. -/
def parseMarked? : List Char → Option Int
  | '0' :: 'x' :: rest => parseInteger? 16 rest
  | '0' :: 'o' :: rest => parseInteger? 8 rest
  | '+' :: rest => parseInteger? 10 rest
  | _ => none

/-- The spellings with a point of reals that are not finite. -/
def boundlessWords : List String := specialWords.erase ".NaN"

/-- Whether a text denotes a real number. -/
def isReal (s : String) : Bool :=
  boundlessWords.contains s || (Decimal.Literal.parse? s.toList).isSome

/-- The node of an untagged plain scalar. -/
def resolvePlain (s : String) : Node :=
  match parseMarked? s.toList with
  | some i => .int i
  | none =>
    if s = "~" ∨ s = "null" then .null
    else if s = "true" then .bool true
    else if s = "false" then .bool false
    else
      match parseInteger? 10 s.toList with
      | some i => .int i
      | none => if isReal s then .real s else .string s

/-- The namespace of the tags of the standard schema. -/
def standardTags : String := "tag:yaml.org,2002:"

/-- The node of a plain scalar with a tag of the standard schema. -/
def resolveStandard (suffix s : String) : Node :=
  if suffix = "bool" then
    if s = "true" then .bool true else if s = "false" then .bool false else .invalid
  else if suffix = "int" then
    match parseInteger? 10 s.toList with
    | some i => .int i
    | none => .invalid
  else if suffix = "float" then if isReal s then .real s else .invalid
  else if suffix = "null" then if s = "~" ∨ s = "null" then .null else .invalid
  else .string s

/-- A resolved tag: what its handle stands for, and its suffix. -/
structure Tag where
  lead : String
  suffix : String
  deriving DecidableEq

/-- The node of a scalar. Only a plain scalar can be anything but a string. -/
def resolve (isPlain : Bool) (tag : Option Tag) (s : String) : Node :=
  if !isPlain then .string s
  else
    match tag with
    | none => resolvePlain s
    | some t => if t.lead = standardTags then resolveStandard t.suffix s else .string s

end Yaml

end BatchRun
