import BatchRun.Cluster.Request
import BatchRun.Cluster.Schema
import BatchRun.Cluster.Server
import BatchRun.Document.Along

/-!
# Pods and jobs on a server

The objects of one kind in a namespace are a collection with a path of its own. A manifest is sent
as far as it is an object with metadata.

* `Resource`, `Resource.pods`, `Resource.jobs`;
* `ObjectList`: one page of a collection;
* **`manifestBody`**: what is sent for a manifest.
-/

namespace BatchRun

/-- A kind of object on a server. -/
structure Resource where
  /-- The path of the group of the kind. -/
  group : String
  /-- The name of the collection. -/
  plural : String
  shape : Shape

namespace Resource

/-- The pods. -/
def pods : Resource := ⟨"/api/v1", "pods", .pod⟩

/-- The jobs. -/
def jobs : Resource := ⟨"/apis/batch/v1", "jobs", .job⟩

/-- The path of the collection in a namespace. -/
def path (r : Resource) (ns : String) : String := s!"{r.group}/namespaces/{ns}/{r.plural}"

end Resource

/-- A request that only reads. -/
def Request.read (path : String) (query : List (String × String)) : Request :=
  ⟨.get, path, query, none⟩

/-- One page of a collection. -/
structure ObjectList where
  items : List Document
  version : Option String
  /-- The token of the next page. -/
  next : Option String

namespace ObjectList

/-- The shape of what a page says of itself. -/
def metadataShape : Shape :=
  .loose "ListMeta"
    [("continue", .text), ("remainingItemCount", .int64), ("resourceVersion", .text),
     ("selfLink", .text)]

/-- The items of a page; null stands for none. -/
def readItems (item : Shape) (d : Document) : Except Mismatch (List Document) :=
  match d with
  | .null => .ok []
  | d => d.asList item.read

/-- A text that is there and not empty. -/
def given (d : Document) (key : String) : Option String :=
  match d.textAlong [key] with
  | some "" => none
  | s => s

/-- The page that a document holds. -/
def ofDocument (item : Shape) : Document → Except Mismatch ObjectList
  | .object ms => do
    checkMembers
      [("metadata", admits metadataShape.read), ("items", admits (readItems item))] ms
    let about ← fieldOr ms "metadata" (.object []) metadataShape.read
    let items ← fieldRequired ms "items" (readItems item)
    .ok ⟨items, given about "resourceVersion", given about "continue"⟩
  | d => .error (.kind d "struct ObjectList")

end ObjectList

/-- The version and the kind that a manifest gives, and its other members. A member that is no
text ends the search, and what was found by then is dropped. -/
def splitKind : Option String → Option String → Members → Option (String × String) × Members
  | some version, some kind, rest => (some (version, kind), rest)
  | version, kind, (key, value) :: rest =>
    if key = "apiVersion" then
      match value with
      | .string s => splitKind (some s) kind rest
      | _ => (none, rest)
    else if key = "kind" then
      match value with
      | .string s => splitKind version (some s) rest
      | _ => (none, rest)
    else
      let (found, others) := splitKind version kind rest
      (found, (key, value) :: others)
  | _, _, [] => (none, [])

/-- What is sent for a manifest: version and kind if it gives both, its metadata by their shape,
and its other members. -/
def manifestBody : Document → Except Mismatch Document
  | .object ms => do
    let about ← fieldOr ms "metadata" (.object []) Shape.metadata.read
    let (found, others) := splitKind none none ms
    let head : Members := match found with
      | some (version, kind) => [("apiVersion", .string version), ("kind", .string kind)]
      | none => []
    let others := others.filter fun (m : String × Document) => m.1 != "metadata"
    .ok (.object (head ++ [("metadata", about)] ++ others))
  | d => .error (.kind d "struct DynamicObject")

/-- The metadata of an object whose other members do not matter. -/
def readMetadata : Document → Except Mismatch Document
  | .object ms => fieldOr ms "metadata" (.object []) Shape.metadata.read
  | d => .error (.kind d "struct DynamicObject")

end BatchRun
