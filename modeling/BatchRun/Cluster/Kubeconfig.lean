import BatchRun.Document.Typed
import BatchRun.Manifest.File
import BatchRun.Yaml.Reader

/-!
# Kubeconfigs

A kubeconfig names clusters, users and contexts, and the context in use says which cluster to talk
to and in which namespace.

* `Kubeconfig`, `Kubeconfig.ofDocument`;
* `Kubeconfig.access?`: the cluster and the namespace of the context in use;
* **`connect`**: the way from a file to the namespace of a client, with the step that fails.
-/

namespace BatchRun

/-- A cluster of a kubeconfig. -/
structure ClusterEntry where
  server : Option String
  proxy : Option String
  deriving Inhabited

/-- A context of a kubeconfig. -/
structure ContextEntry where
  cluster : String
  ns : Option String
  deriving Inhabited

/-- The parts of a kubeconfig that lead to a cluster, by their names. -/
structure Kubeconfig where
  clusters : List (String × Option ClusterEntry)
  contexts : List (String × Option ContextEntry)
  current : Option String
  deriving Inhabited

namespace Kubeconfig

/-- A field that may be missing or null. -/
def fieldOption {α : Type} (ms : Members) (key : String)
    (read : Document → Except Mismatch α) : Except Mismatch (Option α) :=
  fieldOr ms key none (Document.asOption read)

/-- Checks that some fields are texts, if they are there. -/
def checkTexts (ms : Members) (keys : List String) : Except Mismatch Unit :=
  checkMembers (keys.map fun (k : String) =>
    (k, admits (Document.asOption Document.asString))) ms

/-- The members of a structure; null has none. -/
def membersOf (title : String) : Document → Except Mismatch Members
  | .object ms => .ok ms
  | .null => .ok []
  | d => .error (.kind d title)

/-- A field that must be there, of any value. -/
def needed {α : Type} (ms : Members) (key : String) (read : Document → Except Mismatch α) :
    Except Mismatch α :=
  match Members.get? key ms with
  | some d => read d
  | none => .error (.missing key)

/-- A cluster. -/
def readCluster (d : Document) : Except Mismatch ClusterEntry := do
  let ms ← membersOf "struct Cluster" d
  checkTexts ms
    ["server", "certificate-authority", "certificate-authority-data", "proxy-url",
     "tls-server-name"]
  checkMembers
    [("insecure-skip-tls-verify", admits (Document.asOption Document.asBool)),
     ("disable-compression", admits (Document.asOption Document.asBool))] ms
  let server ← fieldOption ms "server" Document.asString
  let proxy ← fieldOption ms "proxy-url" Document.asString
  .ok ⟨server, proxy⟩

/-- A context. -/
def readContext (d : Document) : Except Mismatch ContextEntry := do
  let ms ← membersOf "struct Context" d
  checkTexts ms ["user", "namespace"]
  let cluster ← needed ms "cluster" Document.asString
  let ns ← fieldOption ms "namespace" Document.asString
  .ok ⟨cluster, ns⟩

/-- A user, of which only the form is looked at. -/
def readUser (d : Document) : Except Mismatch Unit := do
  let ms ← membersOf "struct AuthInfo" d
  checkTexts ms
    ["username", "password", "token", "tokenFile", "client-certificate",
     "client-certificate-data", "client-key", "client-key-data", "as"]

/-- Something that has a name. -/
def readNamed {α : Type} (key : String) (read : Document → Except Mismatch α) (d : Document) :
    Except Mismatch (String × Option α) := do
  let ms ← membersOf "a named entry" d
  let name ← needed ms "name" Document.asString
  let value ← fieldOption ms key read
  .ok (name, value)

/-- A list that may be missing or null. -/
def readList {α : Type} (ms : Members) (key : String) (read : Document → Except Mismatch α) :
    Except Mismatch (List α) := do
  let items ← fieldOption ms key (Document.asList read)
  .ok (items.getD [])

/-- The kubeconfig that a document describes. -/
def ofDocument (d : Document) : Except Mismatch Kubeconfig := do
  let ms ← membersOf "struct Kubeconfig" d
  checkTexts ms ["kind", "apiVersion"]
  let clusters ← readList ms "clusters" (readNamed "cluster" readCluster)
  let _ ← readList ms "users" (readNamed "user" readUser)
  let contexts ← readList ms "contexts" (readNamed "context" readContext)
  let current ← fieldOption ms "current-context" Document.asString
  .ok ⟨clusters, contexts, current⟩

/-- The first entry of a name. -/
def find? {α : Type} (name : String) : List (String × Option α) → Option α
  | [] => none
  | (n, value) :: rest => if n = name then value else find? name rest

/-- The context in use and its cluster. -/
def access? (k : Kubeconfig) : Option (ContextEntry × ClusterEntry) :=
  match k.current with
  | none => none
  | some name =>
    match find? name k.contexts with
    | none => none
    | some context =>
      match find? context.cluster k.clusters with
      | none => none
      | some cluster => some (context, cluster)

end Kubeconfig

/-- How many seconds a client waits for a connection. -/
def connectSeconds : Nat := 5

/-- How many seconds a client waits for more of an answer: watches and logs stay open, so there is
no bound. -/
def readSeconds : Option Nat := none

/-- The step at which there is no client. -/
inductive ConnectStep where
  | read (path : String)
  | load
  | infer
  | create
  deriving DecidableEq, Inhabited

/-- The wording of a step that failed. -/
def ConnectStep.message : ConnectStep → String
  | read path => s!"failed to read kubeconfig {path}"
  | load => "failed to load kubeconfig"
  | infer => "failed to infer config"
  | create => "failed to create client"

/-- What a step that failed is reported under. -/
def ConnectStep.context : String := "create_client"

/-- Whether a character may stand in an address. -/
def isAddressChar (c : Char) : Bool :=
  0x21 ≤ c.toNat && c.toNat < 0x7F && !("\"<>\\^\x60\x7b|\x7d".toList.contains c)

/-- Whether a text has the form of an address. -/
def isAddress (s : String) : Bool := s != "" && s.toList.all isAddressChar

/-- A text that is not empty. -/
def nonEmpty (s : Option String) : Option String :=
  match s with
  | some "" => none
  | s => s

/-- The namespace of a client that is made from what a kubeconfig gives access to. -/
def connectTo (context : ContextEntry) (cluster : ClusterEntry) : Except ConnectStep String :=
  match cluster.server with
  | none => .error .load
  | some server =>
    if !isAddress server then .error .load
    else
      match nonEmpty cluster.proxy with
      | some proxy => if isAddress proxy then .error .create else .error .load
      | none => .ok (context.ns.getD defaultNamespace)

/-- The kubeconfig at a path. -/
def Kubeconfig.load? (content : PathContent) : Option Kubeconfig :=
  match content.text with
  | .error _ => none
  | .ok text =>
    match Yaml.parse text with
    | .error _ => none
    | .ok d => (Kubeconfig.ofDocument d).toOption

/-- The namespace of a client for a kubeconfig. If the configuration is inferred, all that fails
before the client is made is one step. -/
def connect (path : String) (content : PathContent) (inferred : Bool) :
    Except ConnectStep String :=
  match Kubeconfig.load? content with
  | none => .error (if inferred then .infer else .read path)
  | some k =>
    match k.access? with
    | none => .error (if inferred then .infer else .load)
    | some (context, cluster) =>
      match connectTo context cluster with
      | .error .load => .error (if inferred then .infer else .load)
      | r => r

end BatchRun
