import BatchRun.Cluster.Resource
import BatchRun.Run.Client

/-!
# Watching a collection

A collection is first listed page by page, and then watched from the version of the list. A watch
that ends is taken up again at the last version seen; a version that is gone or missing makes the
list necessary again. After a failure there is a pause, which doubles from one to the next.

* `WatchLine`: what a line of a watch says;
* `Watch`, `Watch.Stance`: what is watched, and how far that has come;
* **`Watch.feed`**: the events that come of the answers of a server.
-/

namespace BatchRun

/-- What a line of a watch says. -/
inductive WatchLine where
  | applied (object : Document)
  | deleted (object : Document)
  /-- The collection has come to a version. -/
  | bookmark (version : String)
  | report (error : ErrorResponse)

namespace WatchLine

/-- The kinds of lines. -/
def kinds : List String := ["ADDED", "MODIFIED", "DELETED", "BOOKMARK", "ERROR"]

/-- The version that a bookmark gives. -/
def readBookmark : Document → Except Mismatch String
  | .object ms => do
    let shape : Shape := .record "struct BookmarkMeta" (.optional [("annotations", .texts)] .nil)
    let about (d : Document) : Except Mismatch String :=
      match d with
      | .object inner => do
        checkMembers [("resourceVersion", admits Document.asString),
          ("annotations", admits shape.read)] inner
        fieldRequired inner "resourceVersion" Document.asString
      | d => .error (.kind d "struct BookmarkMeta")
    checkMembers [("metadata", admits about)] ms
    let _ ← fieldRequired ms "apiVersion" Document.asString
    let _ ← fieldRequired ms "kind" Document.asString
    fieldRequired ms "metadata" about
  | d => .error (.kind d "struct Bookmark")

/-- What a line of a known kind says. -/
def ofKind (shape : Shape) (kind : String) (object : Document) : Except Mismatch WatchLine :=
  match kind with
  | "ADDED" | "MODIFIED" => (shape.read object).map applied
  | "DELETED" => (shape.read object).map deleted
  | "BOOKMARK" => (readBookmark object).map bookmark
  | "ERROR" => (ErrorResponse.ofDocument object).map report
  | kind => .error (.variant kind kinds)

/-- One of the kinds. -/
def readKind : Document → Except Mismatch String
  | .string s => if s ∈ kinds then .ok s else .error (.variant s kinds)
  | d => .error (.kind d "variant of enum WatchEvent")

/-- What a line says. -/
def ofDocument (shape : Shape) : Document → Except Mismatch WatchLine
  | .object ms => do
    let kind ← fieldRequired ms "type" readKind
    let object ← fieldRequired ms "object" .ok
    ofKind shape kind object
  | d => .error (.kind d "adjacently tagged enum WatchEvent")

/-- What the text of a line says; a line that merely stops too early says nothing. -/
def parse (shape : Shape) (line : String) : Option (Except ExchangeError WatchLine) :=
  match Json.parse line with
  | .error failure =>
    if failure.cause.isEnd then none else some (.error (.decoding (failure.message line)))
  | .ok d =>
    match ofDocument shape d with
    | .ok told => some (.ok told)
    | .error m =>
      match ErrorResponse.ofDocument d with
      | .ok r => some (.error (.response r))
      | .error _ => some (.error (.decoding (placed line d m)))

end WatchLine

/-- The lines of a watch, of which the last one need not be ended if the body is complete, and how
long the watch goes on after them. -/
def Body.watchLines (b : Body) : List (Timed (List UInt8)) × Nat :=
  let (ended, last) := b.lines
  match b.ending with
  | .complete =>
    if last.value = [] ∨ last.value = [13] then (ended, last.wait) else (ended ++ [last], 0)
  | _ => (ended, last.wait)

/-- How and when the lines of a watch end, a break with its wording. A line that is no text breaks
them off. -/
def Body.watchEnd (b : Body) (left : Nat) : Option Nat → Timed BodyEnd
  | none =>
    ⟨left, match b.ending with
      | .broken reason => .broken (ExchangeError.service reason).message
      | ending => ending⟩
  | some garbled => ⟨garbled, .broken "Unable to decode input as UTF8"⟩

/-- What is watched. -/
structure Watch where
  resource : Resource
  ns : String
  /-- The parameter that selects objects, and its value. -/
  selector : String × String

namespace Watch

/-- How far a watch has come: it lists, from a page on, or follows changes since a version. -/
inductive Stance where
  | listing (page : Option String)
  | following (version : String)
  deriving DecidableEq

/-- The order of parameters. -/
def sorted (query : List (String × String)) : List (String × String) :=
  query.mergeSort fun (a b : String × String) => a.1 ≤ b.1

/-- The request that a watch makes next. -/
def request (w : Watch) : Stance → Request
  | .listing page =>
    let next := match page with
      | some token => [("continue", token)]
      | none => []
    .read (w.resource.path w.ns) (sorted (next ++ [w.selector, ("limit", "500")]))
  | .following version =>
    .read (w.resource.path w.ns)
      (sorted [("allowWatchBookmarks", "true"), w.selector, ("resourceVersion", version),
        ("timeoutSeconds", "290"), ("watch", "true")])

/-- The pause after a failure that others came before. -/
def pause (failures : Nat) : Nat := min (800 * Nat.pow 2 failures) 30000

/-- The version of an object. -/
def version? (object : Document) : Option String :=
  match object.textAlong ["metadata", "resourceVersion"] with
  | some "" => none
  | v => v

/-- A step that delivers an event. -/
def delivery (wait : Nat) (server : Server) (event : WatchEvent Document) :
    Step Server Document := ⟨wait, [], some (.ok event), server⟩

/-- The objects of a page are delivered together. -/
def deliveries (wait : Nat) (server : Server) (items : List Document) :
    List (Step Server Document) :=
  (Timed.together wait items).map fun (d : Timed Document) =>
    delivery d.wait server (.applied d.value)

/-- A failure of the watch. -/
def fault (w : Watch) (reason : String) : WatchEvent Document :=
  .fault (.watch w.resource.plural reason)

/-- The failure of an object or a list without a version. -/
def noVersion : String :=
  "no metadata.resourceVersion in watch result (does resource support watch?)"

/-- What has come of the lines of a watch. -/
structure Progress where
  steps : List (Step Server Document)
  stance : Stance
  /-- The pause before anything else. -/
  wait : Nat
  failures : Nat
  /-- Whether the watch was given up before the end of its lines. -/
  left : Bool

/-- The same progress after one step more. -/
def Progress.after (step : Step Server Document) (p : Progress) : Progress :=
  { p with steps := step :: p.steps }

/-- What comes of the lines of a watch that follows changes since a version. -/
def lineSteps (w : Watch) (server : Server) :
    (version : String) → (wait failures : Nat) → List (Timed String) → Progress
  | version, wait, failures, [] => ⟨[], .following version, wait, failures, false⟩
  | version, wait, failures, line :: rest =>
    let arrived := wait + line.wait
    let givenUp (reason : String) (stance : Stance) : Progress :=
      ⟨[delivery arrived server (w.fault reason)], stance, pause failures, failures + 1, true⟩
    let changed (object : Document) (event : WatchEvent Document) : Progress :=
      match version? object with
      | none => givenUp noVersion (.listing none)
      | some next =>
        (lineSteps w server next 0 failures rest).after (delivery arrived server event)
    match WatchLine.parse w.resource.shape line.value with
    | none => lineSteps w server version arrived failures rest
    | some (.error e) => givenUp s!"watch stream failed: {e.message}" (.following version)
    | some (.ok (.applied object)) => changed object (.applied object)
    | some (.ok (.deleted object)) => changed object (.deleted object)
    | some (.ok (.bookmark next)) => lineSteps w server next arrived failures rest
    | some (.ok (.report r)) =>
      let reason := s!"error returned by apiserver during watch: {r.summary}"
      if r.code = 410 then givenUp reason (.listing none)
      else
        (lineSteps w server version (pause failures) (failures + 1) rest).after
          (delivery arrived server (w.fault reason))

/-- The steps that come of the answers of a server. -/
def steps (w : Watch) :
    (stance : Stance) → (wait failures : Nat) → List ServerAnswer → List (Step Server Document)
  | stance, wait, _, [] => [⟨wait, [.request (w.request stance)], none, ⟨[]⟩⟩]
  | stance, wait, failures, answer :: rest =>
    let server : Server := ⟨rest⟩
    let asked : Step Server Document := ⟨wait, [.request (w.request stance)], none, server⟩
    let failed (pauseBefore : Nat) (reason : String) (next : Stance) :
        List (Step Server Document) :=
      delivery pauseBefore server (w.fault reason)
        :: steps w next (pause failures) (failures + 1) rest
    let listed (items : List Document) (next : Stance) : List (Step Server Document) :=
      deliveries answer.duration server items
        ++ steps w next (if items = [] then answer.duration else 0) failures rest
    match stance with
    | .listing _ =>
      match answer.content (ObjectList.ofDocument w.resource.shape) with
      | none => [asked]
      | some (.error e) =>
        asked :: failed answer.duration s!"failed to perform initial object list: {e.message}"
          (.listing none)
      | some (.ok page) =>
        match page.next, page.version with
        | none, none => asked :: failed answer.duration noVersion (.listing none)
        | some token, _ => asked :: listed page.items (.listing (some token))
        | none, some version => asked :: listed page.items (.following version)
    | .following version =>
      match answer with
      | .refused reason =>
        asked :: failed 0
          s!"failed to start watching object: {(ExchangeError.service reason).message}"
          (.following version)
      | .answered _ body =>
        let (arriving, left) := body.watchLines
        let (lines, garbled) := readLines arriving
        let p := w.lineSteps server version 0 failures lines
        asked :: p.steps ++
          if p.left then steps w p.stance p.wait p.failures rest
          else
            let stop := body.watchEnd left garbled
            match stop.value with
            | .complete => steps w p.stance (p.wait + stop.wait) p.failures rest
            | .endless => []
            | .broken reason =>
              delivery (p.wait + stop.wait) server
                (w.fault s!"watch stream failed: Error reading events stream: {reason}")
                :: steps w p.stance (pause p.failures) (p.failures + 1) rest

/-- The events that come of the answers of a server. It never closes. -/
def feed (w : Watch) (server : Server) : Feed Server Document :=
  ⟨w.steps (.listing none) 0 0 server.answers, false⟩

end Watch

end BatchRun
