import BatchRun.Cluster.Watch

/-!
# A client of a server

Every call of this client is a request to a server, and a watch makes its requests as its events
are taken.

* `Server.createJob`, `Server.getJob`, `Server.podStatus`, `Server.watchPods`, `Server.watchJobs`,
  `Server.followLogs`: the calls, which deliver whole objects;
* **`Server.client`**: the client of a run.
-/

namespace BatchRun

/-- The same reply with another value. -/
def Reply.map {σ α β : Type} (f : α → β) (r : Reply σ α) : Reply σ β where
  remarks := r.remarks
  lines := r.lines
  rest := r.rest
  outcome := match r.outcome with
    | .returns answer client => .returns (answer.map f) client
    | .panics message => .panics message
    | .hangs => .hangs

/-- The same event of another object. -/
def WatchEvent.map {α β : Type} (f : α → β) : WatchEvent α → WatchEvent β
  | applied object => applied (f object)
  | deleted object => deleted (f object)
  | fault reason => fault reason

/-- The same feed of other objects. -/
def Feed.map {σ α β : Type} (f : α → β) (feed : Feed σ α) : Feed σ β where
  steps := feed.steps.map fun (s : Step σ α) =>
    { wait := s.wait, remarks := s.remarks, client := s.client
      item := s.item.map fun (i : Except String (WatchEvent α)) => i.map (WatchEvent.map f) }
  closes := feed.closes

/-- A failed exchange as a fault. -/
def exchangeFault {α : Type} (r : Except ExchangeError α) : Except Fault α :=
  r.mapError Fault.exchange

namespace Server

variable {α : Type}

/-- A reply without a request. -/
def atOnce (s : Server) (answer : Except Fault α) : Reply Server α :=
  ⟨[], [], 0, .returns answer s⟩

/-- How a call comes back, if it does, when some answers are left. -/
def comesBack (result : Option (Except Fault α)) (rest : List ServerAnswer) : Outcome Server α :=
  match result with
  | none => .hangs
  | some answer => .returns answer ⟨rest⟩

/-- A request, and what the answer to it means, all of which is waited for. -/
def ask (request : Request) (meaning : ServerAnswer → Option (Except Fault α)) (s : Server) :
    Reply Server α :=
  match s.answers with
  | [] => ⟨[.request request], [], 0, .hangs⟩
  | answer :: rest =>
    ⟨[.request request], [], answer.duration, comesBack (meaning answer) rest⟩

/-- The fault of a request for an object without a name. -/
def nameless : Fault :=
  .exchange (.request "failed to validate request: A non-empty name is required")

/-- A request for an object with a name. -/
def askNamed (name : String) (request : Request)
    (meaning : ServerAnswer → Option (Except Fault α)) (s : Server) : Reply Server α :=
  if name = "" then s.atOnce (.error nameless) else s.ask request meaning

/-- Creates a job; delivers its metadata. -/
def createJob (ns : String) (manifest : Document) (s : Server) : Reply Server Document :=
  match manifestBody manifest with
  | .error m => s.atOnce (.error (.serialization (some "Job") m.message))
  | .ok body =>
    s.ask ⟨.post, Resource.jobs.path ns, [], some body⟩ fun (answer : ServerAnswer) =>
      (answer.content readMetadata).map exchangeFault

/-- Reads a job. There is none if that is the reason in the report of the server. -/
def getJob (ns name : String) (s : Server) : Reply Server (Option Document) :=
  s.askNamed name (.read s!"{Resource.jobs.path ns}/{name}" []) fun (answer : ServerAnswer) =>
    (answer.content Shape.job.read).map fun (r : Except ExchangeError Document) =>
      match r with
      | .ok d => .ok (some d)
      | .error (.response report) =>
        if report.reason = "NotFound" then .ok none
        else .error (.exchange (.response report))
      | .error e => .error (.exchange e)

/-- Reads the status of a pod. There is none if that is the code in the report of the server. -/
def podStatus (ns name : String) (s : Server) : Reply Server (Option Document) :=
  s.askNamed name (.read s!"{Resource.pods.path ns}/{name}/status" [])
    fun (answer : ServerAnswer) =>
      (answer.content Shape.pod.read).map fun (r : Except ExchangeError Document) =>
        match exchangeFault r with
        | .ok d => .ok (some d)
        | .error f => if f.isNotFound then .ok none else .error f

/-- Opens a watch of pods by their labels. -/
def watchPods (ns selector : String) (s : Server) : Reply Server (Feed Server Document) :=
  ⟨[.note (.openingPodWatch ns selector)], [], 0,
    .returns (.ok (Watch.feed ⟨.pods, ns, ("labelSelector", selector)⟩ s)) s⟩

/-- Opens a watch of jobs by their fields. -/
def watchJobs (ns selector : String) (s : Server) : Reply Server (Feed Server Document) :=
  ⟨[.note (.openingJobWatch ns selector)], [], 0,
    .returns (.ok (Watch.feed ⟨.jobs, ns, ("fieldSelector", selector)⟩ s)) s⟩

/-- The request that follows a log. -/
def logRequest (ns pod : String) (container : Option String) : Request :=
  let chosen := match container with
    | some c => [("container", c)]
    | none => []
  .read s!"{Resource.pods.path ns}/{pod}/log" (chosen ++ [("follow", "true")])

/-- The lines of a log, of which the last one need not be ended if the body is complete, and how
long the log goes on after them. -/
def logLines (b : Body) : List (Timed (List UInt8)) × Nat :=
  let (ended, last) := b.lines
  match b.ending with
  | .complete => if last.value = [] then (ended, last.wait) else (ended ++ [last], 0)
  | _ => (ended, last.wait)

/-- The fault of a log that cannot be read on. -/
def logBroken (reason : String) : Fault := .operation "log_stream" reason

/-- What comes of a log after its last line, so many lines having been forwarded. -/
def logResult (count : Nat) : BodyEnd → Option (Except Fault Nat)
  | .complete => some (.ok count)
  | .broken reason => some (.error (logBroken (ExchangeError.service reason).message))
  | .endless => none

/-- What comes of a log: its lines, how long it goes on after them, and what it comes to, if it ends
at all. -/
structure LogEnd where
  lines : List (Timed String)
  rest : Nat
  result : Option (Except Fault Nat)

/-- Forwards the lines of a log one after another and counts them. A line that is no text breaks the
log off. -/
def forwardLines (ending : BodyEnd) (left count : Nat) : List (Timed (List UInt8)) → LogEnd
  | [] => ⟨[], left, logResult count ending⟩
  | line :: rest =>
    match readLine line.value with
    | none => ⟨[], line.wait, some (.error (logBroken Text.notText))⟩
    | some text =>
      let more := forwardLines ending left (count + 1) rest
      { more with lines := ⟨line.wait, text⟩ :: more.lines }

/-- Forwards the lines of a body. -/
def forwardBody (b : Body) : LogEnd :=
  let (lines, left) := logLines b
  forwardLines b.ending left 0 lines

/-- What comes of a log that is answered. -/
def logReply (answer : ServerAnswer) : LogEnd :=
  match answer.accepted with
  | none => ⟨[], answer.duration, none⟩
  | some (.error e) => ⟨[], answer.duration, some (.error (.exchange e))⟩
  | some (.ok body) => forwardBody body

/-- Follows a log, line by line. -/
def followLogs (ns pod : String) (container : Option String) (s : Server) : Reply Server Nat :=
  if pod = "" then s.atOnce (.error nameless)
  else
    match s.answers with
    | [] => ⟨[.request (logRequest ns pod container)], [], 0, .hangs⟩
    | answer :: rest =>
      let log := logReply answer
      ⟨[.request (logRequest ns pod container)], log.lines, log.rest, comesBack log.result rest⟩

/-- The client of a run. -/
def client : Client Server where
  createJob ns manifest s := (s.createJob ns manifest).map Metadata.view
  getJob ns name s := (s.getJob ns name).map (Option.map Job.view)
  watchPods ns selector s := (s.watchPods ns selector).map (Feed.map Pod.view)
  watchJobs ns selector s := (s.watchJobs ns selector).map (Feed.map Job.view)
  followLogs ns pod container s := s.followLogs ns pod container
  podStatus ns name s := (s.podStatus ns name).map (Option.map Pod.view)

end Server

end BatchRun
