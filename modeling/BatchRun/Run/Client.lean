import BatchRun.Run.Course
import BatchRun.Text.Blank

/-!
# Clients

A client stands between a run and the cluster. Each of its calls takes some time and then returns,
panics, or never comes back; a watch, once open, delivers events one after another. How a client
goes on may depend on what it was asked before.

* `Reply`, `Feed`, `Client`;
* `Act`: an activity that uses a client, `Act.ask`;
* **`Act.follow`**: the events of a feed, up to the first that decides.
-/

namespace BatchRun

/-- What a client does on its own while it is asked. -/
inductive Remark where
  | note (notice : Notice)
  | request (request : Request)
  deriving Inhabited

/-- The deed that a remark is. -/
def Remark.deed : Remark → Deed
  | note n => .note n
  | request r => .request r

/-- How a call comes back. -/
inductive Outcome (σ α : Type) where
  | returns (answer : Except Fault α) (client : σ)
  | panics (message : String)
  | hangs

/-- What comes of a call: the remarks of the client, the lines of output that it forwards one after
another, and the outcome. -/
structure Reply (σ α : Type) where
  remarks : List Remark
  lines : List (Timed String)
  /-- How long the call goes on after the last line. -/
  rest : Nat
  outcome : Outcome σ α

/-- How long a call takes. -/
def Reply.delay {σ α : Type} (r : Reply σ α) : Nat := Timed.total r.lines + r.rest

/-- What a watch tells. -/
inductive WatchEvent (α : Type) where
  | applied (object : α)
  | deleted (object : α)
  | fault (fault : Fault)

/-- One step of a feed: after a wait the client makes its remarks and may deliver something. -/
structure Step (σ α : Type) where
  wait : Nat
  remarks : List Remark
  item : Option (Except String (WatchEvent α))
  /-- The client after this step. -/
  client : σ

/-- The events of a watch. A feed that does not close stays open silently at its end. -/
structure Feed (σ α : Type) where
  steps : List (Step σ α)
  closes : Bool

/-- A client of a cluster, whose state is `σ`. -/
structure Client (σ : Type) where
  createJob : (ns : String) → (manifest : Document) → σ → Reply σ Metadata
  getJob : (ns name : String) → σ → Reply σ (Option Job)
  watchPods : (ns selector : String) → σ → Reply σ (Feed σ Pod)
  watchJobs : (ns selector : String) → σ → Reply σ (Feed σ Job)
  /-- Forwards the lines of a log and returns their number. -/
  followLogs : (ns pod : String) → (container : Option String) → σ → Reply σ Nat
  podStatus : (ns name : String) → σ → Reply σ (Option Pod)

/-- An activity that uses a client. -/
abbrev Act (σ ε α : Type) := StateT σ (Course ε) α

/-- The line that is forwarded for a line of a log. -/
def outputLine (raw : String) : String := Text.trimEnd raw

/-- How an activity ends that waits for a call. -/
def Outcome.ending {σ ε α : Type} : Outcome σ α → Ending ε (Except Fault α × σ)
  | returns answer client => .returned (answer, client)
  | panics message => .panicked message
  | hangs => .stuck

namespace Reply

variable {σ ε α : Type}

/-- Lines are forwarded as they come in. -/
def forward : List (Timed String) → Course ε Unit
  | [] => .pure ()
  | line :: rest =>
    (Course.wait line.wait).bind fun _ =>
      (Course.deed (.line (outputLine line.value))).bind fun _ => forward rest

/-- The course of a call: the client makes its remarks and forwards the lines. -/
def course (r : Reply σ α) : Course ε (Except Fault α × σ) :=
  let remarks : Course ε Unit :=
    ⟨r.remarks.map fun (m : Remark) => ⟨0, false, m.deed⟩, .returned (), 0⟩
  remarks.bind fun _ => (forward r.lines).bind fun _ => ⟨[], r.outcome.ending, r.rest⟩

end Reply

namespace Act

variable {σ ε α β κ : Type}

/-- An activity that leaves the client alone. -/
def lift (c : Course ε α) : Act σ ε α := StateT.lift c

/-- A notice is given. -/
def note (notice : Notice) : Act σ ε Unit := lift (Course.note notice)

/-- A failure at once. -/
def fail (error : ε) : Act σ ε α := lift (Course.fail error)

/-- The client is asked, and its answer is waited for. -/
def ask (call : Call) (reply : σ → Reply σ α) : Act σ ε (Except Fault α) := fun s =>
  (Course.deed (.call call)).bind fun _ => (reply s).course.bind fun p =>
    (Course.deed (.answered call)).bind fun _ => .pure p

/-- Changes the course of an activity. -/
def mapCourse (f : Course ε (α × σ) → Course ε (β × σ)) (x : Act σ ε α) : Act σ ε β :=
  fun s => f (x s)

/-- A connection is open for as long as an activity lasts. -/
def held (connection : Connection) (x : Act σ ε α) : Act σ ε α :=
  mapCourse (Course.held connection) x

/-- A worker takes over an activity. One that has failed or panicked leaves the client as it was. -/
def spawn {ε' : Type} (handle : Handle) (x : Act σ ε α) :
    Act σ ε' (Except String (Except ε α)) := fun s =>
  (Course.spawn handle (x s)).bind fun back =>
    match back with
    | .ok (.ok (value, s')) => .pure (.ok (.ok value), s')
    | .ok (.error error) => .pure (.ok (.error error), s)
    | .error message => .pure (.error message, s)

/-- An activity with a deadline. -/
def within (limit : Nat) (late : Notice) (error : ε) (x : Act σ ε α) : Act σ ε α :=
  mapCourse (Course.within limit late error) x

/-- The client is taken to the end of a step. -/
def arrive (step : Step σ α) : Act σ ε Unit := fun _ =>
  ⟨step.remarks.map fun (r : Remark) => ⟨step.wait, false, r.deed⟩,
    .returned ((), step.client), step.wait⟩

end Act

/-- What a stage makes of an event: the notices that it gives, and whether it goes on with a new
state or is decided. -/
structure Reaction (κ β : Type) where
  notices : List Notice
  next : κ ⊕ β

namespace Act

variable {σ ε α β κ : Type}

/-- Gives notices one after another. -/
def notes : List Notice → Act σ ε Unit
  | [] => StateT.pure ()
  | n :: rest => do
    note n
    notes rest

/-- Reacts to the steps of a feed until one decides; `none` if the feed closes before that. -/
def followSteps (react : κ → WatchEvent α → Reaction κ β) (closes : Bool) :
    κ → List (Step σ α) → Act σ ε (Option β)
  | _, [] => if closes then StateT.pure none else lift Course.stuck
  | k, step :: rest => do
    arrive step
    match step.item with
    | none => followSteps react closes k rest
    | some (.error message) => lift (Course.panic message)
    | some (.ok event) => do
      let reaction := react k event
      notes reaction.notices
      match reaction.next with
      | .inl k => followSteps react closes k rest
      | .inr decision => StateT.pure (some decision)

/-- Reacts to the events of a feed until one decides; `none` if the feed closes before that. -/
def follow (react : κ → WatchEvent α → Reaction κ β) (k : κ) (feed : Feed σ α) :
    Act σ ε (Option β) := followSteps react feed.closes k feed.steps

end Act

end BatchRun
